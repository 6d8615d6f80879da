import PluginRegistry.Collection.Sorted

/-!
# Finite maps with text keys

The entries of a map stand in strictly increasing key order, so two maps that agree on every look-up
are equal (`KeyMap.ext_get?`).
-/

namespace PluginRegistry

/-- A finite map from texts to values, listed in increasing key order. -/
structure KeyMap (α : Type) where
  entries : List (String × α)
  sorted : entries.Pairwise (fun a b => a.1 < b.1)
  deriving DecidableEq

namespace KeyMap

variable {α β : Type}

/-- Puts an entry into a sorted list of entries, replacing the one with an equal key. -/
def insertEntry (k : String) (v : α) : List (String × α) → List (String × α)
  | [] => [(k, v)]
  | e :: r =>
    if k < e.1 then (k, v) :: e :: r
    else if k = e.1 then (k, v) :: r
    else e :: insertEntry k v r

theorem mem_insertEntry {k : String} {v : α} {e : String × α} {l : List (String × α)}
    (h : e ∈ insertEntry k v l) : e = (k, v) ∨ e ∈ l := by
  induction l with
  | nil => simp_all [insertEntry]
  | cons a r ih =>
    unfold insertEntry at h
    split at h
    · simpa using h
    · split at h <;> grind

theorem pairwise_insertEntry (k : String) (v : α) {l : List (String × α)}
    (h : l.Pairwise (fun a b => a.1 < b.1)) :
    (insertEntry k v l).Pairwise (fun a b => a.1 < b.1) := by
  induction l with
  | nil => simp [insertEntry]
  | cons a r ih =>
    obtain ⟨ha, hr⟩ := List.pairwise_cons.1 h
    unfold insertEntry
    split
    · next hk =>
      refine List.pairwise_cons.2 ⟨fun b hb => ?_, h⟩
      rcases List.mem_cons.1 hb with rfl | hb
      · exact hk
      · exact String.lt_trans hk (ha b hb)
    · next hk =>
      split
      · next he => exact List.pairwise_cons.2 ⟨fun b hb => he ▸ ha b hb, hr⟩
      · next he =>
        refine List.pairwise_cons.2 ⟨fun b hb => ?_, ih hr⟩
        rcases mem_insertEntry hb with rfl | hb
        · rcases String.le_total a.1 k with h1 | h1
          · exact Decidable.byContradiction fun h2 =>
              he (String.le_antisymm (String.not_lt.1 h2) h1)
          · exact absurd (String.le_antisymm h1 (String.not_lt.1 hk)) he
        · exact ha b hb

def find? (k : String) (l : List (String × α)) : Option α :=
  (l.find? (·.1 = k)).map (·.2)

def empty : KeyMap α := ⟨[], List.Pairwise.nil⟩

instance : EmptyCollection (KeyMap α) := ⟨empty⟩

instance : Inhabited (KeyMap α) := ⟨∅⟩

def get? (m : KeyMap α) (k : String) : Option α := find? k m.entries

def contains (m : KeyMap α) (k : String) : Bool := (m.get? k).isSome

def size (m : KeyMap α) : Nat := m.entries.length

def keys (m : KeyMap α) : List String := m.entries.map (·.1)

def values (m : KeyMap α) : List α := m.entries.map (·.2)

def insert (m : KeyMap α) (k : String) (v : α) : KeyMap α :=
  ⟨insertEntry k v m.entries, pairwise_insertEntry k v m.sorted⟩

def filter (p : String → α → Bool) (m : KeyMap α) : KeyMap α :=
  ⟨m.entries.filter fun e => p e.1 e.2, m.sorted.filter _⟩

def erase (m : KeyMap α) (k : String) : KeyMap α := m.filter fun k' _ => k' ≠ k

/-- Inserts a list of entries from left to right, so that the last of equal keys wins. -/
def insertAll (m : KeyMap α) (l : List (String × α)) : KeyMap α :=
  l.foldl (fun m e => m.insert e.1 e.2) m

/-- The map of a list of entries; the last of equal keys wins. -/
def ofList (l : List (String × α)) : KeyMap α := (∅ : KeyMap α).insertAll l

/-- Adds all entries of the second map, replacing those with equal keys. -/
def merge (m n : KeyMap α) : KeyMap α := m.insertAll n.entries

def any (m : KeyMap α) (p : String → α → Bool) : Bool := m.entries.any fun e => p e.1 e.2

@[simp] theorem find?_nil (k : String) : find? k ([] : List (String × α)) = none := rfl

theorem find?_cons (k : String) (e : String × α) (l : List (String × α)) :
    find? k (e :: l) = if e.1 = k then some e.2 else find? k l := by
  unfold find?
  by_cases h : e.1 = k <;> simp [h]

theorem mem_of_find? {k : String} {v : α} {l : List (String × α)} (h : find? k l = some v) :
    (k, v) ∈ l := by
  obtain ⟨e, he, rfl⟩ := Option.map_eq_some_iff.1 h
  have hk : e.1 = k := by simpa using List.find?_some he
  exact hk ▸ List.mem_of_find?_eq_some he

theorem isSome_find? {k : String} {l : List (String × α)} :
    (find? k l).isSome = true ↔ ∃ v, (k, v) ∈ l := by
  constructor
  · intro h
    obtain ⟨v, hv⟩ := Option.isSome_iff_exists.1 h
    exact ⟨v, mem_of_find? hv⟩
  · rintro ⟨v, hv⟩
    rw [find?, Option.isSome_map, List.find?_isSome]
    exact ⟨(k, v), hv, by simp⟩

theorem find?_insertEntry (k k' : String) (v : α) (l : List (String × α)) :
    find? k' (insertEntry k v l) = if k = k' then some v else find? k' l := by
  induction l with
  | nil => simp [insertEntry, find?_cons]
  | cons a r ih =>
    unfold insertEntry
    split
    · simp [find?_cons]
    · split
      · next he => simp only [find?_cons, ← he]; split <;> rfl
      · next he =>
        rw [find?_cons, find?_cons, ih]
        by_cases hk : k = k'
        · have : a.1 ≠ k' := fun e => he (hk.trans e.symm)
          simp [hk, this]
        · simp [hk]

@[simp] theorem get?_empty (k : String) : (∅ : KeyMap α).get? k = none := rfl

@[simp] theorem get?_insert (m : KeyMap α) (k k' : String) (v : α) :
    (m.insert k v).get? k' = if k = k' then some v else m.get? k' :=
  find?_insertEntry k k' v m.entries

theorem mem_entries_iff {m : KeyMap α} {k : String} {v : α} :
    (k, v) ∈ m.entries ↔ m.get? k = some v := by
  obtain ⟨l, hl⟩ := m
  show (k, v) ∈ l ↔ find? k l = some v
  induction l with
  | nil => simp
  | cons a r ih =>
    obtain ⟨ha, hr⟩ := List.pairwise_cons.1 hl
    rw [find?_cons]
    by_cases h : a.1 = k
    · subst h
      rw [if_pos rfl, List.mem_cons]
      constructor
      · rintro (h | h)
        · rw [← h]
        · exact absurd (ha _ h) (String.lt_irrefl _)
      · intro h; exact Or.inl (by rw [← Option.some.inj h])
    · rw [if_neg h, ← ih hr, List.mem_cons]
      exact ⟨fun h' => h'.resolve_left fun e => h (by rw [← e]), Or.inr⟩

theorem get?_filter (m : KeyMap α) (p : String → α → Bool) (k : String) :
    (m.filter p).get? k = (m.get? k).filter (p k) := by
  apply Option.ext
  intro v
  rw [← mem_entries_iff, Option.filter_eq_some_iff, ← mem_entries_iff]
  simp [filter]

theorem get?_erase (m : KeyMap α) (k k' : String) :
    (m.erase k).get? k' = if k = k' then none else m.get? k' := by
  rw [erase, get?_filter]
  by_cases h : k = k'
  · cases m.get? k' <;> simp [h, Option.filter]
  · have h' : k' ≠ k := fun e => h e.symm
    cases m.get? k' <;> simp [h, h', Option.filter]

theorem contains_iff {m : KeyMap α} {k : String} : m.contains k = true ↔ k ∈ m.keys := by
  simp only [contains, keys, Option.isSome_iff_exists, List.mem_map, ← mem_entries_iff]
  exact ⟨fun ⟨v, h⟩ => ⟨_, h, rfl⟩, fun ⟨⟨k', v⟩, h, e⟩ => ⟨v, by cases e; exact h⟩⟩

/-- Two maps with the same look-ups are equal. -/
theorem ext_get? {m n : KeyMap α} (h : ∀ k, m.get? k = n.get? k) : m = n := by
  have : m.entries = n.entries := Sorted.eq_of_mem_iff Prod.fst m.sorted n.sorted fun e => by
    rw [mem_entries_iff (m := m) (k := e.1), mem_entries_iff (m := n) (k := e.1), h]
  cases m; cases n; cases this; rfl

theorem get?_insertAll (m : KeyMap α) (l : List (String × α)) (k : String) :
    (m.insertAll l).get? k = (find? k l.reverse).or (m.get? k) := by
  induction l generalizing m with
  | nil => simp [insertAll]
  | cons a r ih =>
    have : (m.insertAll (a :: r)) = (m.insert a.1 a.2).insertAll r := rfl
    rw [this, ih, get?_insert, List.reverse_cons]
    have happ : find? k (r.reverse ++ [a]) = (find? k r.reverse).or (find? k [a]) := by
      simp only [find?, List.find?_append]
      cases r.reverse.find? (·.1 = k) <;> simp
    rw [happ, find?_cons]
    by_cases h : a.1 = k <;> cases find? k r.reverse <;> simp [h]

/-- A key of both maps takes its value from the second. -/
theorem get?_merge (m n : KeyMap α) (k : String) :
    (m.merge n).get? k = (n.get? k).or (m.get? k) := by
  rw [merge, get?_insertAll]
  congr 1
  apply Option.ext
  intro v
  rw [← mem_entries_iff]
  obtain ⟨l, hl⟩ := n
  show find? k l.reverse = some v ↔ (k, v) ∈ l
  constructor
  · intro h
    obtain ⟨e, he, rfl⟩ := Option.map_eq_some_iff.1 h
    have := List.mem_of_find?_eq_some he
    have hk := List.find?_some he
    simp only [decide_eq_true_eq] at hk
    rw [← hk]
    simpa using this
  · intro h
    cases hf : l.reverse.find? (·.1 = k) with
    | none => exact absurd (List.find?_eq_none.1 hf (k, v) (by simpa using h)) (by simp)
    | some e =>
      have he := List.mem_of_find?_eq_some hf
      have hk := List.find?_some hf
      simp only [decide_eq_true_eq] at hk
      have h1 := (mem_entries_iff (m := ⟨l, hl⟩)).1 h
      have h2 := (mem_entries_iff (m := ⟨l, hl⟩) (k := k) (v := e.2)).1
        (by rw [← hk]; simpa using he)
      simp only [find?, hf, Option.map_some]
      exact h2.symm.trans h1

theorem get?_ofList (l : List (String × α)) (k : String) :
    (ofList l).get? k = find? k l.reverse := by
  rw [ofList, get?_insertAll, get?_empty, Option.or_none]

/-- Mapping the values of a list of entries maps those of its map. -/
theorem get?_ofList_map (g : α → β) (l : List (String × α)) (key : String) :
    (ofList (l.map fun e => (e.1, g e.2))).get? key = ((ofList l).get? key).map g := by
  rw [get?_ofList, get?_ofList, ← List.map_reverse]
  induction l.reverse with
  | nil => rfl
  | cons e r ih =>
    rw [List.map_cons, find?_cons, find?_cons, ih]
    split <;> rfl

/-- Filtering the entries of a list filters its map, if entries under one key share a fate. -/
theorem get?_ofList_filter {l : List (String × α)} {q : String × α → Bool}
    (h : ∀ e ∈ l, ∀ e' ∈ l, e.1 = e'.1 → q e = q e') (k : String) :
    (ofList (l.filter q)).get? k = ((ofList l).get? k).filter fun v => q (k, v) := by
  rw [get?_ofList, get?_ofList, ← List.filter_reverse]
  replace h : ∀ e ∈ l.reverse, ∀ e' ∈ l.reverse, e.1 = e'.1 → q e = q e' := by simpa using h
  generalize l.reverse = r at h
  induction r with
  | nil => rfl
  | cons a r ih =>
    have ih := ih fun e he e' he' => h e (by simp [he]) e' (by simp [he'])
    rw [List.filter_cons, find?_cons]
    by_cases ha : a.1 = k
    · have hq : q a = q (k, a.2) := by rw [← ha]
      rw [if_pos ha, Option.filter_some, ← hq]
      split
      · rw [find?_cons, if_pos ha]
      · next hn =>
        rw [ih]
        cases hf : find? k r with
        | none => rfl
        | some v =>
          have hv := h a (by simp) (k, v) (by simp [mem_of_find? hf]) ha
          simp [← hv, hn]
    · rw [if_neg ha, ← ih]
      split
      · rw [find?_cons, if_neg ha]
      · rfl

/-- The last entry under a key that a list gives rise to. -/
theorem get?_ofList_filterMap_eq_some_iff {β : Type} {g : β → Option (String × α)} {l : List β}
    {k : String} {v : α} :
    (ofList (l.filterMap g)).get? k = some v ↔
      ∃ before b after, l = before ++ b :: after ∧ g b = some (k, v) ∧
        ∀ b' ∈ after, ∀ w, g b' ≠ some (k, w) := by
  rw [get?_ofList, ← List.filterMap_reverse, find?, List.find?_filterMap]
  constructor
  · intro h
    obtain ⟨e, he, rfl⟩ := Option.map_eq_some_iff.1 h
    obtain ⟨b, hb, hg⟩ := Option.bind_eq_some_iff.1 he
    obtain ⟨hk, after, before, hl, hn⟩ := List.find?_eq_some_iff_append.1 hb
    refine ⟨before.reverse, b, after.reverse, ?_, ?_, fun b' hb' w hw => ?_⟩
    · rw [← l.reverse_reverse, hl]
      simp
    · rw [hg, Option.any_some, decide_eq_true_eq] at hk
      rw [hg, ← hk]
    · have := hn b' (List.mem_reverse.1 hb')
      simp [hw] at this
  · rintro ⟨before, b, after, rfl, hg, hn⟩
    have hf : (before ++ b :: after).reverse.find? (fun b => (g b).any fun e => e.1 = k) =
        some b := by
      refine List.find?_eq_some_iff_append.2
        ⟨by simp [hg], after.reverse, before.reverse, by simp, fun b' hb' => ?_⟩
      cases hw : g b' with
      | none => rfl
      | some e =>
        have hne : e.1 ≠ k := fun he => hn b' (List.mem_reverse.1 hb') e.2 (by rw [hw, ← he])
        simp [hne]
    rw [hf, Option.bind_some, hg]
    rfl

theorem any_iff {m : KeyMap α} {p : String → α → Bool} :
    m.any p = true ↔ ∃ k v, m.get? k = some v ∧ p k v = true := by
  simp only [any, List.any_eq_true, ← mem_entries_iff]
  exact ⟨fun ⟨e, he, hp⟩ => ⟨e.1, e.2, he, hp⟩, fun ⟨k, v, he, hp⟩ => ⟨(k, v), he, hp⟩⟩

/-- A filter that keeps the size of a map keeps every entry. -/
theorem size_filter_eq_iff {m : KeyMap α} {p : String → α → Bool} :
    (m.filter p).size = m.size ↔ ∀ k v, m.get? k = some v → p k v = true := by
  rw [size, size, filter, List.length_filter_eq_length_iff]
  constructor
  · intro h k v hv
    exact h (k, v) (mem_entries_iff.2 hv)
  · intro h e he
    exact h e.1 e.2 (mem_entries_iff.1 he)

theorem pairwise_keys (m : KeyMap α) : m.keys.Pairwise (· < ·) :=
  List.pairwise_map.2 m.sorted

/-- Maps that contain the same keys list the same keys. -/
theorem keys_eq_iff {m : KeyMap α} {n : KeyMap β} :
    m.keys = n.keys ↔ ∀ k, m.contains k = n.contains k := by
  constructor
  · intro h k
    rw [Bool.eq_iff_iff, contains_iff, contains_iff, h]
  · intro h
    apply Sorted.eq_of_mem_iff id m.pairwise_keys n.pairwise_keys
    intro k
    rw [← contains_iff, ← contains_iff, h]

/-- At most one entry stands under a key. -/
theorem filter_entries_eq (m : KeyMap α) (k : String) :
    m.entries.filter (fun e => e.1 = k) = (m.get? k).toList.map (k, ·) := by
  have hr : ((m.get? k).toList.map (k, ·)).Pairwise (fun a b => a.1 < b.1) := by
    cases m.get? k <;> simp
  apply Sorted.eq_of_mem_iff Prod.fst (m.sorted.filter _) hr
  intro e
  rw [List.mem_filter, List.mem_map]
  constructor
  · rintro ⟨he, hk⟩
    have hk : e.1 = k := by simpa using hk
    exact ⟨e.2, by rw [← hk, mem_entries_iff.1 he]; simp, by rw [← hk]⟩
  · rintro ⟨v, hv, rfl⟩
    exact ⟨mem_entries_iff.2 (by simpa using hv), by simp⟩

end KeyMap

end PluginRegistry
