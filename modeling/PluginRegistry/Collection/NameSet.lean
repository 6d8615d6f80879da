import PluginRegistry.Collection.Sorted

/-!
# Finite sets of texts

A set is the strictly increasing list of its elements, so equal sets are equal values
(`NameSet.ext_mem`).
-/

namespace PluginRegistry

/-- A finite set of texts, listed in increasing order. -/
structure NameSet where
  toList : List String
  sorted : toList.Pairwise (· < ·)
  deriving DecidableEq

namespace NameSet

/-- Puts a text into a sorted list, unless it is there. -/
def insertSorted (a : String) : List String → List String
  | [] => [a]
  | b :: r => if a < b then a :: b :: r else if a = b then b :: r else b :: insertSorted a r

theorem mem_insertSorted {a x : String} {l : List String} :
    x ∈ insertSorted a l ↔ x = a ∨ x ∈ l := by
  induction l with
  | nil => simp [insertSorted]
  | cons b r ih =>
    unfold insertSorted
    split
    · simp
    · split <;> grind

theorem pairwise_insertSorted (a : String) {l : List String} (h : l.Pairwise (· < ·)) :
    (insertSorted a l).Pairwise (· < ·) := by
  induction l with
  | nil => simp [insertSorted]
  | cons b r ih =>
    obtain ⟨hb, hr⟩ := List.pairwise_cons.1 h
    unfold insertSorted
    split
    · next hab =>
      refine List.pairwise_cons.2 ⟨fun c hc => ?_, h⟩
      rcases List.mem_cons.1 hc with rfl | hc
      · exact hab
      · exact String.lt_trans hab (hb c hc)
    · next hab =>
      split
      · exact h
      · next hne =>
        refine List.pairwise_cons.2 ⟨fun c hc => ?_, ih hr⟩
        rcases mem_insertSorted.1 hc with rfl | hc
        · exact Decidable.byContradiction fun hn =>
            hne (String.le_antisymm (String.not_lt.1 hn) (String.not_lt.1 hab))
        · exact hb c hc

def empty : NameSet := ⟨[], List.Pairwise.nil⟩

instance : EmptyCollection NameSet := ⟨empty⟩

instance : Inhabited NameSet := ⟨∅⟩

instance : Membership String NameSet := ⟨fun s a => a ∈ s.toList⟩

instance (a : String) (s : NameSet) : Decidable (a ∈ s) :=
  inferInstanceAs (Decidable (a ∈ s.toList))

def contains (s : NameSet) (a : String) : Bool := decide (a ∈ s)

def insert (s : NameSet) (a : String) : NameSet :=
  ⟨insertSorted a s.toList, pairwise_insertSorted a s.sorted⟩

def ofList (l : List String) : NameSet := l.foldl insert ∅

@[simp] theorem not_mem_empty (a : String) : a ∉ (∅ : NameSet) := List.not_mem_nil

@[simp] theorem mem_insert {a b : String} {s : NameSet} : a ∈ s.insert b ↔ a = b ∨ a ∈ s :=
  mem_insertSorted

theorem mem_foldl_insert {a : String} {l : List String} {s : NameSet} :
    a ∈ l.foldl insert s ↔ a ∈ l ∨ a ∈ s := by
  induction l generalizing s with
  | nil => simp
  | cons b r ih =>
    rw [List.foldl_cons, ih, mem_insert, List.mem_cons, ← or_assoc, or_comm (a := a ∈ r)]

@[simp] theorem mem_ofList {a : String} {l : List String} : a ∈ ofList l ↔ a ∈ l := by
  rw [ofList, mem_foldl_insert]; simp

/-- Two sets with the same elements are equal. -/
theorem ext_mem {s t : NameSet} (h : ∀ a, a ∈ s ↔ a ∈ t) : s = t := by
  have : s.toList = t.toList := Sorted.eq_of_mem_iff id s.sorted t.sorted h
  cases s; cases t; cases this; rfl

/-- Writing a set out and reading it back gives the same set. -/
@[simp] theorem ofList_toList (s : NameSet) : ofList s.toList = s :=
  ext_mem fun _ => mem_ofList.trans Iff.rfl

end NameSet

end PluginRegistry
