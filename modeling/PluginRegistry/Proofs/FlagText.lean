import Mathlib.Data.List.Forall2
import Mathlib.Data.List.TakeWhile
import PluginRegistry.Plugin.Flags

/-!
# The text of a set of flags

The terms of a text have neither bars nor blank characters, so what is joined with bars is taken
apart into the same terms again (`trim_splitAt_intercalate`). Each term reads as the part of the set
that it was written for, and the parts make up the set. Any of the 256 sets therefore reads back
from its own text (`Flags.read_text`).
-/

namespace PluginRegistry

namespace Text

def Solid (cs : List Char) : Prop := ∀ c ∈ cs, isBlank c = false ∧ c ≠ '|'

instance (cs : List Char) : Decidable (Solid cs) :=
  List.decidableBAll (fun c => isBlank c = false ∧ c ≠ '|') cs

theorem trim_eq_nil_iff {cs : List Char} : trim cs = [] ↔ ∀ c ∈ cs, isBlank c = true := by
  rw [trim, List.reverse_eq_nil_iff, List.dropWhile_eq_nil_iff]
  constructor
  · intro h
    have hd : cs.dropWhile isBlank = [] := by
      by_contra hn
      have hb := h ((cs.dropWhile isBlank).head hn) (by simp)
      exact absurd hb (by simp [List.head_dropWhile_not isBlank hn])
    exact List.dropWhile_eq_nil_iff.1 hd
  · intro h c hc
    exact h c ((List.dropWhile_sublist isBlank).subset (List.mem_reverse.1 hc))

theorem dropWhile_isBlank {front cs : List Char} (hf : ∀ c ∈ front, isBlank c = true)
    (hc : Solid cs) (hn : cs ≠ []) (rest : List Char) :
    (front ++ cs ++ rest).dropWhile isBlank = cs ++ rest := by
  rw [List.append_assoc, List.dropWhile_append_of_pos hf]
  cases cs with
  | nil => exact absurd rfl hn
  | cons c cs => exact List.dropWhile_cons_of_neg (by simp [hc c])

/-- Blank characters on either side of a term are dropped. -/
theorem trim_padded {front cs back : List Char} (hf : ∀ c ∈ front, isBlank c = true)
    (hb : ∀ c ∈ back, isBlank c = true) (hc : Solid cs) (hn : cs ≠ []) :
    trim (front ++ cs ++ back) = cs := by
  have hr : Solid cs.reverse := fun c h => hc c (List.mem_reverse.1 h)
  have hbr : ∀ c ∈ back.reverse, isBlank c = true := fun c h => hb c (List.mem_reverse.1 h)
  have hd := dropWhile_isBlank hbr hr (by simpa using hn) []
  rw [List.append_nil, List.append_nil] at hd
  rw [trim, dropWhile_isBlank hf hc hn, List.reverse_append, hd, List.reverse_reverse]

theorem splitAt_of_not_mem {sep : Char} {cs : List Char} (h : sep ∉ cs) :
    splitAt sep cs = [cs] := by
  induction cs with
  | nil => rfl
  | cons c r ih =>
    obtain ⟨hc, hr⟩ := not_or.1 (mt List.mem_cons.2 h)
    rw [splitAt, if_neg (Ne.symm hc), ih hr]

theorem splitAt_append {sep : Char} {cs : List Char} (h : sep ∉ cs) (rest : List Char) :
    splitAt sep (cs ++ sep :: rest) = cs :: splitAt sep rest := by
  induction cs with
  | nil => exact if_pos rfl
  | cons c r ih =>
    obtain ⟨hc, hr⟩ := not_or.1 (mt List.mem_cons.2 h)
    rw [List.cons_append, splitAt, if_neg (Ne.symm hc), ih hr]

def bar : List Char := [' ', '|', ' ']

/-- Terms that were joined are taken apart again. A blank may stand in front, as it does after a
bar. -/
theorem trim_splitAt_intercalate {front : List Char} (hf : front = [] ∨ front = [' '])
    {ts : List (List Char)} (hn : ts ≠ []) (h : ∀ t ∈ ts, Solid t ∧ t ≠ []) :
    (splitAt '|' (front ++ bar.intercalate ts)).map trim = ts := by
  induction ts generalizing front with
  | nil => exact absurd rfl hn
  | cons t us ih =>
    obtain ⟨solid, ht⟩ := h t List.mem_cons_self
    have single : ∀ c ∈ [' '], isBlank c = true ∧ c ≠ '|' :=
      List.forall_mem_singleton.2 (by decide)
    have blank : ∀ c ∈ front, isBlank c = true ∧ c ≠ '|' := by
      rcases hf with rfl | rfl
      · exact List.forall_mem_nil _
      · exact single
    have clear {back : List Char} (hb : '|' ∉ back) : '|' ∉ front ++ t ++ back := by
      simp only [List.mem_append, not_or]
      exact ⟨⟨fun hm => (blank _ hm).2 rfl, fun hm => (solid _ hm).2 rfl⟩, hb⟩
    have trimmed {back : List Char} (hb : ∀ c ∈ back, isBlank c = true) :
        trim (front ++ t ++ back) = t :=
      trim_padded (fun c hc => (blank c hc).1) hb solid ht
    cases us with
    | nil =>
      have hs : front ++ t = front ++ t ++ [] := (List.append_nil _).symm
      rw [List.intercalate_singleton, hs, splitAt_of_not_mem (clear List.not_mem_nil),
        List.map_singleton, trimmed (List.forall_mem_nil _)]
    | cons u us =>
      have hs : front ++ bar.intercalate (t :: u :: us) =
          front ++ t ++ [' '] ++ '|' :: ([' '] ++ bar.intercalate (u :: us)) := by
        rw [List.intercalate_cons_cons]
        simp [bar]
      rw [hs, splitAt_append (clear fun hm => (single _ hm).2 rfl), List.map_cons,
        trimmed fun c hc => (single c hc).1,
        ih (Or.inr rfl) (List.cons_ne_nil u us) (List.forall_mem_cons.1 h).2]

theorem hexDigit?_digitChar {d : Nat} (h : d < 16) : hexDigit? (Nat.digitChar d) = some d := by
  have all : ∀ d : Fin 16, hexDigit? (Nat.digitChar d) = some d.val := by decide
  exact all ⟨d, h⟩

/-- A number is read digit by digit. -/
theorem foldl_toDigits (n : Nat) :
    (Nat.toDigits 16 n).foldl (fun acc c => do return 16 * (← acc) + (← hexDigit? c)) (some 0) =
      some n := by
  induction n using Nat.strongRecOn with
  | ind n ih =>
    rcases Nat.lt_or_ge n 16 with hn | hn
    · rw [Nat.toDigits_of_lt_base hn]
      simp [hexDigit?_digitChar hn]
    · rw [Nat.toDigits_of_base_le (by decide) hn, List.foldl_append, ih (n / 16) (by omega)]
      simp [hexDigit?_digitChar (Nat.mod_lt n (by decide : 0 < 16)), Nat.div_add_mod]

theorem readHex?_toDigits (n : Nat) : readHex? (Nat.toDigits 16 n) = some n := by
  rw [readHex?, if_neg (by simp [Nat.toDigits_ne_nil]), foldl_toDigits]

/-- The digits of a number are neither blank nor bars nor signs. -/
theorem mem_toDigits {n : Nat} {c : Char} (h : c ∈ Nat.toDigits 16 n) :
    isBlank c = false ∧ c ≠ '|' ∧ c ≠ '+' := by
  have all : ∀ d : Fin 16, isBlank (Nat.digitChar d) = false ∧ Nat.digitChar d ≠ '|' ∧
      Nat.digitChar d ≠ '+' := by decide
  induction n using Nat.strongRecOn with
  | ind n ih =>
    rcases Nat.lt_or_ge n 16 with hn | hn
    · rw [Nat.toDigits_of_lt_base hn, List.mem_singleton] at h
      exact h ▸ all ⟨n, hn⟩
    · rw [Nat.toDigits_of_base_le (by decide) hn, List.mem_append, List.mem_singleton] at h
      rcases h with h | rfl
      · exact ih (n / 16) (by omega) h
      · exact all ⟨n % 16, Nat.mod_lt n (by decide)⟩

theorem toList_hexTerm (n : Nat) :
    ("0x" ++ hexText n).toList = '0' :: 'x' :: Nat.toDigits 16 n := by
  simp [hexText]

theorem solid_hexTerm (n : Nat) : Solid ("0x" ++ hexText n).toList := by
  rw [toList_hexTerm]
  refine List.forall_mem_cons.2 ⟨by decide, List.forall_mem_cons.2 ⟨by decide, ?_⟩⟩
  exact fun c hc => ⟨(mem_toDigits hc).1, (mem_toDigits hc).2.1⟩

end Text

namespace Flags

open Text

/-- The sets that the terms of a text stand for. -/
def parts (s : Flags) : List Flags :=
  (Flag.all.filter s.has).map (fun f => ⟨f.mask⟩) ++
    if s.unknown.bits = 0 then [] else [s.unknown]

/-- The flags of a set and its bits without a name make up the set. -/
theorem foldl_union_parts (s : Flags) : s.parts.foldl union ∅ = s := by
  have all : ∀ i : Fin 256, (parts ⟨.ofFin i⟩).foldl union ∅ = ⟨.ofFin i⟩ := by decide +kernel
  exact all s.bits.toFin

theorem readTerm_name (f : Flag) : readTerm f.name.toList = .ok ⟨f.mask⟩ := by
  cases f <;> rfl

theorem solid_name (f : Flag) : Solid f.name.toList ∧ f.name.toList ≠ [] := by
  cases f <;> decide

theorem readTerm_hexTerm {n : Nat} (h : n < 256) :
    readTerm ("0x" ++ hexText n).toList = .ok ⟨UInt8.ofNat n⟩ := by
  have unsigned (r : List Char) : Nat.toDigits 16 n ≠ '+' :: r := by
    intro hr
    have hp : '+' ∈ Nat.toDigits 16 n := hr ▸ List.mem_cons_self
    exact (mem_toDigits hp).2.2 rfl
  rw [toList_hexTerm, readTerm]
  · rw [readHex?_toDigits]
    exact if_pos h
  · exact unsigned

/-- Each term reads as its part. -/
theorem readTerm_terms (s : Flags) :
    List.Forall₂ (fun t p => readTerm t = .ok p) (s.terms.map String.toList) s.parts := by
  rw [terms, parts, List.map_append]
  refine List.rel_append ?_ ?_
  · rw [List.map_map, List.forall₂_map_left_iff, List.forall₂_map_right_iff]
    exact List.forall₂_same.2 fun f _ => readTerm_name f
  · split
    · exact .nil
    · refine .cons ?_ .nil
      rw [readTerm_hexTerm s.unknown.bits.toNat_lt, UInt8.ofNat_toNat]

theorem solid_terms {s : Flags} {t : List Char} (h : t ∈ s.terms.map String.toList) :
    Solid t ∧ t ≠ [] := by
  obtain ⟨t, ht, rfl⟩ := List.mem_map.1 h
  rw [terms, List.mem_append] at ht
  rcases ht with ht | ht
  · obtain ⟨f, -, rfl⟩ := List.mem_map.1 ht
    exact solid_name f
  · split at ht
    · cases ht
    · rw [List.mem_singleton.1 ht]
      exact ⟨solid_hexTerm _, by simp⟩

theorem foldlM_readTerm {cs : List (List Char)} {ps : List Flags}
    (h : List.Forall₂ (fun t p => readTerm t = .ok p) (cs.map trim) ps) (s : Flags) :
    cs.foldlM (fun s t => return s.union (← readTerm (trim t))) s = .ok (ps.foldl union s) := by
  rw [List.forall₂_map_left_iff] at h
  induction h generalizing s with
  | nil => rfl
  | cons ht _ ih =>
    rw [List.foldlM_cons, ht]
    exact ih _

/-- The text of any set of flags reads as that set. -/
theorem read_text (s : Flags) : read s.text = .ok s := by
  have hs : s.text.toList = bar.intercalate (s.terms.map String.toList) := by
    rw [text, String.toList_intercalate]
    rfl
  rw [read, readChars, hs]
  by_cases hn : s.terms.map String.toList = []
  · -- No term at all: the set is empty and its text is blank.
    have hp : s.parts = [] := by
      have := readTerm_terms s
      rw [hn] at this
      exact List.forall₂_nil_left_iff.1 this
    have he := foldl_union_parts s
    rw [hp] at he
    rw [hn, ← he]
    rfl
  · have taken := trim_splitAt_intercalate (Or.inl rfl) hn fun t => solid_terms
    rw [List.nil_append] at taken
    have shown : trim (bar.intercalate (s.terms.map String.toList)) ≠ [] := by
      -- A blank text has no bar and would be the only term, but no term is blank.
      intro hb
      have clear : '|' ∉ bar.intercalate (s.terms.map String.toList) := fun hm =>
        absurd (trim_eq_nil_iff.1 hb _ hm) (by decide)
      rw [splitAt_of_not_mem clear, List.map_singleton, hb] at taken
      have hm : [] ∈ s.terms.map String.toList := taken ▸ List.mem_singleton_self []
      exact (solid_terms hm).2 rfl
    rw [if_neg (by simpa using shown), foldlM_readTerm (taken ▸ readTerm_terms s),
      foldl_union_parts]

end Flags

end PluginRegistry
