import PluginRegistry.Document.Json
import Mathlib.Data.List.Basic

/-!
# What a JSON text denotes

The text of a value that is made of null, booleans, integers and texts can be taken apart again. An
escape stands for one character, and two characters of it tell where it ends
(`escape_append_inj`). An integer ends where no digit follows, and the first character of a value
tells its kind. So a text denotes one such value at most (`Denotes.unique`).
-/

namespace PluginRegistry.Document

inductive Value.Plain : Value → Prop
  | null : Plain .null
  | boolean (b : Bool) : Plain (.boolean b)
  | integer (n : Int) : Plain (.integer n)
  | text (s : String) : Plain (.text s)
  | sequence {vs : List Value} (items : ∀ v ∈ vs, Plain v) : Plain (.sequence vs)
  | mapping {fs : List (String × Value)} (fields : ∀ e ∈ fs, Plain e.2) : Plain (.mapping fs)

theorem Value.Plain.items {vs : List Value} (h : Plain (.sequence vs)) : ∀ v ∈ vs, Plain v := by
  cases h with
  | sequence items => exact items

theorem Value.Plain.fields {fs : List (String × Value)} (h : Plain (.mapping fs)) :
    ∀ e ∈ fs, Plain e.2 := by
  cases h with
  | mapping fields => exact fields

namespace Json

variable {cs ds as bs : List Char}

/-- How a character may stand between quotes: by itself, as a backslash with a letter, or as one
with a number of four digits. -/
def isEscape : List Char → Bool
  | [] => false
  | c :: cs =>
    if c = '\\' then
      match cs with
      | [] => false
      | d :: ds => if d = 'u' then ds.length == 4 else ds.isEmpty
    else c != '"' && cs.isEmpty

def unescaped : List Char → Char
  | ['\\', 'n'] => '\n'
  | ['\\', 'r'] => '\r'
  | ['\\', 't'] => '\t'
  | ['\\', 'b'] => '\x08'
  | ['\\', 'f'] => '\x0c'
  | '\\' :: 'u' :: ds => .ofNat ((Text.readHex? ds).getD 0)
  | ['\\', c] => c
  | c :: _ => c
  | [] => default

theorem escapedChar_spec (c : Char) :
    isEscape (escapedChar c).toList = true ∧ unescaped (escapedChar c).toList = c := by
  have control : ∀ n : Fin 32, isEscape (escapedChar (.ofNat n)).toList = true ∧
      unescaped (escapedChar (.ofNat n)).toList = .ofNat n := by
    decide +kernel
  by_cases hc : c.toNat < 32
  · have := control ⟨c.toNat, hc⟩
    rwa [Char.ofNat_toNat] at this
  · by_cases hq : c = '"'
    · subst hq
      decide
    by_cases hb : c = '\\'
    · subst hb
      decide
    have plain : escapedChar c = String.singleton c := by
      have other (d : Char) (hd : d.toNat < 32) : c ≠ d := fun he => hc (he ▸ hd)
      simp [escapedChar, hq, hb, hc, other '\n', other '\r', other '\t', other '\x08',
        other '\x0c']
    rw [plain]
    simp [isEscape, unescaped, hq, hb]

/-- Where an escape ends is told by its first two characters. -/
theorem escape_append_inj (hc : isEscape cs = true) (hd : isEscape ds = true)
    (h : cs ++ as = ds ++ bs) : cs = ds ∧ as = bs := by
  apply List.append_inj h
  cases cs with
  | nil => cases hc
  | cons c cs =>
    cases ds with
    | nil => cases hd
    | cons d ds =>
      have ⟨first, rest⟩ := List.cons.inj h
      subst first
      unfold isEscape at hc hd
      cases cs <;> cases ds <;> grind

theorem escape_append_ne (hc : isEscape cs = true) : cs ++ as ≠ '"' :: bs := by
  rintro h
  cases cs with
  | nil => cases hc
  | cons c cs =>
    cases (List.cons.inj h).1
    unfold isEscape at hc
    grind

theorem escapes_append_inj
    (h : cs.flatMap (fun c => (escapedChar c).toList) ++ '"' :: as =
      ds.flatMap (fun c => (escapedChar c).toList) ++ '"' :: bs) : cs = ds ∧ as = bs := by
  induction cs generalizing ds with
  | nil =>
    cases ds with
    | nil => exact ⟨rfl, (List.cons.inj h).2⟩
    | cons d ds =>
      rw [List.flatMap_cons, List.append_assoc] at h
      exact absurd h.symm (escape_append_ne (escapedChar_spec d).1)
  | cons c cs ih =>
    rw [List.flatMap_cons, List.append_assoc] at h
    cases ds with
    | nil => exact absurd h (escape_append_ne (escapedChar_spec c).1)
    | cons d ds =>
      rw [List.flatMap_cons, List.append_assoc] at h
      obtain ⟨he, h⟩ := escape_append_inj (escapedChar_spec c).1 (escapedChar_spec d).1 h
      have hcd : c = d := by
        rw [← (escapedChar_spec c).2, he, (escapedChar_spec d).2]
      obtain ⟨hs, h⟩ := ih h
      exact ⟨by rw [hcd, hs], h⟩

theorem quote_append_inj {s t : String} (h : (quote s).toList ++ as = (quote t).toList ++ bs) :
    s = t ∧ as = bs := by
  have quoted (s : String) (as : List Char) : (quote s).toList ++ as =
      '"' :: (s.toList.flatMap (fun c => (escapedChar c).toList) ++ '"' :: as) := by
    simp [quote, List.flatMap_map]
  rw [quoted, quoted] at h
  obtain ⟨hs, h⟩ := escapes_append_inj (List.cons.inj h).2
  exact ⟨String.toList_inj.1 hs, h⟩

theorem isDigit_of_mem_repr {k : Nat} {c : Char} (h : c ∈ k.repr.toList) : c.isDigit = true := by
  rw [Nat.toList_repr] at h
  exact Nat.isDigit_of_mem_toDigits (by decide) (by decide) h

theorem repr_nat_inj {k l : Nat} (h : k.repr.toList = l.repr.toList) : k = l := by
  rw [Nat.toList_repr, Nat.toList_repr] at h
  calc
    k = Nat.ofDigitChars 10 (Nat.toDigits 10 k) 0 := Nat.ofDigitChars_ten_toDigits.symm
    _ = Nat.ofDigitChars 10 (Nat.toDigits 10 l) 0 := by rw [h]
    _ = l := Nat.ofDigitChars_ten_toDigits

/-- An integer is written as its digits, with a sign in front of them if it is negative. -/
theorem toList_toString_int (n : Int) :
    (toString n).toList =
      if 0 ≤ n then n.toNat.repr.toList else '-' :: (-n).toNat.repr.toList := by
  rw [Int.toString_eq_repr, Int.repr_eq_if]
  split
  · rfl
  · rw [String.toList_append]
    rfl

theorem toString_int_inj {m n : Int} (h : (toString m).toList = (toString n).toList) : m = n := by
  have unsigned (k : Nat) (cs : List Char) : k.repr.toList ≠ '-' :: cs := by
    intro hk
    have hd := isDigit_of_mem_repr (k := k) (c := '-') (by simp [hk])
    exact absurd hd (by decide)
  rw [toList_toString_int, toList_toString_int] at h
  split at h <;> split at h
  · have := repr_nat_inj h
    omega
  · exact absurd h (unsigned _ _)
  · exact absurd h.symm (unsigned _ _)
  · have := repr_nat_inj (List.cons.inj h).2
    omega

def isNumeral (c : Char) : Bool := c.isDigit || c = '-'

theorem isNumeral_of_mem {n : Int} {c : Char} (h : c ∈ (toString n).toList) :
    isNumeral c = true := by
  rw [toList_toString_int] at h
  split at h
  · simp [isNumeral, isDigit_of_mem_repr h]
  · rcases List.mem_cons.1 h with rfl | h
    · rfl
    · simp [isNumeral, isDigit_of_mem_repr h]

/-- No integer goes on here. -/
def Ends (cs : List Char) : Prop := ∀ c ∈ cs.head?, isNumeral c = false

theorem Ends.takeWhile_eq (h : Ends as) : as.takeWhile isNumeral = [] := by
  cases as with
  | nil => rfl
  | cons c as => rw [List.takeWhile_cons, if_neg (by simp [h c rfl])]

theorem integer_append_inj {m n : Int} (ha : Ends as) (hb : Ends bs)
    (h : (toString m).toList ++ as = (toString n).toList ++ bs) : m = n ∧ as = bs := by
  have same := congrArg (List.takeWhile isNumeral) h
  rw [List.takeWhile_append_of_pos fun _ => isNumeral_of_mem, ha.takeWhile_eq,
    List.takeWhile_append_of_pos fun _ => isNumeral_of_mem, hb.takeWhile_eq,
    List.append_nil, List.append_nil] at same
  rw [same] at h
  exact ⟨toString_int_inj same, List.append_cancel_left h⟩

theorem ends_cons {c : Char} (hc : isNumeral c = false) : Ends (c :: as) := by
  intro d hd
  cases hd
  exact hc

/-- The characters of integers are not told apart, nor are those that start a boolean. -/
def kind (c : Char) : Char := if isNumeral c then '0' else if c = 'f' then 't' else c

def kindOf : Value → Char
  | .null => 'n'
  | .boolean _ => 't'
  | .text _ => '"'
  | .sequence _ => '['
  | .mapping _ => '\x7b'
  | _ => '0'

theorem toList_toString_int_ne_nil (n : Int) : (toString n).toList ≠ [] := by
  rw [toList_toString_int]
  split
  · simp
  · nofun

theorem kind_text {v : Value} (hv : v.Plain) (level : Nat) :
    (text level v).toList.head?.map kind = some (kindOf v) := by
  cases hv with
  | null => rw [text]; decide
  | boolean b => rw [text]; cases b <;> decide
  | integer n =>
    rw [text]
    cases h : (toString n).toList with
    | nil => exact absurd h (toList_toString_int_ne_nil n)
    | cons c cs =>
      have hc : isNumeral c = true := isNumeral_of_mem (n := n) (h ▸ List.mem_cons_self)
      simp [kind, kindOf, hc]
  | text s => simp [text, quote, kind, kindOf, isNumeral]
  | @sequence vs => cases vs <;> simp [text, kind, kindOf, isNumeral]
  | @mapping fs => cases fs <;> simp [text, kind, kindOf, isNumeral]

theorem kindOf_eq {v w : Value} (hv : v.Plain) (hw : w.Plain) {level : Nat}
    (h : (text level v).toList ++ as = (text level w).toList ++ bs) : kindOf v = kindOf w := by
  have hk := congrArg (fun l => l.head?.map kind) h
  simp only [List.head?_append, Option.map_or, kind_text hv, kind_text hw, Option.some_or] at hk
  exact Option.some.inj hk

def indent (level : Nat) : List Char := ("".pushn ' ' (2 * level)).toList

theorem toList_newline (level : Nat) : (newline level).toList = '\n' :: indent level := by
  rw [newline, String.toList_append]
  rfl

theorem toList_sequence (level : Nat) (v : Value) (vs : List Value) (as : List Char) :
    (text level (.sequence (v :: vs))).toList ++ as =
      '[' :: '\n' :: (indent (level + 1) ++ ((text (level + 1) v).toList ++
        ((itemsText (level + 1) vs).toList ++ '\n' :: (indent level ++ ']' :: as)))) := by
  simp [text, toList_newline]

theorem toList_itemsText (level : Nat) (v : Value) (vs : List Value) (as : List Char) :
    (itemsText level (v :: vs)).toList ++ as =
      ',' :: '\n' :: (indent level ++ ((text level v).toList ++
        ((itemsText level vs).toList ++ as))) := by
  simp [itemsText, toList_newline]

theorem toList_mapping (level : Nat) (k : String) (v : Value) (fs : List (String × Value))
    (as : List Char) :
    (text level (.mapping ((k, v) :: fs))).toList ++ as =
      '\x7b' :: '\n' :: (indent (level + 1) ++ ((quote k).toList ++ ':' :: ' ' ::
        ((text (level + 1) v).toList ++
          ((fieldsText (level + 1) fs).toList ++ '\n' :: (indent level ++ '\x7d' :: as))))) := by
  simp [text, toList_newline]

theorem toList_fieldsText (level : Nat) (k : String) (v : Value) (fs : List (String × Value))
    (as : List Char) :
    (fieldsText level ((k, v) :: fs)).toList ++ as =
      ',' :: '\n' :: (indent level ++ ((quote k).toList ++ ':' :: ' ' ::
        ((text level v).toList ++ ((fieldsText level fs).toList ++ as)))) := by
  simp [fieldsText, toList_newline]

theorem ends_items (level : Nat) (vs : List Value) (as : List Char) :
    Ends ((itemsText level vs).toList ++ '\n' :: as) := by
  cases vs with
  | nil =>
    rw [itemsText]
    exact ends_cons rfl
  | cons v vs =>
    rw [toList_itemsText]
    exact ends_cons rfl

theorem ends_fields (level : Nat) (fs : List (String × Value)) (as : List Char) :
    Ends ((fieldsText level fs).toList ++ '\n' :: as) := by
  cases fs with
  | nil =>
    rw [fieldsText]
    exact ends_cons rfl
  | cons f fs =>
    rw [toList_fieldsText]
    exact ends_cons rfl

theorem boolean_append_inj {b c : Bool}
    (h : (toString b).toList ++ as = (toString c).toList ++ bs) : b = c ∧ as = bs := by
  have ht : (toString true).toList = ['t', 'r', 'u', 'e'] := by decide
  have hf : (toString false).toList = ['f', 'a', 'l', 's', 'e'] := by decide
  cases b <;> cases c <;> simp_all

mutual

/-- What follows a value does not go into the value, unless it could be part of an integer. -/
theorem text_append_inj (v : Value) {w : Value} {level : Nat} {as bs : List Char} (hv : v.Plain)
    (hw : w.Plain) (ha : Ends as) (hb : Ends bs)
    (h : (text level v).toList ++ as = (text level w).toList ++ bs) : v = w ∧ as = bs := by
  have hk := kindOf_eq hv hw h
  cases v with
  | null =>
    cases hw with
    | null => exact ⟨rfl, List.append_cancel_left h⟩
    | _ => simp [kindOf] at hk
  | boolean b =>
    cases hw with
    | boolean c =>
      rw [text, text] at h
      obtain ⟨hc, h⟩ := boolean_append_inj h
      exact ⟨congrArg Value.boolean hc, h⟩
    | _ => simp [kindOf] at hk
  | integer m =>
    cases hw with
    | integer n =>
      rw [text, text] at h
      obtain ⟨hn, h⟩ := integer_append_inj ha hb h
      exact ⟨congrArg Value.integer hn, h⟩
    | _ => simp [kindOf] at hk
  | text s =>
    cases hw with
    | text t =>
      rw [text, text] at h
      obtain ⟨hs, h⟩ := quote_append_inj h
      exact ⟨congrArg Value.text hs, h⟩
    | _ => simp [kindOf] at hk
  | sequence vs =>
    cases hw with
    | @sequence ws hws =>
      cases vs with
      | nil =>
        cases ws with
        | nil => exact ⟨rfl, List.append_cancel_left h⟩
        | cons w ws => simp [text, toList_newline] at h
      | cons v vs =>
        cases ws with
        | nil => simp [text, toList_newline] at h
        | cons w ws =>
          rw [toList_sequence, toList_sequence] at h
          replace h := List.append_cancel_left (List.cons.inj (List.cons.inj h).2).2
          obtain ⟨first, rest⟩ := List.forall_mem_cons.1 hv.items
          obtain ⟨first', rest'⟩ := List.forall_mem_cons.1 hws
          obtain ⟨rfl, items⟩ :=
            text_append_inj v first first' (ends_items _ _ _) (ends_items _ _ _) h
          obtain ⟨rfl, closed⟩ := items_append_inj vs rest rest' items
          exact ⟨rfl, (List.cons.inj (List.append_cancel_left closed)).2⟩
    | _ => simp [kindOf] at hk
  | mapping fs =>
    cases hw with
    | @mapping gs hgs =>
      cases fs with
      | nil =>
        cases gs with
        | nil => exact ⟨rfl, List.append_cancel_left h⟩
        | cons g gs => simp [text, toList_newline] at h
      | cons f fs =>
        cases gs with
        | nil => simp [text, toList_newline] at h
        | cons g gs =>
          obtain ⟨k, v⟩ := f
          obtain ⟨l, w⟩ := g
          rw [toList_mapping, toList_mapping] at h
          replace h := List.append_cancel_left (List.cons.inj (List.cons.inj h).2).2
          obtain ⟨rfl, value⟩ := quote_append_inj h
          replace value := (List.cons.inj (List.cons.inj value).2).2
          obtain ⟨first, rest⟩ := List.forall_mem_cons.1 hv.fields
          obtain ⟨first', rest'⟩ := List.forall_mem_cons.1 hgs
          obtain ⟨rfl, fields⟩ :=
            text_append_inj v first first' (ends_fields _ _ _) (ends_fields _ _ _) value
          obtain ⟨rfl, closed⟩ := fields_append_inj fs rest rest' fields
          exact ⟨rfl, (List.cons.inj (List.append_cancel_left closed)).2⟩
    | _ => simp [kindOf] at hk
  | real | dateTime | numeral => nomatch hv

theorem items_append_inj (vs : List Value) {ws : List Value} {level : Nat} {as bs : List Char}
    (hvs : ∀ v ∈ vs, v.Plain) (hws : ∀ w ∈ ws, w.Plain)
    (h : (itemsText level vs).toList ++ '\n' :: as = (itemsText level ws).toList ++ '\n' :: bs) :
    vs = ws ∧ as = bs := by
  cases vs with
  | nil =>
    cases ws with
    | nil => exact ⟨rfl, (List.cons.inj h).2⟩
    | cons w ws => simp [itemsText] at h
  | cons v vs =>
    cases ws with
    | nil => simp [itemsText] at h
    | cons w ws =>
      rw [toList_itemsText, toList_itemsText] at h
      replace h := List.append_cancel_left (List.cons.inj (List.cons.inj h).2).2
      obtain ⟨first, rest⟩ := List.forall_mem_cons.1 hvs
      obtain ⟨first', rest'⟩ := List.forall_mem_cons.1 hws
      obtain ⟨rfl, items⟩ := text_append_inj v first first' (ends_items _ _ _) (ends_items _ _ _) h
      obtain ⟨rfl, same⟩ := items_append_inj vs rest rest' items
      exact ⟨rfl, same⟩

theorem fields_append_inj (fs : List (String × Value)) {gs : List (String × Value)} {level : Nat}
    {as bs : List Char} (hfs : ∀ e ∈ fs, e.2.Plain) (hgs : ∀ e ∈ gs, e.2.Plain)
    (h : (fieldsText level fs).toList ++ '\n' :: as = (fieldsText level gs).toList ++ '\n' :: bs) :
    fs = gs ∧ as = bs := by
  cases fs with
  | nil =>
    cases gs with
    | nil => exact ⟨rfl, (List.cons.inj h).2⟩
    | cons g gs => simp [fieldsText] at h
  | cons f fs =>
    cases gs with
    | nil => simp [fieldsText] at h
    | cons g gs =>
      obtain ⟨k, v⟩ := f
      obtain ⟨l, w⟩ := g
      rw [toList_fieldsText, toList_fieldsText] at h
      replace h := List.append_cancel_left (List.cons.inj (List.cons.inj h).2).2
      obtain ⟨rfl, value⟩ := quote_append_inj h
      replace value := (List.cons.inj (List.cons.inj value).2).2
      obtain ⟨first, rest⟩ := List.forall_mem_cons.1 hfs
      obtain ⟨first', rest'⟩ := List.forall_mem_cons.1 hgs
      obtain ⟨rfl, fields⟩ :=
        text_append_inj v first first' (ends_fields _ _ _) (ends_fields _ _ _) value
      obtain ⟨rfl, same⟩ := fields_append_inj fs rest rest' fields
      exact ⟨rfl, same⟩

end

/-- A text denotes the plain value that it is the text of. -/
structure Denotes (s : String) (v : Value) : Prop where
  plain : v.Plain
  rendered : render v = s

/-- A text denotes one plain value at most. -/
theorem Denotes.unique {s : String} {v w : Value} (hv : Denotes s v) (hw : Denotes s w) :
    v = w := by
  have ends : Ends [] := nofun
  have same : (text 0 v).toList ++ [] = (text 0 w).toList ++ [] :=
    congrArg (fun s => s.toList ++ []) (hv.rendered.trans hw.rendered.symm)
  exact (text_append_inj v hv.plain hw.plain ends ends same).1

theorem denotes_render_iff {v w : Value} (plain : v.Plain) : Denotes (render v) w ↔ w = v := by
  have denotes : Denotes (render v) v := ⟨plain, rfl⟩
  exact ⟨fun hw => hw.unique denotes, fun hw => hw ▸ denotes⟩

end Json

end PluginRegistry.Document
