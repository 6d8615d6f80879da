import PluginRegistry.Wire.Text

/-!
# The order of texts and of their bytes

Texts are ordered by their characters. Their UTF-8 forms are in the same order (`utf8_lt_iff`).
-/

namespace PluginRegistry.Wire

/-- Of two first bytes the smaller one decides; if they are equal, what follows does. -/
theorem ofNat_cons_lt {m n : Nat} {as bs : List UInt8} (hle : m ≤ n) (hn : n < 256)
    (h : m = n → as < bs) : UInt8.ofNat m :: as < UInt8.ofNat n :: bs := by
  refine List.cons_lt_cons_iff.2 ?_
  rcases Nat.lt_or_eq_of_le hle with hlt | rfl
  · refine Or.inl (UInt8.lt_iff_toNat_lt.2 ?_)
    rw [UInt8.toNat_ofNat_of_lt' (Nat.lt_trans hlt hn), UInt8.toNat_ofNat_of_lt' hn]
    exact hlt
  · exact Or.inr ⟨rfl, h rfl⟩

/-- The form of a smaller character comes first, whatever follows the two. -/
theorem utf8EncodeChar_append_lt {c d : Char} (h : c < d) (as bs : List UInt8) :
    String.utf8EncodeChar c ++ as < String.utf8EncodeChar d ++ bs := by
  have hlt : c.val.toNat < d.val.toNat := h
  have hd : d.val.toNat < 0x110000 := by
    rcases d.valid with hv | ⟨-, hv⟩
    · exact Nat.lt_trans hv (by decide)
    · exact hv
  fun_cases String.utf8EncodeChar c <;> fun_cases String.utf8EncodeChar d
  -- Forms of one length are compared digit by digit.
  case case1.case1 => exact ofNat_cons_lt (by omega) (by omega) (by omega)
  case case2.case2 =>
    exact ofNat_cons_lt (by omega) (by omega) fun _ =>
      ofNat_cons_lt (by omega) (by omega) (by omega)
  case case3.case3 =>
    exact ofNat_cons_lt (by omega) (by omega) fun _ =>
      ofNat_cons_lt (by omega) (by omega) fun _ =>
        ofNat_cons_lt (by omega) (by omega) (by omega)
  case case4.case4 =>
    exact ofNat_cons_lt (by omega) (by omega) fun _ =>
      ofNat_cons_lt (by omega) (by omega) fun _ =>
        ofNat_cons_lt (by omega) (by omega) fun _ =>
          ofNat_cons_lt (by omega) (by omega) (by omega)
  -- The first bytes tell a shorter form from a longer one.
  case case1.case2 | case1.case3 | case1.case4 | case2.case3 | case2.case4 | case3.case4 =>
    exact ofNat_cons_lt (by omega) (by omega) (by omega)
  -- A smaller character has no longer form.
  all_goals omega

theorem utf8_eq_flatMap (s : String) : utf8 s = s.toList.flatMap String.utf8EncodeChar := by
  have h : s.toByteArray = s.toList.utf8Encode := String.utf8Encode_toList.symm
  change s.toByteArray.data.toList = _
  rw [h, List.utf8Encode, List.toList_data_toByteArray]

theorem flatMap_utf8EncodeChar_lt {cs ds : List Char} (h : cs < ds) :
    cs.flatMap String.utf8EncodeChar < ds.flatMap String.utf8EncodeChar := by
  induction h with
  | @nil d ds =>
    rw [List.flatMap_nil, List.flatMap_cons]
    cases hd : String.utf8EncodeChar d with
    | nil => exact absurd hd String.utf8EncodeChar_ne_nil
    | cons => exact List.nil_lt_cons _ _
  | rel h => exact utf8EncodeChar_append_lt h _ _
  | @cons c cs ds _ ih =>
    rw [List.flatMap_cons, List.flatMap_cons]
    exact List.append_left_lt ih

theorem utf8_lt {s t : String} (h : s < t) : utf8 s < utf8 t := by
  rw [utf8_eq_flatMap, utf8_eq_flatMap]
  exact flatMap_utf8EncodeChar_lt h

/-- The order of texts is that of their bytes. -/
theorem utf8_lt_iff {s t : String} : utf8 s < utf8 t ↔ s < t := by
  refine ⟨fun h => String.not_le.1 fun hle => ?_, utf8_lt⟩
  rcases Decidable.em (t = s) with rfl | hne
  · exact List.lt_irrefl _ h
  · exact List.lt_asymm h (utf8_lt (String.not_le.1 fun h' => hne (String.le_antisymm hle h')))

end PluginRegistry.Wire
