import PluginRegistry.Plugin.Wire
import Mathlib.Algebra.Group.Nat.Defs
import Mathlib.Tactic.Common

/-!
# The binary form reads back

A reader that takes just the given bytes off the front, whatever follows them, is a statement that
composes along the fields (`Reads.bind`) and leaves only one value for given bytes (`Reads.unique`).
-/

namespace PluginRegistry

namespace Wire

/-- The reader takes exactly these bytes off the front and makes them the value. -/
def Reads {α : Type} (read : Reader α) (bs : List UInt8) (a : α) : Prop :=
  ∀ rest, read (bs ++ rest) = .ok (a, rest)

section

variable {α β : Type} {read : Reader α} {bs cs : List UInt8} {a : α} {b : β}

theorem Reads.pure (a : α) : Reads (pure a) [] a := fun _ => rfl

theorem Reads.bind {next : α → Reader β} (h : Reads read bs a) (h' : Reads (next a) cs b) :
    Reads (read >>= next) (bs ++ cs) b := by
  intro rest
  have hr : read ((bs ++ cs) ++ rest) = .ok (a, cs ++ rest) := by rw [List.append_assoc, h]
  change (read ((bs ++ cs) ++ rest) >>= fun p => next p.1 p.2) = _
  rw [hr]
  exact h' rest

/-- What is made of the last value takes no more bytes. -/
theorem Reads.last {next : α → Reader β} (h : Reads read bs a) (h' : Reads (next a) [] b) :
    Reads (read >>= next) bs b := by
  have hb := h.bind h'
  rwa [List.append_nil] at hb

/-- What one reader reads of two byte strings that go on to be the same is the same. -/
theorem Reads.unique {a' : α} (h : Reads read bs a) (h' : Reads read cs a')
    {rest rest' : List UInt8} (he : bs ++ rest = cs ++ rest') : a = a' ∧ rest = rest' := by
  have hr := h rest
  rw [he, h' rest'] at hr
  cases hr
  exact ⟨rfl, rfl⟩

end

theorem reads_byte (b : UInt8) : Reads readByte [b] b := fun _ => rfl

theorem reads_bytes (bs : List UInt8) : Reads (readBytes bs.length) bs bs := by
  intro rest
  have hn : ¬(bs ++ rest).length < bs.length := by
    rw [List.length_append]
    omega
  rw [readBytes, if_neg hn, List.take_left, List.drop_left]

theorem readVarint_cons (width : Nat) (b : UInt8) (r : List UInt8) :
    readVarint width (b :: r) =
      if b < 128 then
        if b.toNat < 2 ^ width then .ok (b.toNat, r) else .error .badVarint
      else if width ≤ 7 then .error .badVarint
      else (readVarint (width - 7) r).map fun p => (b.toNat - 128 + 128 * p.1, p.2) :=
  rfl

theorem reads_varint {width n : Nat} (h : n < 2 ^ width) :
    Reads (readVarint width) (writeVarint n) n := by
  induction n using writeVarint.induct generalizing width with
  | case1 n hn =>
    intro rest
    have hb : (UInt8.ofNat n).toNat = n := by
      rw [UInt8.toNat_ofNat']
      omega
    have hlt : UInt8.ofNat n < 128 := by
      rw [UInt8.lt_iff_toNat_lt, hb]
      exact hn
    rw [writeVarint, if_pos hn, List.singleton_append, readVarint_cons, if_pos hlt, hb, if_pos h]
  | case2 n hn ih =>
    -- Seven bits are taken off the number and off the width alike.
    intro rest
    have hw : 7 < width := by
      by_contra hw
      have hp : 2 ^ width ≤ 2 ^ 7 := Nat.pow_le_pow_right (by omega) (by omega)
      omega
    have hp : 2 ^ width = 128 * 2 ^ (width - 7) := by
      rw [show (128 : Nat) = 2 ^ 7 from rfl, ← Nat.pow_add]
      congr 1
      omega
    have hb : (UInt8.ofNat (128 + n % 128)).toNat = 128 + n % 128 := by
      rw [UInt8.toNat_ofNat']
      omega
    have hge : ¬UInt8.ofNat (128 + n % 128) < 128 := by
      rw [UInt8.lt_iff_toNat_lt, hb]
      exact Nat.not_lt.2 (Nat.le_add_right _ _)
    have hr := ih (by omega : n / 128 < 2 ^ (width - 7)) rest
    rw [writeVarint, if_neg hn, List.cons_append, readVarint_cons, if_neg hge, if_neg (by omega),
      hr, hb, Except.map]
    congr 2
    omega

theorem zigzag_lt (v : Int64) : zigzag v < 2 ^ 64 := by
  have hlo := v.le_toInt
  have hhi := v.toInt_lt
  unfold zigzag
  split <;> omega

theorem unzigzag_zigzag (v : Int64) : unzigzag (zigzag v) = v := by
  by_cases hv : 0 ≤ v.toInt
  · have hz : zigzag v = (2 * v.toInt).toNat := if_pos hv
    have hm : zigzag v % 2 = 0 := by omega
    have hd : (zigzag v : Int) / 2 = v.toInt := by omega
    rw [unzigzag, if_pos hm, hd, Int64.ofInt_toInt]
  · have hz : zigzag v = (-2 * v.toInt - 1).toNat := if_neg hv
    have hm : ¬zigzag v % 2 = 0 := by omega
    have hd : -((zigzag v / 2 : Nat) : Int) - 1 = v.toInt := by omega
    rw [unzigzag, if_neg hm, hd, Int64.ofInt_toInt]

theorem ofUtf8?_utf8 (s : String) : ofUtf8? (utf8 s) = some s := by
  have hb : (⟨(utf8 s).toArray⟩ : ByteArray) = s.toByteArray := by
    rw [utf8, Array.toArray_toList]
    rfl
  rw [ofUtf8?, hb, String.fromUTF8?, dif_pos s.isValidUTF8]
  rfl

theorem reads_text {s : String} (h : (utf8 s).length < 2 ^ 64) :
    Reads readText (writeText s) s := by
  refine (reads_varint h).bind ((reads_bytes (utf8 s)).last ?_)
  rw [ofUtf8?_utf8]
  exact .pure s

theorem reads_many {α : Type} {read : Reader α} {write : α → List UInt8} {as : List α}
    (h : ∀ a ∈ as, Reads read (write a) a) :
    Reads (readMany read as.length) (as.flatMap write) as := by
  induction as with
  | nil => exact .pure []
  | cons a as ih =>
    have ht := ih fun b hb => h b (List.mem_cons_of_mem a hb)
    exact (h a List.mem_cons_self).bind (ht.last (.pure (a :: as)))

end Wire

namespace Plugin

open Wire

theorem reads_code {α : Type} {code : α → Nat} {values : List α} {a : α} (hm : a ∈ values)
    (hi : ∀ b ∈ values, code b = code a → b = a) (hc : code a < 2 ^ 32) :
    Reads (readCode code values) (writeVarint (code a)) a := by
  have hf : values.find? (fun b => code b = code a) = some a := by
    cases hf : values.find? (fun b => code b = code a) with
    | none => exact absurd (List.find?_eq_none.1 hf a hm) (by simp)
    | some b =>
      have hb := hi b (List.mem_of_find?_eq_some hf) (by simpa using List.find?_some hf)
      rw [hb]
  refine (reads_varint hc).last ?_
  rw [hf]
  exact .pure a

theorem reads_category (c : Category) :
    Reads (readCode categoryCode Category.all) (writeVarint (categoryCode c)) c := by
  apply reads_code c.mem_all
  · intro d _ h
    cases c <;> cases d <;> first | rfl | cases h
  · cases c <;> decide

theorem reads_kind (k : ComponentKind) :
    Reads (readCode kindCode ComponentKind.all) (writeVarint (kindCode k)) k := by
  apply reads_code (by cases k <;> simp [ComponentKind.all])
  · intro l _ h
    cases k <;> cases l <;> first | rfl | cases h
  · cases k <;> decide

/-- Every length fits the 64-bit number that is written for it, as lengths in memory do. -/
structure Sized (p : Plugin) : Prop where
  packageName : (utf8 p.packageName).length < 2 ^ 64
  editorComponent : (utf8 p.editorComponent).length < 2 ^ 64
  executorComponent : (utf8 p.executorComponent).length < 2 ^ 64
  alternatives : p.configuration.alternatives.toList.length < 2 ^ 64
  alternative : ∀ a ∈ p.configuration.alternatives, (utf8 a).length < 2 ^ 64

variable {p q : Plugin} {bs : List UInt8}

theorem reads_configuration (h : p.Sized) :
    Reads readConfiguration (encodeConfiguration p.configuration) p.configuration := by
  have hn : Reads (readMany readText p.configuration.alternatives.toList.length)
      (p.configuration.alternatives.toList.flatMap writeText)
      p.configuration.alternatives.toList := reads_many fun a ha => reads_text (h.alternative a ha)
  have hc : Reads (pure (⟨⟨p.configuration.flags.bits⟩,
      NameSet.ofList p.configuration.alternatives.toList⟩ : Configuration)) [] p.configuration := by
    rw [NameSet.ofList_toList]
    exact .pure p.configuration
  exact (reads_byte p.configuration.flags.bits).bind
    ((reads_varint h.alternatives).bind (hn.last hc))

/-- The fields of a plugin are read off its binary form and nothing more is taken. -/
theorem reads_fields (h : p.Sized) : Reads readFields p.encode p := by
  have hv : Reads (do
      let configuration ← readConfiguration
      return { p with version := unzigzag (zigzag p.version), configuration })
      (encodeConfiguration p.configuration) p := by
    rw [unzigzag_zigzag]
    exact (reads_configuration h).last (.pure p)
  have he : p.encode = writeVarint (categoryCode p.category) ++ (writeText p.packageName ++
      (writeText p.editorComponent ++ (writeVarint (kindCode p.executorKind) ++
      (writeText p.executorComponent ++ (writeVarint (zigzag p.version) ++
        encodeConfiguration p.configuration))))) := by
    simp only [encode, List.append_assoc]
  rw [he]
  exact (reads_category p.category).bind ((reads_text h.packageName).bind
    ((reads_text h.editorComponent).bind ((reads_kind p.executorKind).bind
      ((reads_text h.executorComponent).bind ((reads_varint (zigzag_lt p.version)).bind hv)))))

theorem decode_of_reads (hf : Reads readFields bs p) (hn : p.Named) (rest : List UInt8) :
    decode (bs ++ rest) = .ok p := by
  have hc : p.create = .ok p := create_eq_ok_iff.2 ⟨rfl, hn⟩
  rw [decode, hf rest]
  simp only [bind, Except.bind, hc]
  rfl

def withAlternatives (p : Plugin) (names : List String) : Plugin :=
  { p with configuration := ⟨p.configuration.flags, .ofList names⟩ }

/-- The binary form of an accepted plugin reads back whatever follows it, is the form of no other
plugin and no beginning of one, and tells the alternatives apart as a set only. -/
theorem decode_encode_append {raw p : Plugin} (accepted : raw.create = .ok p) (sized : p.Sized) :
    (∀ rest, decode (p.encode ++ rest) = .ok p) ∧
    (∀ (q : Plugin) (rest rest' : List UInt8), q.Sized →
      p.encode ++ rest = q.encode ++ rest' → p = q ∧ rest = rest') ∧
    ∀ names names' : List String, (∀ a, a ∈ names ↔ a ∈ names') →
      (p.withAlternatives names).encode = (p.withAlternatives names').encode := by
  have hf := reads_fields sized
  refine ⟨fun rest => ?_, fun q rest rest' hq he => ?_, fun names names' h => ?_⟩
  · obtain ⟨rfl, hn⟩ := create_eq_ok_iff.1 accepted
    exact decode_of_reads hf hn rest
  · exact hf.unique (reads_fields hq) he
  · have hs : NameSet.ofList names = NameSet.ofList names' := by
      apply NameSet.ext_mem
      intro a
      rw [NameSet.mem_ofList, NameSet.mem_ofList, h]
    rw [withAlternatives, withAlternatives, hs]

def umbrella : Plugin where
  category := .setting
  packageName := "wetter.übersicht"
  editorComponent := "☂:edit"
  executorKind := .service
  executorComponent := "🌂"
  version := -9223372036854775808
  configuration := ⟨⟨255⟩, .ofList ["b:y", "a:x", "b:y"]⟩

theorem sized_umbrella : umbrella.Sized where
  packageName := by decide +kernel
  editorComponent := by decide +kernel
  executorComponent := by decide +kernel
  alternatives := by decide +kernel
  alternative a ha := by
    have ha : a ∈ ["b:y", "a:x", "b:y"] := NameSet.mem_ofList.1 ha
    revert a
    decide +kernel

theorem decode_encode_append_umbrella :
    umbrella.create = .ok umbrella ∧ umbrella.Sized ∧
      decode (umbrella.encode ++ [255, 0]) = .ok umbrella :=
  have hn : umbrella.emptyName? = none := by decide +kernel
  have hc : umbrella.create = .ok umbrella := create_eq_ok_iff.2 ⟨rfl, emptyName?_eq_none_iff.1 hn⟩
  ⟨hc, sized_umbrella, (decode_encode_append hc sized_umbrella).1 [255, 0]⟩

end Plugin

end PluginRegistry
