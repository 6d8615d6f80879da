import PluginRegistry.Proofs.BinaryForm
import Mathlib.Data.List.Flatten
import Mathlib.Data.List.Perm.Subperm

/-!
# One written form for each plugin

Bytes may denote a plugin in many ways. Whatever a reader makes of them is a value that can be
written again, and in no more bytes than were taken for it, so a decoded plugin is an accepted one
whose own binary form reads back and is as short as any that denotes it.
-/

namespace PluginRegistry

namespace Wire

variable {bs rest : List UInt8}

section

variable {α β : Type} {read : Reader α}

/-- Reading two things in a row is reading one and then the other off what it left. -/
theorem exists_of_bind_eq_ok {next : α → Reader β} {b : β}
    (h : (read >>= next) bs = .ok (b, rest)) :
    ∃ a mid, read bs = .ok (a, mid) ∧ next a mid = .ok (b, rest) := by
  change (read bs >>= fun p => next p.1 p.2) = _ at h
  cases hr : read bs with
  | error e =>
    rw [hr] at h
    cases h
  | ok p =>
    rw [hr] at h
    exact ⟨p.1, p.2, rfl, h⟩

theorem length_of_readByte {b : UInt8} (h : readByte bs = .ok (b, rest)) :
    1 + rest.length = bs.length := by
  cases bs with
  | nil => cases h
  | cons c r =>
    cases h
    exact Nat.add_comm 1 _

theorem length_of_readBytes {n : Nat} {as : List UInt8} (h : readBytes n bs = .ok (as, rest)) :
    as.length = n ∧ n + rest.length = bs.length := by
  rw [readBytes] at h
  split at h
  · cases h
  · next hn =>
    cases h
    rw [List.length_take, List.length_drop]
    omega

/-- What holds of one value that is read holds of many: each is good, and together they are written
in no more bytes than were taken for them. -/
theorem bound_of_readMany {write : α → List UInt8} {good : α → Prop}
    (bound : ∀ {bs a rest}, read bs = .ok (a, rest) →
      good a ∧ (write a).length + rest.length ≤ bs.length)
    {n : Nat} {as : List α} (h : readMany read n bs = .ok (as, rest)) :
    as.length = n ∧ (∀ a ∈ as, good a) ∧
      (as.flatMap write).length + rest.length ≤ bs.length := by
  induction n generalizing bs as with
  | zero =>
    cases h
    simp
  | succ n ih =>
    obtain ⟨a, r, ha, h⟩ := exists_of_bind_eq_ok h
    obtain ⟨t, r', ht, h⟩ := exists_of_bind_eq_ok h
    cases h
    obtain ⟨ga, la⟩ := bound ha
    obtain ⟨hl, gt, lt⟩ := ih ht
    refine ⟨congrArg (· + 1) hl, List.forall_mem_cons.2 ⟨ga, gt⟩, ?_⟩
    rw [List.flatMap_cons, List.length_append]
    omega

end

theorem length_writeVarint_of_lt {n : Nat} (h : n < 128) : (writeVarint n).length = 1 := by
  rw [writeVarint, if_pos h, List.length_singleton]

theorem length_writeVarint_of_le {n : Nat} (h : 128 ≤ n) :
    (writeVarint n).length = (writeVarint (n / 128)).length + 1 := by
  rw [writeVarint, if_neg (Nat.not_lt.2 h), List.length_cons]

theorem one_le_length_writeVarint (n : Nat) : 1 ≤ (writeVarint n).length := by
  rw [writeVarint]
  split <;> simp

theorem length_writeVarint_mono {m n : Nat} (h : m ≤ n) :
    (writeVarint m).length ≤ (writeVarint n).length := by
  induction n using Nat.strongRecOn generalizing m with
  | ind n ih =>
    rcases Nat.lt_or_ge m 128 with hm | hm
    · rw [length_writeVarint_of_lt hm]
      exact one_le_length_writeVarint n
    · have hn : 128 ≤ n := Nat.le_trans hm h
      rw [length_writeVarint_of_le hm, length_writeVarint_of_le hn]
      exact Nat.succ_le_succ (ih (n / 128) (by omega) (Nat.div_le_div_right h))

/-- A digit below 128 in front of a number takes at most one byte more. -/
theorem length_writeVarint_digit {d : Nat} (h : d < 128) (m : Nat) :
    (writeVarint (d + 128 * m)).length ≤ (writeVarint m).length + 1 := by
  rcases Nat.lt_or_ge (d + 128 * m) 128 with hn | hn
  · rw [length_writeVarint_of_lt hn]
    omega
  · have hd : (d + 128 * m) / 128 = m := by omega
    exact Nat.le_of_eq (by rw [length_writeVarint_of_le hn, hd])

/-- A number may stand in more bytes than it needs, never in fewer. -/
theorem bound_of_readVarint {width n : Nat} (h : readVarint width bs = .ok (n, rest)) :
    n < 2 ^ width ∧ (writeVarint n).length + rest.length ≤ bs.length := by
  induction bs generalizing width n with
  | nil => cases h
  | cons b r ih =>
    rw [readVarint_cons] at h
    split at h
    · next hb =>
      split at h
      · next hw =>
        cases h
        rw [length_writeVarint_of_lt (UInt8.lt_iff_toNat_lt.1 hb), List.length_cons]
        exact ⟨hw, by omega⟩
      · cases h
    · split at h
      · cases h
      · next hb hw =>
        -- The number goes on: seven bits here, the others in the bytes that follow.
        cases hr : readVarint (width - 7) r with
        | error e =>
          rw [hr] at h
          cases h
        | ok p =>
          rw [hr] at h
          cases h
          obtain ⟨hm, hl⟩ := ih hr
          have hd : b.toNat - 128 < 128 := by
            have := b.toNat_lt
            omega
          have hp : 2 ^ width = 128 * 2 ^ (width - 7) := by
            rw [show (128 : Nat) = 2 ^ 7 from rfl, ← Nat.pow_add]
            congr 1
            omega
          have hc := length_writeVarint_digit hd p.1
          rw [List.length_cons]
          exact ⟨by omega, by omega⟩

theorem utf8_of_ofUtf8? {s : String} (h : ofUtf8? bs = some s) : utf8 s = bs := by
  rw [ofUtf8?, String.fromUTF8?] at h
  split at h
  · cases h
    rfl
  · cases h

theorem bound_of_readText {s : String} (h : readText bs = .ok (s, rest)) :
    (utf8 s).length < 2 ^ 64 ∧ (writeText s).length + rest.length ≤ bs.length := by
  obtain ⟨n, r, hn, h⟩ := exists_of_bind_eq_ok h
  obtain ⟨cs, r', hcs, h⟩ := exists_of_bind_eq_ok h
  cases hs : ofUtf8? cs with
  | none =>
    rw [hs] at h
    cases h
  | some t =>
    rw [hs] at h
    cases h
    obtain ⟨hlt, hv⟩ := bound_of_readVarint hn
    obtain ⟨rfl, hb⟩ := length_of_readBytes hcs
    rw [writeText, List.length_append, utf8_of_ofUtf8? hs]
    exact ⟨hlt, by omega⟩

theorem zigzag_unzigzag {n : Nat} (h : n < 2 ^ 64) : zigzag (unzigzag n) = n := by
  by_cases hn : n % 2 = 0
  · have hv : (unzigzag n).toInt = n / 2 := by
      rw [unzigzag, if_pos hn, Int64.toInt_ofInt_of_le (by omega) (by omega)]
    rw [zigzag, if_pos (by omega), hv]
    omega
  · have hv : (unzigzag n).toInt = -((n / 2 : Nat) : Int) - 1 := by
      rw [unzigzag, if_neg hn, Int64.toInt_ofInt_of_le (by omega) (by omega)]
    rw [zigzag, if_neg (by omega), hv]
    omega

end Wire

/-- A set lists each of the names it was made of once. -/
theorem NameSet.toList_ofList_subperm (names : List String) :
    (NameSet.ofList names).toList.Subperm names := by
  apply List.Nodup.subperm
  · exact (NameSet.ofList names).sorted.imp String.ne_of_lt
  · exact fun a ha => NameSet.mem_ofList.1 ha

namespace Plugin

open Wire

variable {bs rest : List UInt8}

theorem bound_of_readCode {α : Type} {code : α → Nat} {values : List α} {a : α}
    (h : readCode code values bs = .ok (a, rest)) :
    (writeVarint (code a)).length + rest.length ≤ bs.length := by
  obtain ⟨n, r, hn, h⟩ := exists_of_bind_eq_ok h
  cases hf : values.find? fun a => code a = n with
  | none =>
    rw [hf] at h
    cases h
  | some b =>
    rw [hf] at h
    cases h
    have hc : code a = n := by simpa using List.find?_some hf
    rw [hc]
    exact (bound_of_readVarint hn).2

theorem length_encodeConfiguration (flags : Flags) (names : NameSet) :
    (encodeConfiguration ⟨flags, names⟩).length = 1 + (writeVarint names.toList.length).length +
      (names.toList.flatMap writeText).length := by
  rw [encodeConfiguration, List.length_cons, List.length_append, Nat.add_comm _ 1, Nat.add_assoc]

/-- Names that are repeated are written once, so both their number and their forms can only
shrink. -/
theorem bound_of_readConfiguration {c : Configuration}
    (h : readConfiguration bs = .ok (c, rest)) :
    c.alternatives.toList.length < 2 ^ 64 ∧
      (∀ a ∈ c.alternatives, (utf8 a).length < 2 ^ 64) ∧
      (encodeConfiguration c).length + rest.length ≤ bs.length := by
  obtain ⟨bits, r, hb, h⟩ := exists_of_bind_eq_ok h
  obtain ⟨n, r', hn, h⟩ := exists_of_bind_eq_ok h
  obtain ⟨names, r'', hm, h⟩ := exists_of_bind_eq_ok h
  cases h
  have lb := length_of_readByte hb
  obtain ⟨hlt, ln⟩ := bound_of_readVarint hn
  obtain ⟨rfl, hs, lm⟩ := bound_of_readMany bound_of_readText hm
  have hle := (NameSet.toList_ofList_subperm names).length_le
  have lv := length_writeVarint_mono hle
  have lf : ((NameSet.ofList names).toList.flatMap writeText).length ≤
      (names.flatMap writeText).length := by
    obtain ⟨kept, hp, hsub⟩ := NameSet.toList_ofList_subperm names
    rw [← (hp.flatMap_right writeText).length_eq]
    exact (hsub.flatMap writeText).length_le
  refine ⟨Nat.lt_of_le_of_lt hle hlt, fun a ha => hs a (NameSet.mem_ofList.1 ha), ?_⟩
  rw [length_encodeConfiguration]
  omega

/-- The fields that were read can be written again, in no more bytes. -/
theorem bound_of_readFields {p : Plugin} (h : readFields bs = .ok (p, rest)) :
    p.Sized ∧ p.encode.length + rest.length ≤ bs.length := by
  obtain ⟨category, r₁, h₁, h⟩ := exists_of_bind_eq_ok h
  obtain ⟨packageName, r₂, h₂, h⟩ := exists_of_bind_eq_ok h
  obtain ⟨editorComponent, r₃, h₃, h⟩ := exists_of_bind_eq_ok h
  obtain ⟨executorKind, r₄, h₄, h⟩ := exists_of_bind_eq_ok h
  obtain ⟨executorComponent, r₅, h₅, h⟩ := exists_of_bind_eq_ok h
  obtain ⟨version, r₆, h₆, h⟩ := exists_of_bind_eq_ok h
  obtain ⟨configuration, r₇, h₇, h⟩ := exists_of_bind_eq_ok h
  cases h
  have l₁ := bound_of_readCode h₁
  obtain ⟨s₂, l₂⟩ := bound_of_readText h₂
  obtain ⟨s₃, l₃⟩ := bound_of_readText h₃
  have l₄ := bound_of_readCode h₄
  obtain ⟨s₅, l₅⟩ := bound_of_readText h₅
  obtain ⟨s₆, l₆⟩ := bound_of_readVarint h₆
  obtain ⟨sn, sa, l₇⟩ := bound_of_readConfiguration h₇
  refine ⟨⟨s₂, s₃, s₅, sn, sa⟩, ?_⟩
  simp only [encode, List.length_append, zigzag_unzigzag s₆]
  omega

theorem exists_of_decode_eq_ok {p : Plugin} (h : decode bs = .ok p) :
    ∃ rest, readFields bs = .ok (p, rest) ∧ p.create = .ok p := by
  rw [decode] at h
  cases hr : readFields bs with
  | error e =>
    rw [hr] at h
    cases h
  | ok q =>
    rw [hr] at h
    simp only [bind, Except.bind] at h
    cases hc : q.1.create with
    | error e =>
      rw [hc] at h
      cases h
    | ok q' =>
      obtain ⟨rfl, hn⟩ := create_eq_ok_iff.1 hc
      rw [hc] at h
      cases h
      exact ⟨q.2, rfl, hc⟩

/-- What is decoded is a plugin that `create` accepts. It reads back from its own binary form, which
is no longer than any bytes that denote it and by which it is told apart from every other plugin
that any bytes denote. -/
theorem canonical_of_decode {p : Plugin} (decoded : decode bs = .ok p) :
    p.Named ∧ p.create = .ok p ∧
    p.registryName = p.packageName ++ ":" ++ p.editorComponent ∧
    p.configuration.alternatives.toList.Pairwise (· < ·) ∧
    decode p.encode = .ok p ∧
    p.encode.length ≤ bs.length ∧
    ∀ (bs' : List UInt8) (q : Plugin), decode bs' = .ok q → (q.encode = p.encode ↔ q = p) := by
  obtain ⟨rest, hr, hc⟩ := exists_of_decode_eq_ok decoded
  obtain ⟨sized, hl⟩ := bound_of_readFields hr
  have named : p.Named := (create_eq_ok_iff.1 hc).2
  have back : decode p.encode = .ok p := by
    have h := decode_of_reads (reads_fields sized) named []
    rwa [List.append_nil] at h
  refine ⟨named, hc, rfl, p.configuration.alternatives.sorted, back, by omega, ?_⟩
  intro bs' q hq
  constructor
  · intro he
    obtain ⟨rest', hr', -⟩ := exists_of_decode_eq_ok hq
    have sized' := (bound_of_readFields hr').1
    exact ((reads_fields sized').unique (reads_fields sized) (congrArg (· ++ []) he)).1
  · rintro rfl
    rfl

/-- A category and a length that take a byte too many, alternatives that repeat and are not in
order, and a byte left over. -/
def sprawling : List UInt8 :=
  [128, 0, 129, 0, 97, 1, 98, 1, 1, 99, 2, 192, 3, 1, 122, 1, 121, 1, 122, 255]

def gathered : Plugin where
  category := .condition
  packageName := "a"
  editorComponent := "b"
  executorKind := .receiver
  executorComponent := "c"
  version := 1
  configuration := ⟨⟨192⟩, .ofList ["y", "z"]⟩

theorem canonical_of_decode_sprawling :
    decode sprawling = .ok gathered ∧ gathered.create = .ok gathered ∧
      decode gathered.encode = .ok gathered ∧ gathered.encode.length < sprawling.length :=
  have hd : decode sprawling = .ok gathered := by decide +kernel
  have hc := canonical_of_decode hd
  ⟨hd, hc.2.1, hc.2.2.2.2.1, by decide +kernel⟩

end Plugin

end PluginRegistry
