import PluginRegistry.Proofs.BinaryForm

/-!
# Binary forms that are cut off

A reader that does not run out of bytes has seen all it needs, so whatever follows changes nothing of
what it makes of them (`Stable`). This composes along the fields without regard to their values. A
reader that takes given bytes to their end has therefore nothing left to do on a part of them but to
run out (`Stable.runs_out`), wherever the cut falls.
-/

namespace PluginRegistry

namespace Wire

/-- Unless the reader runs out of bytes, more bytes are only left over. -/
def Stable {α : Type} (read : Reader α) : Prop :=
  ∀ bs more, read bs ≠ .error .endOfBuffer →
    read (bs ++ more) = (read bs).map fun p => (p.1, p.2 ++ more)

section

variable {α β : Type} {read : Reader α}

theorem Stable.pure (a : α) : Stable (pure a) := fun _ _ _ => rfl

theorem Stable.throw (e : Fault) : Stable (throw e : Reader α) := fun _ _ _ => rfl

theorem Stable.bind {next : α → Reader β} (h : Stable read) (h' : ∀ a, Stable (next a)) :
    Stable (read >>= next) := by
  intro bs more hne
  change (read bs >>= fun p => next p.1 p.2) ≠ _ at hne
  change (read (bs ++ more) >>= fun p => next p.1 p.2) =
    (read bs >>= fun p => next p.1 p.2).map _
  cases hr : read bs with
  | error e =>
    have hs : read bs ≠ .error .endOfBuffer := by
      intro he
      rw [he] at hne
      exact hne rfl
    rw [h bs more hs, hr]
    rfl
  | ok p =>
    rw [hr] at hne
    have hs : read bs ≠ .error .endOfBuffer := by
      rw [hr]
      exact nofun
    rw [h bs more hs, hr]
    exact h' p.1 p.2 more hne

/-- On bytes that lack some of what the reader takes, it runs out. -/
theorem Stable.runs_out (h : Stable read) {a : α} {bs more : List UInt8}
    (hr : Reads read (bs ++ more) a) (hm : more ≠ []) : read bs = .error .endOfBuffer := by
  by_contra hne
  have whole := hr []
  rw [List.append_nil, h bs more hne] at whole
  cases hp : read bs with
  | error e =>
    rw [hp] at whole
    cases whole
  | ok p =>
    rw [hp] at whole
    have rest : p.2 ++ more = [] := congrArg Prod.snd (Except.ok.inj whole)
    exact hm (List.append_eq_nil_iff.1 rest).2

end

theorem stable_byte : Stable readByte := by
  intro bs more hne
  cases bs with
  | nil => exact absurd rfl hne
  | cons b r => rfl

theorem stable_bytes (n : Nat) : Stable (readBytes n) := by
  intro bs more hne
  have hn : ¬bs.length < n := fun hn => hne (if_pos hn)
  have hn' : ¬(bs ++ more).length < n := by
    rw [List.length_append]
    omega
  rw [readBytes, readBytes, if_neg hn, if_neg hn', List.take_append_of_le_length (by omega),
    List.drop_append_of_le_length (by omega)]
  rfl

theorem stable_varint (width : Nat) : Stable (readVarint width) := by
  intro bs more hne
  induction bs generalizing width with
  | nil => exact absurd rfl hne
  | cons b r ih =>
    rw [List.cons_append, readVarint_cons, readVarint_cons]
    rw [readVarint_cons] at hne
    split
    · split <;> rfl
    · next hb =>
      rw [if_neg hb] at hne
      split
      · rfl
      · next hw =>
        -- The number goes on, so it is the rest that must not run out.
        rw [if_neg hw] at hne
        have hr : readVarint (width - 7) r ≠ .error .endOfBuffer := by
          intro he
          rw [he] at hne
          exact hne rfl
        rw [ih (width - 7) hr]
        cases readVarint (width - 7) r <;> rfl

theorem stable_text : Stable readText := by
  refine (stable_varint 64).bind fun n => (stable_bytes n).bind fun bs => ?_
  cases ofUtf8? bs with
  | none => exact .throw .badText
  | some s => exact .pure s

theorem stable_many {α : Type} {read : Reader α} (h : Stable read) (n : Nat) :
    Stable (readMany read n) := by
  induction n with
  | zero => exact .pure []
  | succ n ih => exact h.bind fun a => ih.bind fun as => .pure (a :: as)

end Wire

namespace Plugin

open Wire

theorem stable_code {α : Type} (code : α → Nat) (values : List α) :
    Stable (readCode code values) := by
  refine (stable_varint 32).bind fun n => ?_
  cases values.find? fun a => code a = n with
  | none => exact .throw .badValue
  | some a => exact .pure a

theorem stable_configuration : Stable readConfiguration :=
  stable_byte.bind fun _ => (stable_varint 64).bind fun n =>
    (stable_many stable_text n).bind fun _ => .pure _

theorem stable_fields : Stable readFields :=
  (stable_code _ _).bind fun _ => stable_text.bind fun _ => stable_text.bind fun _ =>
    (stable_code _ _).bind fun _ => stable_text.bind fun _ => (stable_varint 64).bind fun _ =>
      stable_configuration.bind fun _ => .pure _

/-- The binary form of a plugin, cut off anywhere, is refused because the bytes end, and for no
other reason. -/
theorem decode_of_truncated {p : Plugin} (sized : p.Sized) {bs : List UInt8}
    (start : bs <+: p.encode) (proper : bs ≠ p.encode) :
    decode bs = .error .endOfBuffer ∧ (decode bs).mapError faultText =
      .error "plugin wire codec: Hit the end of buffer, expected more data" := by
  obtain ⟨more, whole⟩ := start
  have missing : more ≠ [] := by
    rintro rfl
    exact proper (by rw [← whole, List.append_nil])
  have fields : readFields bs = .error .endOfBuffer :=
    stable_fields.runs_out (whole ▸ reads_fields sized) missing
  have refused : decode bs = .error .endOfBuffer := by
    rw [decode, fields]
    rfl
  exact ⟨refused, by rw [refused]; rfl⟩

/-- The cut falls inside the letter ü. -/
theorem decode_of_truncated_umbrella :
    umbrella.Sized ∧ umbrella.encode.take 10 <+: umbrella.encode ∧
      umbrella.encode.take 10 ≠ umbrella.encode ∧
      decode (umbrella.encode.take 10) = .error .endOfBuffer :=
  have start := List.take_prefix 10 umbrella.encode
  have proper : umbrella.encode.take 10 ≠ umbrella.encode := by decide +kernel
  ⟨sized_umbrella, start, proper, (decode_of_truncated sized_umbrella start proper).1⟩

end Plugin

end PluginRegistry
