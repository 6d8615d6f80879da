import Mathlib.Data.List.Forall2
import Mathlib.Data.List.Nodup
import Mathlib.Data.List.Perm.Basic
import PluginRegistry.Plugin.Document
import PluginRegistry.Proofs.CanonicalForm
import PluginRegistry.Proofs.FlagText

/-!
# The documents that stand for a plugin

A record may be written as a mapping, with its fields in any order and among others that it does not
know, or as the sequence of its values in declaration order (`Shape.Gives`). An open record finds
the same fields in each of these. Every document that is written for an accepted plugin therefore
reads as that plugin (`Plugin.documents_read_back`), whose binary form is thus the same before and
after.
-/

namespace PluginRegistry

namespace Document

/-- A value that holds the given fields of a record, which are listed as they are declared. -/
inductive Shape.Gives (s : Shape) (fs : List (String × Value)) : Value → Prop
  | mapping (present extra : List (String × Value)) (order : present.Perm (fs ++ extra))
      (unknown : ∀ e ∈ extra, e.1 ∉ s.names) : Gives s fs (.mapping present)
  | sequence : Gives s fs (.sequence (fs.map (·.2)))

/-- The listed fields are those of the record, and each value passes the check of its field. -/
def Shape.Admits (s : Shape) (fs : List (String × Value)) : Prop :=
  List.Forall₂ (fun f e => f.name = e.1 ∧ f.check e.2 = .ok ()) s.fields fs

/-- The one element that passes a test is the one that is found. -/
theorem find?_eq_some_of_unique {α : Type} {test : α → Bool} {as : List α} {a : α} (ha : a ∈ as)
    (ht : test a = true) (only : ∀ b ∈ as, test b = true → b = a) : as.find? test = some a := by
  cases hf : as.find? test with
  | none => exact absurd ht (List.find?_eq_none.1 hf a ha)
  | some b => rw [only b (List.mem_of_find?_eq_some hf) (List.find?_some hf)]

theorem forM_eq_ok {α : Type} {check : α → Except Fault Unit} {as : List α}
    (h : ∀ a ∈ as, check a = .ok ()) : as.forM check = .ok () := by
  induction as with
  | nil => rfl
  | cons a as ih =>
    obtain ⟨ha, has⟩ := List.forall_mem_cons.1 h
    change (check a >>= fun _ => as.forM check) = _
    rw [ha]
    exact ih has

theorem Field.check_of {α : Type} {name : String} {read : Reader α} {v : Value} {a : α}
    (h : read v = .ok a) : (Field.of name read).check v = .ok () := by
  change (fun _ => ()) <$> read v = _
  rw [h]
  rfl

theorem Fields.required_eq {α : Type} {fields : Fields} {name : String} {v : Value}
    (h : fields.find? name = some v) (read : Reader α) : fields.required name read = read v := by
  rw [required, h]

namespace Shape

variable {s : Shape} {fs : List (String × Value)} {v : Value} {e : String × Value}

theorem Admits.names_eq (admits : s.Admits fs) : fs.map (·.1) = s.names := by
  have same : List.Forall₂ (· = ·) (s.fields.map Field.name) (fs.map (·.1)) := by
    rw [List.forall₂_map_left_iff, List.forall₂_map_right_iff]
    exact List.Forall₂.imp (fun _ _ h => h.1) admits
  rw [List.forall₂_eq_eq_eq] at same
  exact same.symm

theorem Admits.zip_eq (admits : s.Admits fs) : s.names.zip (fs.map (·.2)) = fs := by
  rw [← admits.names_eq]
  simpa using fs.zip_unzip

theorem Admits.eq_of_name_eq (admits : s.Admits fs) (nodup : s.names.Nodup) (he : e ∈ fs)
    {e' : String × Value} (he' : e' ∈ fs) (h : e'.1 = e.1) : e' = e :=
  List.inj_on_of_nodup_map (admits.names_eq ▸ nodup) he' he h

theorem Admits.checkField_eq_ok (admits : s.Admits fs) (nodup : s.names.Nodup) (he : e ∈ fs) :
    s.checkField e = .ok () := by
  obtain ⟨⟨i, hi⟩, rfl⟩ := List.mem_iff_get.1 he
  obtain ⟨hl, fits⟩ := List.forall₂_iff_get.1 admits
  have hi' : i < s.fields.length := hl ▸ hi
  obtain ⟨hn, hc⟩ := fits i hi' hi
  have hm : s.fields.get ⟨i, hi'⟩ ∈ s.fields := List.get_mem ..
  have found : s.fields.find? (fun f => f.name = (fs.get ⟨i, hi⟩).1) =
      some (s.fields.get ⟨i, hi'⟩) := by
    refine find?_eq_some_of_unique hm (decide_eq_true hn) fun f hf h => ?_
    exact List.inj_on_of_nodup_map nodup hf hm ((of_decide_eq_true h).trans hn.symm)
  rw [checkField, found]
  exact hc

theorem checkField_of_not_mem (hopen : s.closed = false) (h : e.1 ∉ s.names) :
    s.checkField e = .ok () := by
  have none : s.fields.find? (fun f => f.name = e.1) = none := by
    refine List.find?_eq_none.2 fun f hf hn => h ?_
    exact List.mem_map.2 ⟨f, hf, of_decide_eq_true hn⟩
  rw [checkField, none, hopen]
  rfl

/-- Whatever form the record is written in, its own fields are found in it. -/
theorem Gives.fieldsOf_eq_ok (given : s.Gives fs v) (admits : s.Admits fs) (nodup : s.names.Nodup)
    (hopen : s.closed = false) :
    ∃ fields, s.fieldsOf v = .ok fields ∧ s.checkSurplus v = .ok () ∧
      ∀ e ∈ fs, fields.find? e.1 = some e.2 := by
  cases given with
  | mapping present extra order unknown =>
    have parts {e : String × Value} : e ∈ present ↔ e ∈ fs ∨ e ∈ extra := by
      rw [order.mem_iff, List.mem_append]
    refine ⟨⟨present, .missingField⟩, ?_, rfl, fun e he => ?_⟩
    · have checked : present.forM s.checkField = .ok () := forM_eq_ok fun e he =>
        (parts.1 he).elim (admits.checkField_eq_ok nodup)
          fun he => checkField_of_not_mem hopen (unknown e he)
      rw [fieldsOf, checked]
      rfl
    · have known : e.1 ∈ s.names := admits.names_eq ▸ List.mem_map_of_mem he
      rw [Fields.find?, find?_eq_some_of_unique (parts.2 (Or.inl he)) (decide_eq_true rfl)]
      · rfl
      · intro e' he' h
        rcases parts.1 he' with he' | he'
        · exact admits.eq_of_name_eq nodup he he' (of_decide_eq_true h)
        · exact absurd (of_decide_eq_true h ▸ known) (unknown e' he')
  | sequence =>
    have hl : s.fields.length = fs.length := List.Forall₂.length_eq admits
    refine ⟨⟨s.names.zip (fs.map (·.2)),
      fun name => .invalidLength (s.names.idxOf name) s.lengthText⟩, ?_, ?_, fun e he => ?_⟩
    · have checked : (s.fields.zip (fs.map (·.2))).forM (fun e => e.1.check e.2) = .ok () := by
        refine forM_eq_ok fun e he => ?_
        rw [List.zip_map_right, List.mem_map] at he
        obtain ⟨e', he', rfl⟩ := he
        exact (List.forall₂_zip admits he').2
      rw [fieldsOf, checked]
      rfl
    · rw [checkSurplus, if_neg]
      simp [hl]
    · rw [admits.zip_eq, Fields.find?, find?_eq_some_of_unique he (decide_eq_true rfl)]
      · rfl
      · exact fun e' he' h => admits.eq_of_name_eq nodup he he' (of_decide_eq_true h)

/-- A record that is put together from its own fields is read from any form of it. -/
theorem Gives.read_eq_ok {α : Type} {build : Fields → Except Fault α} {a : α}
    (given : s.Gives fs v) (admits : s.Admits fs) (nodup : s.names.Nodup) (hopen : s.closed = false)
    (built : ∀ fields : Fields, (∀ e ∈ fs, fields.find? e.1 = some e.2) → build fields = .ok a) :
    s.read build v = .ok a := by
  obtain ⟨fields, hf, hs, found⟩ := given.fieldsOf_eq_ok admits nodup hopen
  rw [read, hf]
  change (do let a ← build fields; s.checkSurplus v; return a) = _
  rw [built fields found]
  change (do s.checkSurplus v; return a) = _
  rw [hs]
  rfl

end Shape

theorem mapM_readText (names : List String) : (names.map Value.text).mapM readText = .ok names := by
  induction names with
  | nil => rfl
  | cons a names ih =>
    rw [List.map_cons, List.mapM_cons, ih]
    rfl

theorem readVariant_text {α : Type} {values : List α} {name : α → String} {a : α}
    (h : values.find? (fun b => name b = name a) = some a) (f : Format) :
    readVariant f values name (.text (name a)) = .ok a := by
  cases f <;> simp only [readVariant, h]

theorem readInt64_toInt (n : Int64) : readInt64 (.integer n.toInt) = .ok n := by
  have range : -Int.pow 2 (64 - 1) ≤ n.toInt ∧ n.toInt < Int.pow 2 (64 - 1) :=
    ⟨n.le_toInt, n.toInt_lt⟩
  rw [readInt64, readInteger, if_pos range]
  exact congrArg Except.ok n.ofInt_toInt

end Document

open Document

namespace Configuration

variable {c : Configuration} {v : Value}

def fields (c : Configuration) (names : List String) : List (String × Value) :=
  [("flags", .text c.flags.text), ("alternatives", .sequence (names.map .text))]

def WrittenAs (c : Configuration) (v : Value) : Prop :=
  ∃ names : List String, (∀ a, a ∈ names ↔ a ∈ c.alternatives) ∧ shape.Gives (c.fields names) v

theorem writtenAs_toDocument (c : Configuration) : c.WrittenAs c.toDocument :=
  ⟨c.alternatives.toList, fun _ => Iff.rfl, .mapping _ [] (.swap ..) nofun⟩

theorem readFlags_text (s : Flags) : readFlags (.text s.text) = .ok s := by
  rw [readFlags, Flags.read_text]

theorem readNames_text {names : List String} {s : NameSet} (h : ∀ a, a ∈ names ↔ a ∈ s) :
    readNames (.sequence (names.map .text)) = .ok s := by
  have hs : NameSet.ofList names = s := NameSet.ext_mem fun a => NameSet.mem_ofList.trans (h a)
  change NameSet.ofList <$> (names.map Value.text).mapM readText = _
  rw [mapM_readText, ← hs]
  rfl

theorem ofDocument_of_writtenAs (written : c.WrittenAs v) : ofDocument v = .ok c := by
  obtain ⟨names, hs, given⟩ := written
  have hf := readFlags_text c.flags
  have ha := readNames_text hs
  refine given.read_eq_ok ?_ (by decide) rfl fun fields found => ?_
  · exact .cons ⟨rfl, Field.check_of hf⟩ (.cons ⟨rfl, Field.check_of ha⟩ .nil)
  · simp only [Configuration.fields, List.forall_mem_cons] at found
    rw [Fields.required_eq found.1, Fields.required_eq found.2.1, hf, ha]
    rfl

end Configuration

namespace Plugin

variable {p : Plugin} {v : Value}

def fields (p : Plugin) (configuration : Value) : List (String × Value) :=
  [("category", .text p.category.name), ("package_name", .text p.packageName),
    ("editor_component", .text p.editorComponent), ("executor_kind", .text p.executorKind.name),
    ("executor_component", .text p.executorComponent), ("version_code", .integer p.version.toInt),
    ("configuration", configuration)]

def WrittenAs (p : Plugin) (v : Value) : Prop :=
  ∃ c, p.configuration.WrittenAs c ∧ shape.Gives (p.fields c) v

open List in
theorem writtenAs_toDocument (p : Plugin) : p.WrittenAs p.toDocument := by
  -- In key order the configuration comes second and the executor stands before its kind.
  have order (a b c d e f g : String × Value) : [a, g, c, e, d, b, f].Perm [a, b, c, d, e, f, g] :=
    .cons a <| calc
      [g, c, e, d, b, f] ~ [c, e, d] ++ b :: [f, g] := (List.perm_append_singleton g _).symm
      _ ~ b :: c :: e :: d :: [f, g] := List.perm_middle
      _ ~ [b, c, d, e, f, g] := .cons b (.cons c (.swap d e _))
  exact ⟨_, p.configuration.writtenAs_toDocument, .mapping _ [] (order ..) nofun⟩

theorem readCategory_name (c : Category) : readCategory .json (.text c.name) = .ok c :=
  readVariant_text (by cases c <;> decide) .json

theorem readKind_name (k : ComponentKind) : readKind .json (.text k.name) = .ok k :=
  readVariant_text (by cases k <;> decide) .json

theorem fieldsOfDocument_of_writtenAs (written : p.WrittenAs v) : fieldsOfDocument v = .ok p := by
  obtain ⟨c, hc, given⟩ := written
  have hcat := readCategory_name p.category
  have hkind := readKind_name p.executorKind
  have hver := readInt64_toInt p.version
  have hconf := Configuration.ofDocument_of_writtenAs hc
  refine given.read_eq_ok ?_ (by decide) rfl fun fields found => ?_
  · exact .cons ⟨rfl, Field.check_of hcat⟩ (.cons ⟨rfl, rfl⟩ (.cons ⟨rfl, rfl⟩
      (.cons ⟨rfl, Field.check_of hkind⟩ (.cons ⟨rfl, rfl⟩ (.cons ⟨rfl, Field.check_of hver⟩
        (.cons ⟨rfl, Field.check_of hconf⟩ .nil))))))
  · simp only [Plugin.fields, List.forall_mem_cons] at found
    obtain ⟨f₁, f₂, f₃, f₄, f₅, f₆, f₇, -⟩ := found
    rw [Fields.required_eq f₁, Fields.required_eq f₂, Fields.required_eq f₃, Fields.required_eq f₄,
      Fields.required_eq f₅, Fields.required_eq f₆, Fields.required_eq f₇, hcat, hkind, hver, hconf]
    rfl

theorem ofDocument_of_writtenAs (written : p.WrittenAs v) (named : p.Named) :
    ofDocument v = .ok p := by
  have hc : p.create = .ok p := create_eq_ok_iff.2 ⟨rfl, named⟩
  rw [ofDocument, fieldsOfDocument_of_writtenAs written]
  simp only [bind, Except.bind, hc]
  rfl

/-- An accepted plugin is read from whatever is written for it, be it the document that it is
written as, another with more fields or in another order, or the sequences of the fields. So bytes
that denote a plugin denote the same one after a way through such a document. -/
theorem documents_read_back :
    (∀ raw p : Plugin, raw.create = .ok p →
      p.WrittenAs p.toDocument ∧ ∀ v, p.WrittenAs v → ofDocument v = .ok p) ∧
    ∀ (bs : List UInt8) (p : Plugin), decode bs = .ok p →
      p.WrittenAs p.toDocument ∧ ∀ v, p.WrittenAs v → encode <$> ofDocument v = .ok p.encode := by
  refine ⟨fun raw p accepted => ?_, fun bs p decoded => ?_⟩
  · obtain ⟨rfl, named⟩ := create_eq_ok_iff.1 accepted
    exact ⟨raw.writtenAs_toDocument, fun v written => ofDocument_of_writtenAs written named⟩
  · obtain ⟨-, -, accepted⟩ := exists_of_decode_eq_ok decoded
    have named := (create_eq_ok_iff.1 accepted).2
    refine ⟨p.writtenAs_toDocument, fun v written => ?_⟩
    rw [ofDocument_of_writtenAs written named]
    rfl

def umbrellaFlags : String :=
  "BACKWARDS_COMPATIBLE | REQUIRES_CONNECTIVITY | DISRUPTS_CONNECTIVITY | BUGGY | " ++
    "DRAINS_BATTERY | BLACKLISTED | 0xc0"

/-- The fields stand in the reverse order behind one that is not known, and the configuration is a
sequence with its alternatives out of order. -/
def umbrellaDocument : Value :=
  .mapping [
    ("registry_name", .null),
    ("configuration", .sequence [.text umbrellaFlags, .sequence [.text "b:y", .text "a:x"]]),
    ("version_code", .integer (-9223372036854775808)),
    ("executor_component", .text "🌂"),
    ("executor_kind", .text "service"),
    ("editor_component", .text "☂:edit"),
    ("package_name", .text "wetter.übersicht"),
    ("category", .text "setting")]

theorem writtenAs_umbrellaDocument : umbrella.WrittenAs umbrellaDocument := by
  have flags : umbrella.configuration.flags.text = umbrellaFlags := by decide +kernel
  have version : umbrella.version.toInt = -9223372036854775808 := by decide
  have configuration : umbrella.configuration.WrittenAs
      (.sequence [.text umbrellaFlags, .sequence [.text "b:y", .text "a:x"]]) := by
    refine ⟨["b:y", "a:x"], fun a => ?_, flags ▸ .sequence⟩
    rw [umbrella, NameSet.mem_ofList]
    grind
  have order := List.reverse_perm (umbrella.fields
    (.sequence [.text umbrellaFlags, .sequence [.text "b:y", .text "a:x"]]) ++
      [("registry_name", .null)])
  rw [fields, version] at order
  have unknown : "registry_name" ∉ shape.names := by decide
  exact ⟨_, configuration, .mapping _ [("registry_name", .null)] order
    (List.forall_mem_singleton.2 unknown)⟩

theorem documents_read_back_umbrella :
    umbrella.create = .ok umbrella ∧ umbrella.WrittenAs umbrellaDocument ∧
      ofDocument umbrellaDocument = .ok umbrella ∧ decode sprawling = .ok gathered ∧
      encode <$> ofDocument gathered.toDocument = .ok gathered.encode :=
  have hn : umbrella.emptyName? = none := by decide +kernel
  have hc : umbrella.create = .ok umbrella := create_eq_ok_iff.2 ⟨rfl, emptyName?_eq_none_iff.1 hn⟩
  have hd : decode sprawling = .ok gathered := by decide +kernel
  have written := writtenAs_umbrellaDocument
  ⟨hc, written, (documents_read_back.1 _ _ hc).2 _ written, hd,
    (documents_read_back.2 _ _ hd).2 _ (documents_read_back.2 _ _ hd).1⟩

end Plugin

end PluginRegistry
