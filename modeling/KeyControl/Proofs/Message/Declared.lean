import KeyControl.Proofs.Message.RoundTrip
import KeyControl.Message.Wording

/-!
# Only declared fields matter

What is read from a body depends on what is found for the declared fields alone, where null is as
good as nothing for an optional one (`Field.held?`).  Other keys, their values and the order of all
keys play no part: drafts are collected from what is held (`Draft.collect_congr`), and the rest of
reading sees nothing but the draft.

Two kinds of errors remain for an object.  The first required field that is missing is named before
any value is looked at (`Draft.collect_eq_error`).  If none is missing, the first value that does
not do is reported (`Record.check_fill_eq_error`), in the words in which building the message from
the values that are held reports it.  `Message.ofDatum_declared` puts this together for every
variant of every family.
-/

namespace KeyControl

namespace Field

variable (f : Field) (find : String → Option Datum)

/-- What is held for a field.  For an optional field, null is nothing. -/
def held? : Option Datum :=
  (find f.name).filter fun d => ! (f.isOptional && d.isNull)

/-- Whether a field is missing: it is required, and nothing is held for it. -/
def isMissing : Bool :=
  ! f.isOptional && (f.held? find).isNone

/-- The value to be checked for a field: null, if nothing is held for it. -/
def value : Datum :=
  (f.held? find).getD .null

/-- The fault of the value for a field, if it has one. -/
def fault? : Option Fault :=
  match f.check (f.value find) with
  | .ok _ => none
  | .error fault => some fault

variable {f find}

theorem exists_check_of_fault? (h : f.fault? find = none) :
    ∃ v, f.check (f.value find) = .ok v := by
  rw [fault?] at h
  split at h
  · next v hv => exact ⟨v, hv⟩
  · cases h

theorem check_of_fault? {fault : Fault} (h : f.fault? find = some fault) :
    f.check (f.value find) = .error fault := by
  rw [fault?] at h
  split at h
  · cases h
  · next e he =>
    rw [he, Option.some.inj h]

end Field

/-! ## Drafts -/

namespace Draft

/-- What is collected for the first field: what is held for it, or null in its place. -/
theorem collect_cons (find : String → Option Datum) (f : Field) (fs : List Field) :
    collect find (f :: fs) =
      if f.isMissing find then .error f.name
      else (collect find fs).map (f.value find, ·) := by
  rw [collect, Field.isMissing, Field.value, Field.held?]
  cases hfind : find f.name with
  | none =>
    cases f with
    | required name k => rfl
    | optional name k => rfl
  | some d =>
    cases f with
    | required name k => rfl
    | optional name k =>
      -- The null of an optional field stays null.
      cases d <;> rfl

/-- **What is collected depends on what is held for the declared fields alone.** -/
theorem collect_congr {find find' : String → Option Datum} {fs : List Field}
    (h : ∀ f ∈ fs, f.held? find = f.held? find') : collect find fs = collect find' fs := by
  induction fs with
  | nil => rfl
  | cons f fs ih =>
    obtain ⟨hf, hfs⟩ := List.forall_mem_cons.1 h
    rw [collect_cons, collect_cons, ih hfs, Field.isMissing, Field.isMissing, Field.value,
      Field.value, hf]

variable {find : String → Option Datum}

/-- **The first required field that is missing is named**, whatever is held for the others. -/
theorem collect_eq_error {before after : List Field} {f : Field}
    (hbefore : ∀ g ∈ before, g.isMissing find = false) (hf : f.isMissing find = true) :
    collect find (before ++ f :: after) = .error f.name := by
  induction before with
  | nil =>
    rw [List.nil_append, collect_cons, if_pos hf]
    rfl
  | cons g before ih =>
    obtain ⟨hg, hbefore⟩ := List.forall_mem_cons.1 hbefore
    rw [List.cons_append, collect_cons, hg, if_neg Bool.false_ne_true, ih hbefore]
    rfl

/-- The value to be checked for each field. -/
def fill (find : String → Option Datum) : (fs : List Field) → Draft fs
  | [] => ()
  | f :: fs => (f.value find, fill find fs)

theorem collect_eq_fill {fs : List Field} (h : ∀ f ∈ fs, f.isMissing find = false) :
    collect find fs = .ok (fill find fs) := by
  induction fs with
  | nil => rfl
  | cons f fs ih =>
    obtain ⟨hf, hfs⟩ := List.forall_mem_cons.1 h
    rw [collect_cons, hf, if_neg Bool.false_ne_true, ih hfs]
    rfl

end Draft

/-- **The first value that does not do is reported**, with the name of its field. -/
theorem Record.check_fill_eq_error {find : String → Option Datum} {before after : List Field}
    {f : Field} {fault : Fault} (hbefore : ∀ g ∈ before, g.fault? find = none)
    (hf : f.fault? find = some fault) :
    check (before ++ f :: after) (Draft.fill find _) = .error (f.name, fault) := by
  induction before with
  | nil => exact check_of_error (Field.check_of_fault? hf)
  | cons g before ih =>
    obtain ⟨hg, hbefore⟩ := List.forall_mem_cons.1 hbefore
    obtain ⟨v, hv⟩ := Field.exists_check_of_fault? hg
    show check (g :: (before ++ f :: after)) (g.value find, Draft.fill find _) = _
    rw [check, hv]
    dsimp only
    rw [ih hbefore]
    rfl

/-! ## Variants -/

namespace Family

variable {F : Family} {tag : F.Tag} {find : String → Option Datum}

theorem readFields_congr {find' : String → Option Datum}
    (h : ∀ f ∈ F.fields tag, f.held? find = f.held? find') :
    F.readFields tag find = F.readFields tag find' := by
  rw [readFields, readFields, Draft.collect_congr h]

section

variable {given : List (String × Datum)} {draft : Draft (F.fields tag)}
  (hdeclared : ∀ e ∈ given, ∃ g ∈ F.fields tag, g.name = e.1)
  (hcollect : Draft.collect (Json.find? · given) (F.fields tag) = .ok draft)

include hdeclared

theorem find?_undeclared_eq_none :
    (given.find? fun e => ! (F.fields tag).any fun g => g.name == e.1) = none := by
  refine List.find?_eq_none.2 fun e he => ?_
  obtain ⟨g, hg, hname⟩ := hdeclared e he
  have hany : (F.fields tag).any (fun g => g.name == e.1) = true :=
    List.any_eq_true.2 ⟨g, hg, beq_iff_eq.2 hname⟩
  rw [hany]
  exact Bool.false_ne_true

include hcollect

theorem build_eq_ok {record : Record (F.fields tag)} (hcheck : Record.check _ draft = .ok record) :
    F.build tag given = .ok ⟨tag, record⟩ := by
  rw [build]
  dsimp only
  rw [find?_undeclared_eq_none hdeclared]
  dsimp only
  rw [hcollect]
  dsimp only
  rw [check, hcheck]

theorem build_eq_error {field : String} {fault : Fault}
    (hcheck : Record.check _ draft = .error (field, fault)) :
    F.build tag given = .error (.invalid ⟨F.name tag, field, fault⟩) := by
  rw [build]
  dsimp only
  rw [find?_undeclared_eq_none hdeclared]
  dsimp only
  rw [hcollect]
  dsimp only
  rw [check_of_error hcheck]

end

variable {before after : List Field} {f : Field} (hfields : F.fields tag = before ++ f :: after)

include hfields

theorem readFields_eq_fieldMissing (hbefore : ∀ g ∈ before, g.isMissing find = false)
    (hf : f.isMissing find = true) :
    F.readFields tag find = .error (.fieldMissing (F.name tag) f.name) := by
  have hcollect : Draft.collect find (F.fields tag) = .error f.name := by
    rw [hfields, Draft.collect_eq_error hbefore hf]
  rw [readFields, hcollect]

variable {fault : Fault}

theorem check_fill_eq_error (hbefore : ∀ g ∈ before, g.fault? find = none)
    (hf : f.fault? find = some fault) :
    F.check tag (Draft.fill find _) = .error ⟨F.name tag, f.name, fault⟩ := by
  refine check_of_error ?_
  rw [hfields, Record.check_fill_eq_error hbefore hf]

variable (hmissing : ∀ g ∈ F.fields tag, g.isMissing find = false)
  (hbefore : ∀ g ∈ before, g.fault? find = none) (hf : f.fault? find = some fault)

include hmissing hbefore hf

theorem readFields_eq_invalid :
    F.readFields tag find = .error (.invalid ⟨F.name tag, f.name, fault⟩) := by
  rw [readFields, Draft.collect_eq_fill hmissing]
  dsimp only
  rw [check_fill_eq_error hfields hbefore hf]

/-- Building reports the same fault, if it is given what is held for the fields and nothing else. -/
theorem build_eq_invalid {given : List (String × Datum)}
    (hdeclared : ∀ e ∈ given, ∃ g ∈ F.fields tag, g.name = e.1)
    (hgiven : ∀ g ∈ F.fields tag, g.held? (Json.find? · given) = g.held? find) :
    F.build tag given = .error (.invalid ⟨F.name tag, f.name, fault⟩) := by
  have hcollect : Draft.collect (Json.find? · given) (F.fields tag) = .ok (Draft.fill find _) := by
    rw [Draft.collect_congr hgiven, Draft.collect_eq_fill hmissing]
  refine build_eq_error hdeclared hcollect ?_
  rw [hfields, Record.check_fill_eq_error hbefore hf]

end Family

/-! ## Structures -/

/-- What is found for a name among the entries of an object. -/
def Datum.named (entries : List (Datum × Datum)) (name : String) : Option Datum :=
  lookup (Text.ofString name) entries

namespace Family

variable {F : Family} {tag : F.Tag}

theorem readBody_table {before after : List Field} {f : Field}
    (hfields : F.fields tag = before ++ f :: after) (entries : List (Datum × Datum)) :
    F.readBody tag (.table entries) = F.readFields tag (Datum.named entries) := by
  have hunit : F.isUnit tag = false := by
    rw [isUnit, hfields]
    exact List.isEmpty_eq_false_iff.2 (List.append_ne_nil_of_right_ne_nil _ (List.cons_ne_nil _ _))
  rw [readBody, hunit, if_neg Bool.false_ne_true]
  rfl

theorem readBody_congr {entries entries' : List (Datum × Datum)}
    (h : ∀ f ∈ F.fields tag, f.held? (Datum.named entries) = f.held? (Datum.named entries')) :
    F.readBody tag (.table entries) = F.readBody tag (.table entries') := by
  rw [readBody, readBody]
  split
  · rfl
  · exact readFields_congr h

namespace Lawful

variable (hF : F.Lawful)

include hF

theorem readTagged_table (body : Datum) :
    F.readTagged (.table [(.ofString (F.name tag), body)]) = F.readBody tag body := by
  rw [readTagged, hF.readTag_name]

theorem readStatus_table {entries : List (Datum × Datum)}
    (h : Datum.named entries statusKey = some (.ofString (F.name tag))) :
    F.readStatus (.table entries) = F.readFields tag (Datum.named entries) := by
  rw [Datum.named] at h
  rw [readStatus, h]
  dsimp only
  rw [hF.readTag_name]
  rfl

end Lawful

end Family

namespace MessageFamily

def schema : MessageFamily → Family
  | requests => Requests
  | notices => Notices
  | acks => Acks

def ofVariant : (family : MessageFamily) → Variant family.schema → Message
  | requests => .request ∘ Request.ofVariant
  | notices => .notice ∘ Notice.ofVariant
  | acks => .ack ∘ Ack.ofVariant

theorem lawful_schema : ∀ family : MessageFamily, family.schema.Lawful
  | requests => lawful_requests
  | notices => lawful_notices
  | acks => lawful_acks

/-- A structure carries entries under the name of a variant: as the body of the only key, or beside
the status. -/
inductive Carries (name : String) (entries : List (Datum × Datum)) : MessageFamily → Datum → Prop
  | request : Carries name entries requests (.table [(.ofString name, .table entries)])
  | notice : Carries name entries notices (.table [(.ofString name, .table entries)])
  | ack (h : Datum.named entries statusKey = some (.ofString name)) :
    Carries name entries acks (.table entries)

/-- Read the variant of a tag from the entries that a structure carries. -/
def readEntries (entries : List (Datum × Datum)) :
    (family : MessageFamily) → (tag : family.schema.Tag) → Except ReadError (Variant family.schema)
  | requests, tag => Requests.readBody tag (.table entries)
  | notices, tag => Notices.readBody tag (.table entries)
  | acks, tag => Acks.readFields tag (Datum.named entries)

variable {family : MessageFamily} {tag : family.schema.Tag}

/-- Entries are read for the fields that are declared, if there are any. -/
theorem readEntries_eq_readFields {before after : List Field} {f : Field}
    (hfields : family.schema.fields tag = before ++ f :: after) (entries : List (Datum × Datum)) :
    readEntries entries family tag = family.schema.readFields tag (Datum.named entries) := by
  cases family with
  | requests => exact Family.readBody_table hfields entries
  | notices => exact Family.readBody_table hfields entries
  | acks => rfl

/-- **Entries are read from what is held for the declared fields alone.** -/
theorem readEntries_congr {entries entries' : List (Datum × Datum)}
    (h : ∀ f ∈ family.schema.fields tag,
      f.held? (Datum.named entries) = f.held? (Datum.named entries')) :
    readEntries entries family tag = readEntries entries' family tag := by
  cases family with
  | requests => exact Family.readBody_congr h
  | notices => exact Family.readBody_congr h
  | acks => exact Family.readFields_congr h

end MessageFamily

/-! ## Messages -/

namespace Message

open MessageFamily

variable {family : MessageFamily} {tag : family.schema.Tag}

theorem ofDatum_of_carries {entries : List (Datum × Datum)} {d : Datum}
    (h : Carries (family.schema.name tag) entries family d) :
    ofDatum family d = (readEntries entries family tag).map family.ofVariant := by
  cases h with
  | request => exact congrArg (Except.map _) (lawful_requests.readTagged_table _)
  | notice => exact congrArg (Except.map _) (lawful_notices.readTagged_table _)
  | ack h => exact congrArg (Except.map _) (lawful_acks.readStatus_table h)

theorem build?_name (given : List (String × Datum)) :
    build? family (Text.ofString (family.schema.name tag)) given =
      some ((family.schema.build tag given).map family.ofVariant) := by
  have hbuild : ∀ name, build? family name given = (family.schema.ofName? name).map fun t =>
      (family.schema.build t given).map family.ofVariant := fun name => by cases family <;> rfl
  rw [hbuild, family.lawful_schema.ofName?_name, Option.map_some]

/-- **Only declared fields matter.**  Take a variant of a family, and a structure that carries
entries for it.  Any other structure whose entries hold the same for the declared fields is read as
the same message, or is the same error.  If a required field is missing, the first of these is
named.  If none is missing, the first value with a fault is reported, in the words in which building
the message from what is held reports it. -/
theorem ofDatum_declared (family : MessageFamily) (tag : family.schema.Tag)
    {entries : List (Datum × Datum)} {d : Datum}
    (hd : Carries (family.schema.name tag) entries family d) :
    (∀ entries' d', Carries (family.schema.name tag) entries' family d' →
      (∀ f ∈ family.schema.fields tag,
        f.held? (Datum.named entries) = f.held? (Datum.named entries')) →
      ofDatum family d = ofDatum family d') ∧
    ∀ before f after, family.schema.fields tag = before ++ f :: after →
      ((∀ g ∈ before, g.isMissing (Datum.named entries) = false) →
        f.isMissing (Datum.named entries) = true →
        ofDatum family d = .error (.fieldMissing (family.schema.name tag) f.name)) ∧
      ∀ fault, (∀ g ∈ family.schema.fields tag, g.isMissing (Datum.named entries) = false) →
        (∀ g ∈ before, g.fault? (Datum.named entries) = none) →
        f.fault? (Datum.named entries) = some fault →
        let cause := ⟨family.schema.name tag, f.name, fault⟩
        ofDatum family d = .error (.invalid cause) ∧
          (∀ given : List (String × Datum),
            (∀ e ∈ given, ∃ g ∈ family.schema.fields tag, g.name = e.1) →
            (∀ g ∈ family.schema.fields tag,
              g.held? (Json.find? · given) = g.held? (Datum.named entries)) →
            build? family (Text.ofString (family.schema.name tag)) given =
              some (.error (.invalid cause))) ∧
          (ReadError.invalid cause).text = (BuildError.invalid cause).text := by
  refine ⟨fun entries' d' hd' hheld => ?_, fun before f after hfields => ⟨fun hbefore hf => ?_,
    fun fault hmissing hbefore hf => ⟨?_, fun given hdeclared hgiven => ?_, rfl⟩⟩⟩
  · rw [ofDatum_of_carries hd, ofDatum_of_carries hd', readEntries_congr hheld]
  · rw [ofDatum_of_carries hd, readEntries_eq_readFields hfields,
      Family.readFields_eq_fieldMissing hfields hbefore hf]
    rfl
  · rw [ofDatum_of_carries hd, readEntries_eq_readFields hfields,
      Family.readFields_eq_invalid hfields hmissing hbefore hf]
    rfl
  · rw [build?_name, Family.build_eq_invalid hfields hmissing hbefore hf hdeclared hgiven]
    rfl

/-- Two requests with both coordinates wrong, in another order and among other keys: they are the
same error, that of the coordinate declared first, and building the request is that error too. -/
theorem ofDatum_declared_shuffled :
    let entries := [(Datum.ofString "y", .int (-1)), (.ofString "session_id", .null),
      (.ofString "z", .list []), (.ofString "x", .bool true)]
    let entries' := [(Datum.ofString "x", .bool true), (.ofString "y", .int (-1))]
    let cause := ⟨"SetMouse", "x", .mismatch .word16 "bool"⟩
    ofDatum .requests (.table [(.ofString "SetMouse", .table entries)]) =
        ofDatum .requests (.table [(.ofString "SetMouse", .table entries')]) ∧
      ofDatum .requests (.table [(.ofString "SetMouse", .table entries)]) =
        .error (.invalid cause) ∧
      build? .requests (Text.ofString "SetMouse") [("y", .int (-1)), ("x", .bool true)] =
        some (.error (.invalid cause)) := by
  intro entries entries' cause
  have hd : Carries "SetMouse" entries .requests _ := .request
  obtain ⟨hsame, herror⟩ := ofDatum_declared .requests .setMouse hd
  obtain ⟨-, hinvalid⟩ := herror [] _ _ rfl
  obtain ⟨hread, hbuild, -⟩ := hinvalid (.mismatch .word16 "bool") (by decide) (by decide) rfl
  exact ⟨hsame entries' _ .request (by decide), hread, hbuild _ (by decide) (by decide)⟩

end Message

end KeyControl
