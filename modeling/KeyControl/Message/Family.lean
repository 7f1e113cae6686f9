import KeyControl.Message.Record

/-!
# Families of messages

A family is a closed set of variants, told apart by their tags.  `Family.readTagged` and
`Family.readStatus` read a variant from an unchecked structure.  In the tagged form a structure is
an object with the tag as its only key and the fields as its body, or the bare tag if the variant
declares no fields; in the status form the tag is the value of the key `status`, beside the fields.
`Variant.tagged` and `Variant.status` write these forms.
-/

namespace KeyControl

/-- A closed set of message variants. -/
structure Family where
  /-- What error texts call the family. -/
  label : String
  /-- The tags of the variants. -/
  Tag : Type
  /-- Every tag, in order of declaration. -/
  all : List Tag
  /-- The name of a tag on the wire. -/
  name : Tag → String
  /-- What error texts call the variant where the fields given for it are not those it declares. -/
  builder : Tag → String
  /-- The fields of a variant, in order of declaration. -/
  fields : Tag → List Field

/-- A message of a family: a tag, and a value for each field declared under it. -/
structure Variant (F : Family) where
  tag : F.Tag
  record : Record (F.fields tag)

/-- The key that holds the tag in the status form. -/
def statusKey : String := "status"

/-- A field value that does not do. -/
structure InvalidField where
  tag : String
  field : String
  fault : Fault
deriving DecidableEq

/-- Why a structure is no message of a family. -/
inductive ReadError where
  /-- A tag stands alone, but its variant declares fields. -/
  | bodyMissing (tag : String)
  /-- The structure is neither text nor an object. -/
  | notTagged (label : String) (found : String)
  /-- The object has not exactly one key. -/
  | keyCount (label : String) (count : Nat)
  /-- The tag is not text. -/
  | tagNotText (label : String) (found : String)
  /-- No variant has the tag. -/
  | unknownTag (label : String) (tag : Text)
  /-- There is a body, but the variant declares no fields. -/
  | bodyUnexpected (tag : String)
  /-- The body is no object. -/
  | bodyNotObject (tag : String) (found : String)
  /-- The structure is no object, where a status is needed. -/
  | notObject (label : String) (found : String)
  /-- The object has no status. -/
  | statusMissing (label : String)
  /-- A required field is missing. -/
  | fieldMissing (tag : String) (field : String)
  /-- The value of a field does not do. -/
  | invalid (cause : InvalidField)
deriving DecidableEq

/-- Why the fields given for a variant do not build a message. -/
inductive BuildError where
  /-- A field is given that the variant does not declare. -/
  | undeclared (builder : String) (field : String)
  /-- Required fields are not given. -/
  | missing (builder : String) (fields : List String)
  /-- The value of a field does not do. -/
  | invalid (cause : InvalidField)
deriving DecidableEq

namespace Family

variable (F : Family)

def isUnit (tag : F.Tag) : Bool :=
  (F.fields tag).isEmpty

def ofName? (name : Text) : Option F.Tag :=
  F.all.find? fun tag => decide (Text.ofString (F.name tag) = name)

/-- Check unchecked values for the fields of a variant. -/
def check (tag : F.Tag) (draft : Draft (F.fields tag)) : Except InvalidField (Variant F) :=
  match Record.check (F.fields tag) draft with
  | .ok record => .ok ⟨tag, record⟩
  | .error (field, fault) => .error ⟨F.name tag, field, fault⟩

/-- Read the fields of a variant. -/
def readFields (tag : F.Tag) (find : String → Option Datum) : Except ReadError (Variant F) :=
  match Draft.collect find (F.fields tag) with
  | .error field => .error (.fieldMissing (F.name tag) field)
  | .ok draft =>
    match F.check tag draft with
    | .ok v => .ok v
    | .error cause => .error (.invalid cause)

/-- The tag that an unchecked value names. -/
def readTag : Datum → Except ReadError F.Tag
  | .text name =>
    match F.ofName? name with
    | some tag => .ok tag
    | none => .error (.unknownTag F.label name)
  | d => .error (.tagNotText F.label d.typeName)

/-- Read the variant of a tag with the body given. -/
def readBody (tag : F.Tag) (body : Datum) : Except ReadError (Variant F) :=
  if F.isUnit tag then
    if body.isNull then F.readFields tag fun _ => none else .error (.bodyUnexpected (F.name tag))
  else
    match body with
    | .table entries => F.readFields tag fun name => Datum.lookup (Text.ofString name) entries
    | d => .error (.bodyNotObject (F.name tag) d.typeName)

/-- Read a structure in the tagged form. -/
def readTagged : Datum → Except ReadError (Variant F)
  | .text name =>
    match F.readTag (.text name) with
    | .error e => .error e
    | .ok tag =>
      if F.isUnit tag then F.readFields tag fun _ => none else .error (.bodyMissing (F.name tag))
  | .table [(key, body)] =>
    match F.readTag key with
    | .error e => .error e
    | .ok tag => F.readBody tag body
  | .table entries => .error (.keyCount F.label entries.length)
  | d => .error (.notTagged F.label d.typeName)

/-- Read a structure in the status form. -/
def readStatus : Datum → Except ReadError (Variant F)
  | .table entries =>
    match Datum.lookup (Text.ofString statusKey) entries with
    | none => .error (.statusMissing F.label)
    | some status =>
      match F.readTag status with
      | .error e => .error e
      | .ok tag => F.readFields tag fun name => Datum.lookup (Text.ofString name) entries
  | d => .error (.notObject F.label d.typeName)

/-- Build a message from the fields given by name.  Fields that are not declared come first among
the errors, then those that are missing, then values that do not do. -/
def build (tag : F.Tag) (given : List (String × Datum)) : Except BuildError (Variant F) :=
  let declared := F.fields tag
  let find name := Json.find? name given
  match given.find? fun e => ! declared.any fun f => f.name == e.1 with
  | some (name, _) => .error (.undeclared (F.builder tag) name)
  | none =>
    match Draft.collect find declared with
    | .error _ =>
      let absent := declared.filter fun f => ! f.isOptional && (find f.name).isNone
      .error (.missing (F.builder tag) (absent.map Field.name))
    | .ok draft =>
      match F.check tag draft with
      | .ok v => .ok v
      | .error cause => .error (.invalid cause)

end Family

namespace Variant

variable {F : Family}

/-- The fields that are set, as they stand on the wire. -/
def entries (v : Variant F) : List (String × Json) :=
  Record.entries _ v.record

/-- All fields; unset ones are null. -/
def values (v : Variant F) : List (String × Datum) :=
  Record.values _ v.record

/-- The tagged form of a variant. -/
def tagged (v : Variant F) : Json :=
  if F.isUnit v.tag then .str (F.name v.tag) else .obj [(F.name v.tag, .obj v.entries)]

/-- The status form of a variant. -/
def status (v : Variant F) : Json :=
  .obj ((statusKey, .str (F.name v.tag)) :: v.entries)

end Variant

end KeyControl
