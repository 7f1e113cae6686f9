import KeyControl.Message.Kind

/-!
# Records of fields

The fields of a message are declared as a list, and a record holds one value of the right type for
each.  Building a record from unchecked values takes two steps.  `Draft.collect` looks every
declared field up and complains of the first required one that is missing; `Record.check` then
checks the values in the order of declaration and complains of the first that does not do.  Whatever
is not declared plays no part in either step.
-/

namespace KeyControl

/-- The declaration of a field.  An optional field may be left unset. -/
inductive Field where
  | required (name : String) (kind : Kind)
  | optional (name : String) (kind : Kind)
deriving DecidableEq

namespace Field

def name : Field → String
  | required n _ => n
  | optional n _ => n

def isOptional : Field → Bool
  | required _ _ => false
  | optional _ _ => true

/-- The type of the values of a field. -/
abbrev Carrier : Field → Type
  | required _ k => k.Carrier
  | optional _ k => Option k.Carrier

/-- Check a value for a field; null leaves an optional field unset. -/
def check : (f : Field) → Datum → Except Fault f.Carrier
  | required _ k, d => k.check d
  | optional _ k, d => if d.isNull then .ok none else (k.check d).map some

/-- The form of a field's value on the wire, which an unset field lacks. -/
def toJson? : (f : Field) → f.Carrier → Option Json
  | required _ k, v => some (k.toJson v)
  | optional _ k, v => v.map k.toJson

end Field

/-- One value for each declared field. -/
def Record : List Field → Type
  | [] => Unit
  | f :: fs => f.Carrier × Record fs

/-- One unchecked value for each declared field. -/
def Draft : List Field → Type
  | [] => Unit
  | _ :: fs => Datum × Draft fs

namespace Draft

/-- Look every declared field up.  An optional field that is not found is null; a required one that
is not found is the error. -/
def collect (find : String → Option Datum) : (fs : List Field) → Except String (Draft fs)
  | [] => .ok ()
  | f :: fs =>
    match find f.name with
    | some d => (collect find fs).map (d, ·)
    | none => if f.isOptional then (collect find fs).map (.null, ·) else .error f.name

end Draft

namespace Record

/-- Check a value for each field, in order; the first that does not do is the error, with the name
of its field. -/
def check : (fs : List Field) → Draft fs → Except (String × Fault) (Record fs)
  | [], _ => .ok ()
  | f :: fs, (d, ds) =>
    match f.check d with
    | .error fault => .error (f.name, fault)
    | .ok v => (check fs ds).map (v, ·)

/-- The fields of a record that are set, in order, as they stand on the wire. -/
def entries : (fs : List Field) → Record fs → List (String × Json)
  | [], _ => []
  | f :: fs, (v, vs) =>
    match f.toJson? v with
    | some j => (f.name, j) :: entries fs vs
    | none => entries fs vs

/-- All fields of a record, in order; unset ones are null. -/
def values : (fs : List Field) → Record fs → List (String × Datum)
  | [], _ => []
  | f :: fs, (v, vs) => (f.name, ((f.toJson? v).map Datum.ofJson).getD .null) :: values fs vs

end Record

end KeyControl
