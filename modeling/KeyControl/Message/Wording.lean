import KeyControl.Message.Basic

/-!
# The wording of message errors

Errors are kept as causes; this module says in which words each is reported.  All wording is free of
surrogates, because foreign text stands in quotes in it, where surrogates are escaped.
-/

namespace KeyControl

/-- A string in quotes, as error texts show names. -/
def quotedName (s : String) : String :=
  (Text.ofString s).quotedString

/-- The text of an integer. -/
def integerString (n : Int) : String :=
  String.ofList (integerText n)

namespace SurrogateRun

/-- One surrogate is shown; of several the places of the first and the last are given. -/
def text (run : SurrogateRun) : String :=
  if run.more = 0 then
    "'utf-8' codec can't encode character '" ++
      String.ofList (Quoted.numbered (CodePoint.surrogate run.first).value) ++ "' in position " ++
      integerString run.start ++ ": surrogates not allowed"
  else
    "'utf-8' codec can't encode characters in position " ++ integerString run.start ++ "-" ++
      integerString (run.start + run.more) ++ ": surrogates not allowed"

end SurrogateRun

namespace DocumentFault

/-- The wording of a fault in a document. -/
def text : DocumentFault → String
  | surrogates run => run.text
  | tooWide n => integerString n ++ " does not fit in a JSON integer"
  | notFinite x => String.ofList x.text ++ " has no JSON representation"
  | keyNotText found => "object keys must be strings, got " ++ found
  | notJson found => found ++ " is not a JSON value"

/-- Whether a value of another type would be needed, rather than another value. -/
def concernsType : DocumentFault → Bool
  | keyNotText _ => true
  | notJson _ => true
  | _ => false

end DocumentFault

namespace Fault

/-- The wording of a fault in a field. -/
def text : Fault → String
  | mismatch wanted found => "expected " ++ wanted.description ++ ", got " ++ found
  | outside n greatest =>
    integerString n ++ " is outside the range 0.." ++ integerString greatest
  | unknownAction name => "unknown fake key action: " ++ name.quotedString
  | document cause => cause.text

/-- Whether a value of another type would be needed, rather than another value. -/
def concernsType : Fault → Bool
  | mismatch _ _ => true
  | document cause => cause.concernsType
  | _ => false

end Fault

namespace InvalidField

/-- The fault, after the name of the field. -/
def text (e : InvalidField) : String :=
  e.tag ++ "." ++ e.field ++ ": " ++ e.fault.text

end InvalidField

namespace ReadError

/-- The wording of an error in a structure. -/
def text : ReadError → String
  | bodyMissing tag => tag ++ " requires a body"
  | notTagged label found => "expected a " ++ label ++ ", got " ++ found
  | keyCount label count =>
    "expected exactly one " ++ label ++ " variant key, got " ++ integerString count
  | tagNotText label found => label ++ " tag must be a string, got " ++ found
  | unknownTag label tag => "unknown " ++ label ++ " variant: " ++ tag.quotedString
  | bodyUnexpected tag => tag ++ " does not take a body"
  | bodyNotObject tag found => tag ++ " body must be an object, got " ++ found
  | notObject label found => "expected a " ++ label ++ " object, got " ++ found
  | statusMissing label => label ++ " is missing the " ++ quotedName statusKey ++ " field"
  | fieldMissing tag field => tag ++ " is missing required field " ++ quotedName field
  | invalid cause => cause.text

end ReadError

namespace BuildError

/-- Names joined by commas and a last "and". -/
def enumerate : List String → String
  | [] => ""
  | [a] => a
  | [a, b] => a ++ " and " ++ b
  | names => String.intercalate ", " names.dropLast ++ ", and " ++ names.getLastD ""

/-- The wording of an error in the fields given for a variant. -/
def text : BuildError → String
  | undeclared builder field =>
    builder ++ ".__init__() got an unexpected keyword argument '" ++ field ++ "'"
  | missing builder fields =>
    builder ++ ".__init__() missing " ++ integerString fields.length ++
      (if fields.length = 1 then " required positional argument: "
        else " required positional arguments: ") ++
      enumerate (fields.map quotedName)
  | invalid cause => cause.text

end BuildError

end KeyControl
