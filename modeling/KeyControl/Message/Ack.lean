import KeyControl.Message.Family

/-!
# Acknowledgements

The direct reply to a request that has nothing to report: done, or failed with a text.
-/

namespace KeyControl

/-- The acknowledgement of a request. -/
inductive Ack where
  /-- The request was carried out. -/
  | ok
  /-- The request failed. -/
  | error (msg : String)
deriving DecidableEq

/-- The tags of acknowledgements. -/
inductive AckTag where
  | ok
  | error
deriving DecidableEq

namespace AckTag

def all : List AckTag :=
  [ok, error]

def name : AckTag → String
  | ok => "Ok"
  | error => "Error"

def builder : AckTag → String
  | ok => "ResponseOk"
  | error => "ResponseError"

def fields : AckTag → List Field
  | ok => []
  | error => [.required "msg" .text]

end AckTag

/-- The family of acknowledgements. -/
def Acks : Family where
  label := "ServerResponse"
  Tag := AckTag
  all := AckTag.all
  name := AckTag.name
  builder := AckTag.builder
  fields := AckTag.fields

namespace Ack

def variant : Ack → Variant Acks
  | ok => ⟨.ok, ()⟩
  | error msg => ⟨.error, (msg, ())⟩

def ofVariant : Variant Acks → Ack
  | ⟨.ok, _⟩ => ok
  | ⟨.error, (msg, _)⟩ => error msg

@[simp] theorem ofVariant_variant (a : Ack) : ofVariant a.variant = a := by
  cases a <;> rfl

@[simp] theorem variant_ofVariant (v : Variant Acks) : (ofVariant v).variant = v := by
  obtain ⟨tag, record⟩ := v
  cases tag <;> rfl

/-- The acknowledgement of a failure with the text given, which has to be free of surrogates. -/
def failure? (msg : Text) : Except InvalidField Ack :=
  match Acks.check .error (.text msg, ()) with
  | .ok v => .ok (ofVariant v)
  | .error cause => .error cause

end Ack

end KeyControl
