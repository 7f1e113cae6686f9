import KeyControl.Message.Family

/-!
# Requests

A request is one intent of a control client.  Every request except `authenticate` may carry the
token of a session.  `Request.variant` and `Request.ofVariant` relate requests to the variants of
the family `Requests`, which declares their tags, fields and error texts.
-/

namespace KeyControl

/-- What a control client may ask of the daemon. -/
inductive Request where
  /-- Exchange a secret for a session. -/
  | authenticate (token : String) (clientName : Option String)
  /-- Make a layer the current one. -/
  | changeLayer (new : String) (session : Option String)
  /-- Ask for the names of all layers. -/
  | requestLayerNames (session : Option String)
  /-- Ask for the name and the source of the current layer. -/
  | requestCurrentLayerInfo (session : Option String)
  /-- Ask for the name of the current layer. -/
  | requestCurrentLayerName (session : Option String)
  /-- Act on a virtual key. -/
  | actOnFakeKey (name : String) (action : Action) (session : Option String)
  /-- Move the pointer. -/
  | setMouse (x : UInt16) (y : UInt16) (session : Option String)
  /-- Load the current configuration again. -/
  | reload (session : Option String)
  /-- Load the next configuration. -/
  | reloadNext (session : Option String)
  /-- Load the previous configuration. -/
  | reloadPrev (session : Option String)
  /-- Load the configuration of an index. -/
  | reloadNum (index : UInt64) (session : Option String)
  /-- Load the configuration of a path. -/
  | reloadFile (path : String) (session : Option String)
deriving DecidableEq

/-- The tags of requests. -/
inductive RequestTag where
  | authenticate
  | changeLayer
  | requestLayerNames
  | requestCurrentLayerInfo
  | requestCurrentLayerName
  | actOnFakeKey
  | setMouse
  | reload
  | reloadNext
  | reloadPrev
  | reloadNum
  | reloadFile
deriving DecidableEq

/-- The field that carries the token of a session. -/
def sessionField : Field :=
  .optional "session_id" .text

namespace RequestTag

def all : List RequestTag :=
  [authenticate, changeLayer, requestLayerNames, requestCurrentLayerInfo, requestCurrentLayerName,
    actOnFakeKey, setMouse, reload, reloadNext, reloadPrev, reloadNum, reloadFile]

def name : RequestTag → String
  | authenticate => "Authenticate"
  | changeLayer => "ChangeLayer"
  | requestLayerNames => "RequestLayerNames"
  | requestCurrentLayerInfo => "RequestCurrentLayerInfo"
  | requestCurrentLayerName => "RequestCurrentLayerName"
  | actOnFakeKey => "ActOnFakeKey"
  | setMouse => "SetMouse"
  | reload => "Reload"
  | reloadNext => "ReloadNext"
  | reloadPrev => "ReloadPrev"
  | reloadNum => "ReloadNum"
  | reloadFile => "ReloadFile"

/-- The fields declared under a tag. -/
def fields : RequestTag → List Field
  | authenticate => [.required "token" .text, .optional "client_name" .text]
  | changeLayer => [.required "new" .text, sessionField]
  | requestLayerNames => [sessionField]
  | requestCurrentLayerInfo => [sessionField]
  | requestCurrentLayerName => [sessionField]
  | actOnFakeKey => [.required "name" .text, .required "action" .action, sessionField]
  | setMouse => [.required "x" .word16, .required "y" .word16, sessionField]
  | reload => [sessionField]
  | reloadNext => [sessionField]
  | reloadPrev => [sessionField]
  | reloadNum => [.required "index" .word64, sessionField]
  | reloadFile => [.required "path" .text, sessionField]

end RequestTag

/-- The family of requests. -/
def Requests : Family where
  label := "ClientMessage"
  Tag := RequestTag
  all := RequestTag.all
  name := RequestTag.name
  builder := RequestTag.name
  fields := RequestTag.fields

namespace Request

def variant : Request → Variant Requests
  | authenticate token clientName => ⟨.authenticate, (token, clientName, ())⟩
  | changeLayer new session => ⟨.changeLayer, (new, session, ())⟩
  | requestLayerNames session => ⟨.requestLayerNames, (session, ())⟩
  | requestCurrentLayerInfo session => ⟨.requestCurrentLayerInfo, (session, ())⟩
  | requestCurrentLayerName session => ⟨.requestCurrentLayerName, (session, ())⟩
  | actOnFakeKey name action session => ⟨.actOnFakeKey, (name, action, session, ())⟩
  | setMouse x y session => ⟨.setMouse, (x, y, session, ())⟩
  | reload session => ⟨.reload, (session, ())⟩
  | reloadNext session => ⟨.reloadNext, (session, ())⟩
  | reloadPrev session => ⟨.reloadPrev, (session, ())⟩
  | reloadNum index session => ⟨.reloadNum, (index, session, ())⟩
  | reloadFile path session => ⟨.reloadFile, (path, session, ())⟩

def ofVariant : Variant Requests → Request
  | ⟨.authenticate, (token, clientName, _)⟩ => authenticate token clientName
  | ⟨.changeLayer, (new, session, _)⟩ => changeLayer new session
  | ⟨.requestLayerNames, (session, _)⟩ => requestLayerNames session
  | ⟨.requestCurrentLayerInfo, (session, _)⟩ => requestCurrentLayerInfo session
  | ⟨.requestCurrentLayerName, (session, _)⟩ => requestCurrentLayerName session
  | ⟨.actOnFakeKey, (name, action, session, _)⟩ => actOnFakeKey name action session
  | ⟨.setMouse, (x, y, session, _)⟩ => setMouse x y session
  | ⟨.reload, (session, _)⟩ => reload session
  | ⟨.reloadNext, (session, _)⟩ => reloadNext session
  | ⟨.reloadPrev, (session, _)⟩ => reloadPrev session
  | ⟨.reloadNum, (index, session, _)⟩ => reloadNum index session
  | ⟨.reloadFile, (path, session, _)⟩ => reloadFile path session

@[simp] theorem ofVariant_variant (r : Request) : ofVariant r.variant = r := by
  cases r <;> rfl

@[simp] theorem variant_ofVariant (v : Variant Requests) : (ofVariant v).variant = v := by
  obtain ⟨tag, record⟩ := v
  cases tag <;> rfl

end Request

end KeyControl
