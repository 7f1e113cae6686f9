import KeyControl.Message.Family

/-!
# Notices

A notice is a reply of the daemon or a push that nobody asked for.  `Notice.granted?` and
`Notice.denied` build the two outcomes of an attempt to authenticate: a grant always carries a
session and its expiry, a denial neither.
-/

namespace KeyControl

/-- What the daemon may tell a control client. -/
inductive Notice where
  /-- Another layer has become the current one. -/
  | layerChange (new : String)
  /-- The names of all layers. -/
  | layerNames (names : List String)
  /-- The name and the source of the current layer. -/
  | currentLayerInfo (name : String) (cfgText : String)
  /-- Another configuration has been loaded. -/
  | configFileReload (new : String)
  /-- The name of the current layer. -/
  | currentLayerName (name : String)
  /-- A document whose meaning is up to the daemon's configuration. -/
  | messagePush (message : Document)
  /-- Something went wrong. -/
  | error (msg : String)
  /-- The outcome of an attempt to authenticate. -/
  | authResult (success : Bool) (session : Option String) (expiry : Option UInt64)
  /-- The request needs a session. -/
  | authRequired
  /-- The session of the request has expired. -/
  | sessionExpired
deriving DecidableEq

/-- The tags of notices. -/
inductive NoticeTag where
  | layerChange
  | layerNames
  | currentLayerInfo
  | configFileReload
  | currentLayerName
  | messagePush
  | error
  | authResult
  | authRequired
  | sessionExpired
deriving DecidableEq

namespace NoticeTag

def all : List NoticeTag :=
  [layerChange, layerNames, currentLayerInfo, configFileReload, currentLayerName, messagePush,
    error, authResult, authRequired, sessionExpired]

def name : NoticeTag → String
  | layerChange => "LayerChange"
  | layerNames => "LayerNames"
  | currentLayerInfo => "CurrentLayerInfo"
  | configFileReload => "ConfigFileReload"
  | currentLayerName => "CurrentLayerName"
  | messagePush => "MessagePush"
  | error => "Error"
  | authResult => "AuthResult"
  | authRequired => "AuthRequired"
  | sessionExpired => "SessionExpired"

/-- What error texts call the variant where the fields given for it are not those it declares. -/
def builder : NoticeTag → String
  | error => "ServerError"
  | tag => tag.name

def fields : NoticeTag → List Field
  | layerChange => [.required "new" .text]
  | layerNames => [.required "names" .texts]
  | currentLayerInfo => [.required "name" .text, .required "cfg_text" .text]
  | configFileReload => [.required "new" .text]
  | currentLayerName => [.required "name" .text]
  | messagePush => [.required "message" .document]
  | error => [.required "msg" .text]
  | authResult =>
    [.required "success" .flag, .optional "session_id" .text,
      .optional "expires_in_seconds" .word64]
  | authRequired => []
  | sessionExpired => []

end NoticeTag

/-- The family of notices. -/
def Notices : Family where
  label := "ServerMessage"
  Tag := NoticeTag
  all := NoticeTag.all
  name := NoticeTag.name
  builder := NoticeTag.builder
  fields := NoticeTag.fields

namespace Notice

def variant : Notice → Variant Notices
  | layerChange new => ⟨.layerChange, (new, ())⟩
  | layerNames names => ⟨.layerNames, (names, ())⟩
  | currentLayerInfo name cfgText => ⟨.currentLayerInfo, (name, cfgText, ())⟩
  | configFileReload new => ⟨.configFileReload, (new, ())⟩
  | currentLayerName name => ⟨.currentLayerName, (name, ())⟩
  | messagePush message => ⟨.messagePush, (message, ())⟩
  | error msg => ⟨.error, (msg, ())⟩
  | authResult success session expiry => ⟨.authResult, (success, session, expiry, ())⟩
  | authRequired => ⟨.authRequired, ()⟩
  | sessionExpired => ⟨.sessionExpired, ()⟩

def ofVariant : Variant Notices → Notice
  | ⟨.layerChange, (new, _)⟩ => layerChange new
  | ⟨.layerNames, (names, _)⟩ => layerNames names
  | ⟨.currentLayerInfo, (name, cfgText, _)⟩ => currentLayerInfo name cfgText
  | ⟨.configFileReload, (new, _)⟩ => configFileReload new
  | ⟨.currentLayerName, (name, _)⟩ => currentLayerName name
  | ⟨.messagePush, (message, _)⟩ => messagePush message
  | ⟨.error, (msg, _)⟩ => error msg
  | ⟨.authResult, (success, session, expiry, _)⟩ => authResult success session expiry
  | ⟨.authRequired, _⟩ => authRequired
  | ⟨.sessionExpired, _⟩ => sessionExpired

@[simp] theorem ofVariant_variant (n : Notice) : ofVariant n.variant = n := by
  cases n <;> rfl

@[simp] theorem variant_ofVariant (v : Variant Notices) : (ofVariant v).variant = v := by
  obtain ⟨tag, record⟩ := v
  cases tag <;> rfl

/-- Why no grant can be built of a session and an expiry. -/
inductive GrantError where
  /-- One of the two is null. -/
  | hollow
  /-- One of the two does not do. -/
  | invalid (cause : InvalidField)
deriving DecidableEq

/-- The grant of a session with its expiry. -/
def granted? (session expiry : Datum) : Except GrantError Notice :=
  if session.isNull || expiry.isNull then .error .hollow
  else
    match Notices.check .authResult (.bool true, session, expiry, ()) with
    | .ok v => .ok (ofVariant v)
    | .error cause => .error (.invalid cause)

/-- The denial of a session. -/
def denied : Notice :=
  authResult false none none

end Notice

end KeyControl
