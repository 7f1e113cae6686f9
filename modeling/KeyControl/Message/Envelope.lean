import KeyControl.Message.Basic

/-!
# The session envelope

Every request but `authenticate` has a place for the token of a session.  `Request.session?` reads
it, `Request.withSession` replaces it, and the two obey the laws of a field: what is put in is read
back, the last one put in stays, and putting in what is there changes nothing.  `Parcel.stamp` is
the same for anything that may be handed over, with a token that is still to be checked.
-/

namespace KeyControl

namespace Request

/-- Whether a request is one that a session may be demanded for. -/
def gated : Request → Bool
  | authenticate _ _ => false
  | _ => true

/-- The token that a request carries. -/
def session? : Request → Option String
  | authenticate _ _ => none
  | changeLayer _ s => s
  | requestLayerNames s => s
  | requestCurrentLayerInfo s => s
  | requestCurrentLayerName s => s
  | actOnFakeKey _ _ s => s
  | setMouse _ _ s => s
  | reload s => s
  | reloadNext s => s
  | reloadPrev s => s
  | reloadNum _ s => s
  | reloadFile _ s => s

/-- The request with another token, or with none. -/
def withSession (s : Option String) : Request → Request
  | authenticate token clientName => authenticate token clientName
  | changeLayer new _ => changeLayer new s
  | requestLayerNames _ => requestLayerNames s
  | requestCurrentLayerInfo _ => requestCurrentLayerInfo s
  | requestCurrentLayerName _ => requestCurrentLayerName s
  | actOnFakeKey name action _ => actOnFakeKey name action s
  | setMouse x y _ => setMouse x y s
  | reload _ => reload s
  | reloadNext _ => reloadNext s
  | reloadPrev _ => reloadPrev s
  | reloadNum index _ => reloadNum index s
  | reloadFile path _ => reloadFile path s

theorem session?_withSession {r : Request} (h : r.gated = true) (s : Option String) :
    (r.withSession s).session? = s := by
  cases r <;> first | rfl | simp [gated] at h

@[simp] theorem withSession_withSession (r : Request) (s t : Option String) :
    (r.withSession s).withSession t = r.withSession t := by
  cases r <;> rfl

@[simp] theorem withSession_session? (r : Request) : r.withSession r.session? = r := by
  cases r <;> rfl

@[simp] theorem gated_withSession (r : Request) (s : Option String) :
    (r.withSession s).gated = r.gated := by
  cases r <;> rfl

end Request

namespace Notice

/-- Whether a notice tells the client to authenticate. -/
def refusesSession : Notice → Bool
  | authResult success _ _ => ! success
  | authRequired => true
  | sessionExpired => true
  | _ => false

end Notice

namespace Message

def refusesSession : Message → Bool
  | notice n => n.refusesSession
  | _ => false

end Message

/-- What becomes of a parcel that is to carry a token. -/
inductive Stamped where
  /-- It has no place for one and stays the very object it is. -/
  | untouched
  /-- A new request carries the token. -/
  | fresh (r : Request)
deriving DecidableEq

namespace Parcel

def gated : Parcel → Bool
  | message (.request r) => r.gated
  | _ => false

def session? : Parcel → Option String
  | message (.request r) => r.session?
  | _ => none

def refusesSession : Parcel → Bool
  | message m => m.refusesSession
  | _ => false

/-- Put a token, still unchecked, into a parcel; null takes the token out. -/
def stamp (p : Parcel) (token : Datum) : Except InvalidField Stamped :=
  match p with
  | message (.request r) =>
    if r.gated then
      match sessionField.check token with
      | .ok s => .ok (.fresh (r.withSession s))
      | .error fault => .error ⟨r.variant.tag.name, sessionField.name, fault⟩
    else .ok .untouched
  | _ => .ok .untouched

end Parcel

namespace Stamped

/-- The parcel that is there after stamping. -/
def parcel (s : Stamped) (p : Parcel) : Parcel :=
  match s with
  | untouched => p
  | fresh r => .message (.request r)

/-- Whether the very same object is there after stamping. -/
def isUntouched : Stamped → Bool
  | untouched => true
  | fresh _ => false

end Stamped

end KeyControl
