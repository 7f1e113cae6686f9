import KeyControl.Proofs.Daemon.Replies
import KeyControl.Proofs.Wire.Families

/-!
# What a daemon makes of failures

Two kinds of failures are meant to stay inside the protocol: a payload that is no message, which is
reported as undecodable, and an error of whoever acts on a request, which is answered with an
acknowledgement that carries its text.  Both do, except where the text in question holds lone
surrogates, which have no UTF-8 form.

Text with surrogates cannot be loaded, so decoding it fails before anything is read
(`Payload.undecodable_iff`).  And no acknowledgement carries such text, so the answer to the error
cannot be built and dispatching the request fails itself, after the call was made
(`Daemon.dispatch_of_raised`).
-/

namespace KeyControl

/-! ## Payloads -/

namespace Daemon

variable {σ : Type} (d : Daemon σ) (desk : Desk σ) {p : Payload}

theorem handle_of_decode {r : Request} (h : p.decode .requests = .ok (.request r)) :
    d.handle p desk = d.dispatch (.message (.request r)) desk := by
  rw [handle, h]

theorem handle_of_decode_error {e : PayloadError} (h : p.decode .requests = .error e) :
    d.handle p desk = (.error (.ofPayloadError e), desk) := by
  rw [handle, h]

end Daemon

namespace Payload

/-- **Decoding ends with a message of an expected family, or finds the payload undecodable, exactly
if the payload holds no surrogates.**  The same goes for a daemon that is handed the payload: it
dispatches the request, or reports the payload as undecodable and is left as it was.  A payload with
surrogates fails for these in every reading, and for the daemon. -/
theorem undecodable_iff {σ : Type} (d : Daemon σ) (desk : Desk σ) (p : Payload) :
    (∀ r : Reading, ((∃ m, p.decode r = .ok m ∧ m.family ∈ r.families) ∨
      ∃ cause, p.decode r = .error (.undecodable cause)) ↔ p.surrogates? = none) ∧
    (((∃ r, p.decode .requests = .ok (.request r) ∧
        d.handle p desk = d.dispatch (.message (.request r)) desk) ∨
      ∃ cause, d.handle p desk = (.error (.undecodable cause), desk)) ↔ p.surrogates? = none) ∧
    ∀ run, p.surrogates? = some run →
      (∀ r, p.decode r = .error (.surrogates run)) ∧
        d.handle p desk = (.error (.surrogates run), desk) := by
  have hdecode : ∀ run, p.surrogates? = some run → ∀ r, p.decode r = .error (.surrogates run) :=
    fun run h r => decode_of_surrogates h r
  have hhandle : ∀ run, p.surrogates? = some run →
      d.handle p desk = (.error (.surrogates run), desk) :=
    fun run h => d.handle_of_decode_error desk (hdecode run h .requests)
  refine ⟨fun r => ⟨fun h => ?_, fun hp => ?_⟩, ⟨fun h => ?_, fun hp => ?_⟩, fun run h =>
    ⟨hdecode run h, hhandle run h⟩⟩
  · cases hp : p.surrogates? with
    | none => rfl
    | some run =>
      rw [hdecode run hp] at h
      rcases h with ⟨_, h, -⟩ | ⟨_, h⟩ <;> cases h
  · cases hr : p.decode r with
    | ok m => exact .inl ⟨m, rfl, (decode_eq_ok_iff.1 hr).1⟩
    | error e =>
      obtain ⟨cause, rfl⟩ := undecodable_of_decode hp hr
      exact .inr ⟨cause, rfl⟩
  · cases hp : p.surrogates? with
    | none => rfl
    | some run =>
      rw [hdecode run hp, hhandle run hp] at h
      rcases h with ⟨_, h, -⟩ | ⟨_, h⟩ <;> cases h
  · cases hr : p.decode .requests with
    | ok m =>
      obtain ⟨r, rfl⟩ := decode_requests hr
      exact .inl ⟨r, rfl, d.handle_of_decode desk hr⟩
    | error e =>
      obtain ⟨cause, rfl⟩ := undecodable_of_decode hp hr
      exact .inr ⟨cause, d.handle_of_decode_error desk hr⟩

/-- Text of one surrogate is neither a message nor undecodable, in any reading. -/
theorem decode_lone_surrogate :
    let p := Payload.text [.surrogate 0]
    (∀ r : Reading, p.decode r = .error (.surrogates ⟨0, 0, 0⟩)) ∧
      ¬ ∀ r : Reading, (∃ m, p.decode r = .ok m ∧ m.family ∈ r.families) ∨
        ∃ cause, p.decode r = .error (.undecodable cause) := by
  intro p
  have hp : ∀ r : Reading, p.decode r = .error (.surrogates ⟨0, 0, 0⟩) := fun _ => rfl
  refine ⟨hp, fun h => ?_⟩
  rcases h .requests with ⟨m, hm, -⟩ | ⟨cause, hcause⟩
  · cases (hp .requests).symm.trans hm
  · cases (hp .requests).symm.trans hcause

end Payload

/-! ## Errors of whoever acts on requests -/

/-- A policy lets a request pass, and leads from one desk to another: a lenient policy asks for
nothing, and a strict one for the state of the session, which is valid. -/
inductive Policy.LetsPass {σ : Type} (r : Request) (desk : Desk σ) : Policy σ → Desk σ → Prop where
  | lenient (store : Option (Credentials σ)) : LetsPass r desk (.lenient store) desk
  | strict {store : Credentials σ} {session : String} {state : σ}
    (hsession : r.session? = some session)
    (hcheck : store.check session desk.state = (.ok .valid, state)) :
    LetsPass r desk (.strict store) ⟨state, .check session :: desk.journal⟩

namespace Daemon

variable {σ : Type} {r : Request} {desk seen : Desk σ}

/-- **The gate lets a request pass exactly if the policy does.** -/
theorem gate_eq_none_iff {policy : Policy σ} :
    gate policy (.message (.request r)) desk = (.ok none, seen) ↔
      policy.LetsPass r desk seen := by
  constructor
  · intro h
    cases policy with
    | lenient store =>
      cases h
      exact .lenient store
    | strict store =>
      rw [gate] at h
      dsimp only at h
      split at h
      · cases h
      · next session hsession =>
        split at h
        · cases h
        · next state hcheck =>
          cases h
          exact .strict hsession hcheck
        · cases h
        · cases h
  · intro h
    cases h with
    | lenient store => rfl
    | @strict store session state hsession hcheck =>
      have hparcel : (Parcel.message (.request r)).session? = some session := hsession
      rw [gate]
      dsimp only
      rw [hparcel]
      dsimp only
      rw [hcheck]

theorem dispatch_of_letsPass {d : Daemon σ} (hr : r.gated = true)
    (hpass : d.policy.LetsPass r desk seen) :
    d.dispatch (.message (.request r)) desk = act d.handler (.message (.request r)) seen := by
  rw [dispatch_of_gated desk d hr, gate_eq_none_iff.2 hpass]

end Daemon

theorem Ack.failure?_ofString (msg : String) : failure? (Text.ofString msg) = .ok (error msg) := by
  have hcheck : Acks.check .error (.text (Text.ofString msg), ()) = .ok (error msg).variant :=
    lawful_acks.check_record (error msg).variant
  rw [failure?, hcheck]
  rfl

theorem Ack.failure?_of_surrogates {text : Text} {run : SurrogateRun}
    (h : text.surrogates? = some run) :
    failure? text = .error ⟨"Error", "msg", .document (.surrogates run)⟩ := by
  have hkind : Kind.check .text (.text text) = .error (.document (.surrogates run)) := by
    show Kind.checkText (.text text) = _
    rw [Kind.checkText, Text.toString?, h]
  have hcheck : Acks.check .error (.text text, ()) =
      .error ⟨"Error", "msg", .document (.surrogates run)⟩ :=
    Family.check_of_error (Record.check_of_error (f := .required "msg" .text) hkind)
  rw [failure?, hcheck]

namespace Daemon

variable {σ : Type} {d : Daemon σ} {handler : Handler σ} {r : Request} {desk seen : Desk σ}
  {text : Text} {state : σ}

/-- The answer to an error of whoever acts on requests is an acknowledgement with its text, if one
can be built. -/
theorem dispatch_eq_of_raised (hhandler : d.handler = some handler) (hr : r.gated = true)
    (hpass : d.policy.LetsPass r desk seen)
    (hraised : handler (.message (.request r)) seen.state = (.raised text, state)) :
    d.dispatch (.message (.request r)) desk =
      (match Ack.failure? text with
        | .ok a => .ok [.message (.ack a)]
        | .error cause => .error (.misbuilt (.invalid cause)),
      ⟨state, .handle (.message (.request r)) :: seen.journal⟩) := by
  rw [dispatch_of_letsPass hr hpass, hhandler, act]
  dsimp only
  rw [hraised]
  rfl

/-- **An error of whoever acts on requests is answered with its text exactly if the text holds no
surrogates.**  Take any daemon and any request but an attempt to authenticate that the policy lets
pass, whatever it is that whoever acts on requests does with it, so long as that ends in an error.
If the text of the error spells a string, the only reply is an acknowledgement with that string,
which can be encoded and is read back by the client.  If it holds surrogates, dispatching fails as
well. -/
theorem dispatch_of_raised (hhandler : d.handler = some handler) (hr : r.gated = true)
    (hpass : d.policy.LetsPass r desk seen)
    (hraised : handler (.message (.request r)) seen.state = (.raised text, state)) :
    ((∃ msg bs, text = Text.ofString msg ∧
      (d.dispatch (.message (.request r)) desk).1 = .ok [.message (.ack (.error msg))] ∧
      frameAll [.message (.ack (.error msg))] = .ok bs ∧
      (Payload.octets bs).decode .replies = .ok (.ack (.error msg))) ↔ text.surrogates? = none) ∧
    (∀ run, text.surrogates? = some run →
      (d.dispatch (.message (.request r)) desk).1 =
        .error (.misbuilt (.invalid ⟨"Error", "msg", .document (.surrogates run)⟩))) ∧
    (d.dispatch (.message (.request r)) desk).2 =
      ⟨state, .handle (.message (.request r)) :: seen.journal⟩ := by
  have hdispatch := dispatch_eq_of_raised hhandler hr hpass hraised
  rw [hdispatch]
  refine ⟨⟨?_, fun h => ?_⟩, fun run h => ?_, rfl⟩
  · rintro ⟨msg, -, rfl, -⟩
    exact Text.surrogates?_ofChars _
  · obtain ⟨msg, rfl⟩ : ∃ msg, text = Text.ofString msg := by
      refine ⟨String.ofList text.chars, Text.toString?_eq_ok_iff.1 ?_⟩
      rw [Text.toString?, h]
    obtain ⟨frame, hframe, hread⟩ := (Message.ack (.error msg)).decode_frame
    refine ⟨msg, frame ++ [], rfl, ?_, ?_, ?_⟩
    · dsimp only
      rw [Ack.failure?_ofString]
    · rw [frameAll, hframe]
      rfl
    · rw [List.append_nil]
      exact hread .replies List.mem_cons_self
  · dsimp only
    rw [Ack.failure?_of_surrogates h]

/-- A daemon over a state of no interest whose handler always fails with a text. -/
def failing (policy : Policy Unit) (text : Text) : Daemon Unit where
  policy := policy
  handler := some fun _ state => (.raised text, state)

/-- A request with a valid session is answered with the text of the error. -/
theorem dispatch_of_raised_checked :
    let store : Credentials Unit :=
      ⟨fun _ _ state => (.ok none, state), fun _ state => (.ok .valid, state)⟩
    let d := failing (.strict store) (Text.ofString "no such layer")
    ∃ msg bs, Text.ofString "no such layer" = Text.ofString msg ∧
      (d.dispatch (.message (.request (.reload (some "s")))) ⟨(), []⟩).1 =
        .ok [.message (.ack (.error msg))] ∧
      frameAll [.message (.ack (.error msg))] = .ok bs ∧
      (Payload.octets bs).decode .replies = .ok (.ack (.error msg)) := by
  intro store d
  have hpass : d.policy.LetsPass (.reload (some "s")) ⟨(), []⟩ ⟨(), [.check "s"]⟩ := .strict rfl rfl
  exact (dispatch_of_raised rfl rfl hpass rfl).1.2 (Text.surrogates?_ofChars _)

/-- An error whose text is one surrogate makes dispatching fail, where nothing but an
acknowledgement should come of it. -/
theorem dispatch_of_raised_lone_surrogate :
    let d := failing (.lenient none) [.surrogate 0]
    (d.dispatch (.message (.request (.reload none))) ⟨(), []⟩).1 =
        .error (.misbuilt (.invalid ⟨"Error", "msg", .document (.surrogates ⟨0, 0, 0⟩)⟩)) ∧
      ¬ ∃ a, (d.dispatch (.message (.request (.reload none))) ⟨(), []⟩).1 =
        .ok [.message (.ack a)] := by
  intro d
  have hdispatch : (d.dispatch (.message (.request (.reload none))) ⟨(), []⟩).1 =
      .error (.misbuilt (.invalid ⟨"Error", "msg", .document (.surrogates ⟨0, 0, 0⟩)⟩)) := rfl
  refine ⟨hdispatch, ?_⟩
  rintro ⟨a, ha⟩
  cases hdispatch.symm.trans ha

end Daemon

end KeyControl
