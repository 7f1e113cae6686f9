import KeyControl.Proofs.Daemon.Replies

/-!
# What a daemon asks of its credential store

Of all the calls that a daemon makes, `Journal.asked` keeps those of the credential store.  An
attempt to authenticate offers the token and the name of the client as they stand in the request,
and what the store issues is what is granted (`Daemon.dispatch_of_issued`).  Any other request with
a session makes a strict daemon ask for that session, once, and nothing that follows asks for more
(`Daemon.asked_dispatch_of_session`).  The daemon at the other end of a socket makes the calls that
it makes when the request is dispatched (`Daemon.calls_peer_request`).
-/

namespace KeyControl

/-! ## Calls of the credential store -/

/-- Whether a call is one of the credential store. -/
def Call.asksStore : Call → Bool
  | authenticate _ _ => true
  | check _ => true
  | _ => false

namespace Journal

/-- The calls of the credential store in a journal, oldest first. -/
def asked (j : Journal) : List Call :=
  (j.filter Call.asksStore).reverse

theorem asked_append (calls j : Journal) : asked (calls ++ j) = j.asked ++ calls.asked := by
  rw [asked, List.filter_append, List.reverse_append, asked, asked]

theorem asked_cons {call : Call} (h : call.asksStore = true) (j : Journal) :
    asked (call :: j) = j.asked ++ [call] := by
  rw [asked, List.filter_cons_of_pos h, List.reverse_cons, asked]

theorem asked_cons_of_not {call : Call} (h : call.asksStore = false) (j : Journal) :
    asked (call :: j) = j.asked := by
  rw [asked, List.filter_cons_of_neg (by rw [h]; exact Bool.false_ne_true), asked]

end Journal

namespace Daemon

variable {σ : Type}

/-! ## Requests -/

theorem asked_act (handler : Option (Handler σ)) (p : Parcel) (desk : Desk σ) :
    (act handler p desk).2.journal.asked = desk.journal.asked := by
  cases handler with
  | none => rfl
  | some handler => exact Journal.asked_cons_of_not rfl _

/-- What is asked for a request is asked at the gate. -/
theorem asked_dispatch_of_gated (d : Daemon σ) {r : Request} (hr : r.gated = true)
    (desk : Desk σ) :
    (d.dispatch (.message (.request r)) desk).2.journal.asked =
      (gate d.policy (.message (.request r)) desk).2.journal.asked := by
  rw [dispatch_of_gated desk d hr]
  rcases gate d.policy (.message (.request r)) desk with ⟨⟨e⟩ | ⟨_ | refusal⟩, seen⟩
  · rfl
  · exact asked_act d.handler _ seen
  · rfl

section Strict

variable (store : Credentials σ) (handler : Option (Handler σ)) (desk : Desk σ)

theorem journal_gate_of_session {r : Request} {s : String} (hs : r.session? = some s) :
    (gate (.strict store) (.message (.request r)) desk).2.journal = .check s :: desk.journal := by
  have hsession : (Parcel.message (.request r)).session? = some s := hs
  rw [gate]
  dsimp only
  rw [hsession]
  dsimp only
  rcases store.check s desk.state with ⟨incident | ⟨_ | _ | _⟩, state⟩ <;> rfl

/-- **A request with a session makes a strict daemon ask for that session**, whatever comes of
it. -/
theorem asked_dispatch_of_session {r : Request} {s : String} (hr : r.gated = true)
    (hs : r.session? = some s) :
    (dispatch ⟨.strict store, handler⟩ (.message (.request r)) desk).2.journal.asked =
      desk.journal.asked ++ [.check s] := by
  rw [asked_dispatch_of_gated _ hr, journal_gate_of_session store desk hs, Journal.asked_cons rfl]

/-- **What the store issues is what is granted.** -/
theorem dispatch_of_issued {token session : String} {clientName : Option String} {expiry : UInt64}
    {state : σ} (h : store.authenticate token clientName desk.state =
      (.ok (some (.text (Text.ofString session), .int expiry.toNat)), state)) :
    dispatch ⟨.strict store, handler⟩ (.message (.request (.authenticate token clientName))) desk =
      (.ok [.message (.notice (.authResult true (some session) (some expiry)))],
        ⟨state, .authenticate token clientName :: desk.journal⟩) := by
  rw [dispatch, Policy.store?, grant, h]
  dsimp only
  rw [Notice.granted?_of_text]

end Strict

/-! ## The other side of a socket -/

/-- **For the frame of a request, the calls are those of dispatching it.** -/
theorem calls_peer_request (d : Daemon σ) (r : Request) (state : σ) :
    (d.peer ((Message.request r).payload ++ [newline]) state).calls =
      (d.dispatch (.message (.request r)) ⟨state, []⟩).2.journal := by
  rw [peer_request]
  rcases d.dispatch (.message (.request r)) ⟨state, []⟩ with ⟨⟨e⟩ | ⟨replies⟩, desk⟩
  · rfl
  · dsimp only
    cases frameAll replies <;> rfl

end Daemon

end KeyControl
