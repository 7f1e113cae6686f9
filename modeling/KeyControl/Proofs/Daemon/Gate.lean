import KeyControl.Daemon.Tables
import KeyControl.Proofs.Wire.Decoding
import Mathlib.Data.List.Basic

/-!
# The session gate

A daemon whose policy is strict hands a request to its handler only with a session that the
credential store holds valid at that very moment.  This is said of runs: lists of steps, each of
which is a payload that comes in, a request that is dispatched, or a change of the state of the
credential store and the handler from outside.  `Daemon.trace` lists the transitions of a run, and
`Daemon.Gated` says of a transition which calls were made and how a refused request was answered.

Every transition of a run is a transition of the daemon (`Daemon.isOf_of_mem_trace`), and those of a
strict daemon are gated (`Daemon.Transition.IsOf.gated`).  By induction over the run, the requests
that reached the handler are exactly those that were admitted, each once and in order
(`Daemon.flatMap_handled`).  `Daemon.trace_gated` puts both together.
-/

namespace KeyControl

namespace Journal

theorem since_append (calls : List Call) (j : Journal) :
    since j.length (calls ++ j) = calls.reverse := by
  rw [since, List.length_append, Nat.add_sub_cancel, List.take_left]

theorem since_self (j : Journal) : since j.length j = [] :=
  since_append [] j

end Journal

namespace Daemon

variable {σ : Type}

/-! ## Runs -/

/-- How a request is answered. -/
abbrev Answered := Except Failure (List Parcel)

/-- One step of a run. -/
inductive Step (σ : Type) where
  /-- A payload comes in. -/
  | handle (bs : Bytes)
  /-- A request is dispatched that was decoded elsewhere. -/
  | dispatch (r : Request)
  /-- The state that the daemon calls on changes. -/
  | change (f : σ → σ)

namespace Step

/-- The request of a step: none, if the payload cannot be decoded or nothing comes in. -/
def request? : Step σ → Option Request
  | handle bs =>
    match (Payload.octets bs).decode .requests with
    | .ok (.request r) => some r
    | _ => none
  | dispatch r => some r
  | change _ => none

def run (d : Daemon σ) : Step σ → Desk σ → Option Answered × Desk σ
  | handle bs, desk => (some (d.handle (.octets bs) desk).1, (d.handle (.octets bs) desk).2)
  | dispatch r, desk =>
    (some (d.dispatch (.message (.request r)) desk).1,
      (d.dispatch (.message (.request r)) desk).2)
  | change f, desk => (none, ⟨f desk.state, desk.journal⟩)

/-- The request that the gate lets through at a step, in the state before it. -/
def admitted? (store : Credentials σ) (step : Step σ) (state : σ) : Option Request :=
  step.request?.filter fun r =>
    r.gated && r.session?.any fun s => decide ((store.check s state).1 = .ok .valid)

end Step

/-- A step with the desk before it, the answer if there is one, and the desk after it. -/
structure Transition (σ : Type) where
  step : Step σ
  before : Desk σ
  answer : Option Answered
  after : Desk σ

namespace Transition

/-- The calls made in a transition, oldest first. -/
def calls (t : Transition σ) : List Call :=
  Journal.since t.before.journal.length t.after.journal

/-- The requests handed to the handler in a transition, in order. -/
def handled (t : Transition σ) : List Parcel :=
  t.calls.filterMap fun
    | .handle p => some p
    | _ => none

end Transition

def trace (d : Daemon σ) : List (Step σ) → Desk σ → List (Transition σ)
  | [], _ => []
  | step :: steps, desk =>
    ⟨step, desk, (step.run d desk).1, (step.run d desk).2⟩ :: d.trace steps (step.run d desk).2

/-! ## What a strict daemon does with a request -/

/-- What the gate makes of what a credential store says of a session: nothing, if the session is
valid, a refusal, if it is not, and a failure, if the store fails. -/
def verdict : Except Incident SessionState → Except Failure (Option Notice)
  | .error incident => .error (.incident incident)
  | .ok .valid => .ok none
  | .ok .expired => .ok (some .sessionExpired)
  | .ok .unknown => .ok (some .authRequired)

section Strict

variable (store : Credentials σ) (handler : Handler σ) (desk : Desk σ)

theorem journal_dispatch_authenticate (token : String) (clientName : Option String) :
    (dispatch ⟨.strict store, some handler⟩
      (.message (.request (.authenticate token clientName))) desk).2.journal =
        .authenticate token clientName :: desk.journal := by
  rw [dispatch, Policy.store?, grant]
  rcases store.authenticate token clientName desk.state with ⟨result, state⟩
  cases result with
  | error incident => rfl
  | ok issued =>
    cases issued with
    | none => rfl
    | some pair =>
      obtain ⟨session, expiry⟩ := pair
      dsimp only
      cases Notice.granted? session expiry with
      | ok n => rfl
      | error e => rfl

theorem dispatch_of_gated (d : Daemon σ) {r : Request} (hr : r.gated = true) :
    d.dispatch (.message (.request r)) desk =
      match gate d.policy (.message (.request r)) desk with
      | (.error e, desk) => (.error e, desk)
      | (.ok (some refusal), desk) => (.ok [.message (.notice refusal)], desk)
      | (.ok none, desk) => act d.handler (.message (.request r)) desk := by
  cases r with
  | authenticate token clientName => cases hr
  | _ => rfl

theorem dispatch_sessionless {r : Request} (hr : r.gated = true) (hs : r.session? = none) :
    dispatch ⟨.strict store, some handler⟩ (.message (.request r)) desk =
      (.ok [.message (.notice .authRequired)], desk) := by
  have hsession : (Parcel.message (.request r)).session? = none := hs
  rw [dispatch_of_gated _ _ hr, gate]
  dsimp only
  rw [hsession]
  rfl

/-- A request with a session is decided by what the store says of that session. -/
theorem dispatch_of_session {r : Request} {s : String} (hr : r.gated = true)
    (hs : r.session? = some s) :
    dispatch ⟨.strict store, some handler⟩ (.message (.request r)) desk =
      let seen : Desk σ := ⟨(store.check s desk.state).2, .check s :: desk.journal⟩
      match verdict (store.check s desk.state).1 with
      | .error e => (.error e, seen)
      | .ok none => act (some handler) (.message (.request r)) seen
      | .ok (some refusal) => (.ok [.message (.notice refusal)], seen) := by
  have hsession : (Parcel.message (.request r)).session? = some s := hs
  rw [dispatch_of_gated _ _ hr, gate]
  dsimp only
  rw [hsession]
  dsimp only
  rcases store.check s desk.state with ⟨incident | ⟨_ | _ | _⟩, after⟩ <;> rfl

theorem desk_dispatch_of_valid {r : Request} {s : String} (hr : r.gated = true)
    (hs : r.session? = some s) (hcheck : (store.check s desk.state).1 = .ok .valid) :
    (dispatch ⟨.strict store, some handler⟩ (.message (.request r)) desk).2.journal =
      .handle (.message (.request r)) :: .check s :: desk.journal := by
  rw [dispatch_of_session store handler desk hr hs, hcheck]
  rfl

end Strict

/-! ## Gated transitions -/

/-- What a transition of a strict daemon is like. -/
structure Gated (store : Credentials σ) (t : Transition σ) : Prop where
  /-- The handler is called if and only if there is a request with a session that the store holds
  valid, and with that request. -/
  handle_iff : ∀ p, .handle p ∈ t.calls ↔ ∃ r s, t.step.request? = some r ∧ r.gated = true ∧
    r.session? = some s ∧ (store.check s t.before.state).1 = .ok .valid ∧ p = .message (.request r)
  /-- A request with a valid session is one check and one call of the handler. -/
  valid : ∀ r s, t.step.request? = some r → r.gated = true → r.session? = some s →
    (store.check s t.before.state).1 = .ok .valid →
    t.calls = [.check s, .handle (.message (.request r))]
  /-- A payload that cannot be decoded is an error and changes nothing. -/
  undecodable : ∀ bs e, t.step = .handle bs → (Payload.octets bs).decode .requests = .error e →
    (∃ cause, e = .undecodable cause ∧ t.answer = some (.error (.undecodable cause))) ∧
      t.after = t.before ∧ t.calls = []
  /-- A request without a session is refused, and nothing is called. -/
  sessionless : ∀ r, t.step.request? = some r → r.gated = true → r.session? = none →
    t.answer = some (.ok [.message (.notice .authRequired)]) ∧ t.after = t.before ∧ t.calls = []
  /-- A request with an expired session is refused after one check. -/
  expired : ∀ r s, t.step.request? = some r → r.gated = true → r.session? = some s →
    (store.check s t.before.state).1 = .ok .expired →
    t.answer = some (.ok [.message (.notice .sessionExpired)]) ∧ t.calls = [.check s]
  /-- A request with an unknown session is refused after one check. -/
  unknown : ∀ r s, t.step.request? = some r → r.gated = true → r.session? = some s →
    (store.check s t.before.state).1 = .ok .unknown →
    t.answer = some (.ok [.message (.notice .authRequired)]) ∧ t.calls = [.check s]
  /-- If the store fails to tell the state of a session, the transition fails after one check. -/
  failed : ∀ r s incident, t.step.request? = some r → r.gated = true → r.session? = some s →
    (store.check s t.before.state).1 = .error incident →
    t.answer = some (.error (.incident incident)) ∧ t.calls = [.check s]
  /-- An attempt to authenticate is one call of the store. -/
  authenticate : ∀ token clientName,
    t.step.request? = some (.authenticate token clientName) →
    t.calls = [.authenticate token clientName]

namespace Transition

variable {store : Credentials σ} {handler : Handler σ} {t : Transition σ}

/-- A transition is one of a daemon. -/
def IsOf (t : Transition σ) (d : Daemon σ) : Prop :=
  t.step.run d t.before = (t.answer, t.after)

theorem calls_of_after_eq (h : t.after = t.before) : t.calls = [] := by
  rw [calls, h]
  exact Journal.since_self _

theorem IsOf.dispatch {d : Daemon σ} (ht : t.IsOf d) {r : Request}
    (hr : t.step.request? = some r) :
    t.answer = some (d.dispatch (.message (.request r)) t.before).1 ∧
      t.after = (d.dispatch (.message (.request r)) t.before).2 := by
  obtain ⟨step, before, answer, after⟩ := t
  cases step with
  | handle bs =>
    rw [IsOf, Step.run, Prod.mk.injEq] at ht
    rw [Step.request?] at hr
    split at hr
    · next q hq =>
      cases hr
      rw [handle, hq] at ht
      exact ⟨ht.1.symm, ht.2.symm⟩
    · cases hr
  | dispatch q =>
    cases hr
    rw [IsOf, Step.run, Prod.mk.injEq] at ht
    exact ⟨ht.1.symm, ht.2.symm⟩
  | change f => cases hr

theorem IsOf.calls_eq {d : Daemon σ} (ht : t.IsOf d) {r : Request} (calls : List Call)
    (hr : t.step.request? = some r)
    (hcalls : (d.dispatch (.message (.request r)) t.before).2.journal =
      calls ++ t.before.journal) : t.calls = calls.reverse := by
  rw [Transition.calls, (ht.dispatch hr).2, hcalls, Journal.since_append]

/-- A step without a request changes nothing that the daemon calls on: it makes no calls. -/
theorem IsOf.calls_of_no_request {d : Daemon σ} (ht : t.IsOf d) (hr : t.step.request? = none) :
    t.calls = [] := by
  obtain ⟨step, before, answer, after⟩ := t
  cases step with
  | handle bs =>
    rw [IsOf, Step.run, Prod.mk.injEq, handle] at ht
    rw [Step.request?] at hr
    cases hdecode : (Payload.octets bs).decode .requests with
    | ok m =>
      obtain ⟨q, rfl⟩ := Payload.decode_requests hdecode
      rw [hdecode] at hr
      cases hr
    | error e =>
      rw [hdecode] at ht
      exact calls_of_after_eq ht.2.symm
  | dispatch q => cases hr
  | change f =>
    rw [IsOf, Step.run, Prod.mk.injEq] at ht
    rw [calls, ← ht.2]
    exact Journal.since_self _

section Strict

variable (ht : t.IsOf ⟨.strict store, some handler⟩) {r : Request} {s : String}

include ht

theorem IsOf.of_undecodable {bs : Bytes} {e : PayloadError} (hstep : t.step = .handle bs)
    (he : (Payload.octets bs).decode .requests = .error e) :
    (∃ cause, e = .undecodable cause ∧ t.answer = some (.error (.undecodable cause))) ∧
      t.after = t.before ∧ t.calls = [] := by
  obtain ⟨cause, rfl⟩ := Payload.undecodable_of_decode_octets he
  rw [IsOf, hstep, Step.run, handle, he, Prod.mk.injEq] at ht
  exact ⟨⟨cause, rfl, ht.1.symm⟩, ht.2.symm, calls_of_after_eq ht.2.symm⟩

theorem IsOf.calls_of_valid (hreq : t.step.request? = some r) (hr : r.gated = true)
    (hs : r.session? = some s) (hcheck : (store.check s t.before.state).1 = .ok .valid) :
    t.calls = [.check s, .handle (.message (.request r))] :=
  ht.calls_eq [.handle (.message (.request r)), .check s] hreq
    (desk_dispatch_of_valid store handler t.before hr hs hcheck)

theorem IsOf.of_sessionless (hreq : t.step.request? = some r) (hr : r.gated = true)
    (hs : r.session? = none) :
    t.answer = some (.ok [.message (.notice .authRequired)]) ∧ t.after = t.before ∧
      t.calls = [] := by
  obtain ⟨hanswer, hafter⟩ := ht.dispatch hreq
  rw [dispatch_sessionless store handler t.before hr hs] at hanswer hafter
  exact ⟨hanswer, hafter, calls_of_after_eq hafter⟩

/-- A request with a session that is not valid is answered with the verdict after one check. -/
theorem IsOf.of_not_valid (hreq : t.step.request? = some r) (hr : r.gated = true)
    (hs : r.session? = some s) {said : Except Incident SessionState}
    (hcheck : (store.check s t.before.state).1 = said) (hsaid : said ≠ .ok .valid) :
    t.answer = some ((verdict said).map fun refusal =>
      refusal.toList.map fun n => .message (.notice n)) ∧ t.calls = [.check s] := by
  have hdispatch := dispatch_of_session store handler t.before hr hs
  rw [hcheck] at hdispatch
  have hanswer := (ht.dispatch hreq).1
  rw [hdispatch] at hanswer
  rcases said with incident | ⟨_ | _ | _⟩
  · exact ⟨hanswer, ht.calls_eq [.check s] hreq (by rw [hdispatch]; rfl)⟩
  · exact absurd rfl hsaid
  · exact ⟨hanswer, ht.calls_eq [.check s] hreq (by rw [hdispatch]; rfl)⟩
  · exact ⟨hanswer, ht.calls_eq [.check s] hreq (by rw [hdispatch]; rfl)⟩

theorem IsOf.calls_of_authenticate {token : String} {clientName : Option String}
    (hreq : t.step.request? = some (.authenticate token clientName)) :
    t.calls = [.authenticate token clientName] :=
  ht.calls_eq [.authenticate token clientName] hreq
    (journal_dispatch_authenticate store handler t.before token clientName)

/-- **Whatever reached the handler has a valid session.** -/
theorem IsOf.exists_of_handle_mem_calls {p : Parcel} (hp : .handle p ∈ t.calls) :
    ∃ r s, t.step.request? = some r ∧ r.gated = true ∧ r.session? = some s ∧
      (store.check s t.before.state).1 = .ok .valid ∧ p = .message (.request r) := by
  -- Whichever way the gate goes, the calls are known in full.
  cases hreq : t.step.request? with
  | none =>
    rw [ht.calls_of_no_request hreq] at hp
    cases hp
  | some r =>
    cases hr : r.gated with
    | false =>
      obtain ⟨token, clientName, rfl⟩ : ∃ token clientName, r = .authenticate token clientName := by
        cases r with
        | authenticate token clientName => exact ⟨token, clientName, rfl⟩
        | _ => cases hr
      rw [ht.calls_of_authenticate hreq, List.mem_singleton] at hp
      cases hp
    | true =>
      cases hs : r.session? with
      | none =>
        rw [(ht.of_sessionless hreq hr hs).2.2] at hp
        cases hp
      | some s =>
        by_cases hcheck : (store.check s t.before.state).1 = .ok .valid
        · rw [ht.calls_of_valid hreq hr hs hcheck, List.mem_pair] at hp
          rcases hp with hp | hp
          · cases hp
          · cases hp
            exact ⟨r, s, rfl, hr, hs, hcheck, rfl⟩
        · rw [(ht.of_not_valid hreq hr hs rfl hcheck).2, List.mem_singleton] at hp
          cases hp

/-- **Every transition of a strict daemon is gated.** -/
theorem IsOf.gated : Gated store t where
  handle_iff p := by
    constructor
    · exact ht.exists_of_handle_mem_calls
    · rintro ⟨r, s, hreq, hr, hs, hcheck, rfl⟩
      rw [ht.calls_of_valid hreq hr hs hcheck]
      exact List.mem_cons_of_mem _ (List.mem_cons_self ..)
  valid _ _ := ht.calls_of_valid
  undecodable _ _ := ht.of_undecodable
  sessionless _ := ht.of_sessionless
  expired _ _ hreq hr hs hcheck := ht.of_not_valid hreq hr hs hcheck nofun
  unknown _ _ hreq hr hs hcheck := ht.of_not_valid hreq hr hs hcheck nofun
  failed _ _ _ hreq hr hs hcheck := ht.of_not_valid hreq hr hs hcheck nofun
  authenticate _ _ := ht.calls_of_authenticate

end Strict

end Transition

/-! ## Runs of a strict daemon -/

theorem isOf_of_mem_trace {d : Daemon σ} {steps : List (Step σ)} {desk : Desk σ} :
    ∀ t ∈ d.trace steps desk, t.IsOf d := by
  induction steps generalizing desk with
  | nil => exact fun _ ht => absurd ht List.not_mem_nil
  | cons step steps ih => exact List.forall_mem_cons.2 ⟨rfl, ih⟩

/-- A request is admitted at a step if and only if it comes with a session that is valid there. -/
theorem Step.admitted?_eq_some_iff {store : Credentials σ} {step : Step σ} {state : σ}
    {r : Request} :
    step.admitted? store state = some r ↔
      ∃ s, step.request? = some r ∧ r.gated = true ∧ r.session? = some s ∧
        (store.check s state).1 = .ok .valid := by
  rw [admitted?, Option.filter_eq_some_iff, Bool.and_eq_true]
  constructor
  · rintro ⟨hreq, hr, hany⟩
    obtain ⟨s, hs, hcheck⟩ := (Option.any_eq_true _ _).1 hany
    exact ⟨s, hreq, hr, hs, of_decide_eq_true hcheck⟩
  · rintro ⟨s, hreq, hr, hs, hcheck⟩
    exact ⟨hreq, hr, (Option.any_eq_true _ _).2 ⟨s, hs, decide_eq_true hcheck⟩⟩

/-- A gated transition hands to the handler the request that is admitted, and nothing else. -/
theorem Gated.handled_eq {store : Credentials σ} {t : Transition σ} (h : Gated store t) :
    t.handled =
      ((t.step.admitted? store t.before.state).map fun r => .message (.request r)).toList := by
  rw [Transition.handled]
  cases hadmitted : t.step.admitted? store t.before.state with
  | some r =>
    obtain ⟨s, hreq, hr, hs, hcheck⟩ := Step.admitted?_eq_some_iff.1 hadmitted
    rw [h.valid r s hreq hr hs hcheck]
    rfl
  | none =>
    refine List.filterMap_eq_nil_iff.2 fun call hcall => ?_
    split
    · next p =>
      obtain ⟨r, s, hreq, hr, hs, hcheck, -⟩ := (h.handle_iff p).1 hcall
      have hsome := Step.admitted?_eq_some_iff.2 ⟨s, hreq, hr, hs, hcheck⟩
      rw [hadmitted] at hsome
      cases hsome
    · rfl

theorem flatMap_handled {store : Credentials σ} {ts : List (Transition σ)}
    (h : ∀ t ∈ ts, Gated store t) :
    ts.flatMap Transition.handled =
      ts.filterMap fun t =>
        (t.step.admitted? store t.before.state).map fun r => .message (.request r) := by
  induction ts with
  | nil => rfl
  | cons t ts ih =>
    obtain ⟨ht, hts⟩ := List.forall_mem_cons.1 h
    rw [List.flatMap_cons, ht.handled_eq, ih hts, List.filterMap_cons]
    cases t.step.admitted? store t.before.state with
    | none => rfl
    | some r => rfl

/-- **A strict daemon admits nobody without a valid session.**  A daemon that demands sessions has a
credential store.  In every run, whatever the handler does and however the state changes between the
steps, every transition is gated by that store, and the requests handed to the handler are those
that are admitted, in order. -/
theorem trace_gated {store? : Option (Credentials σ)} {policy : Policy σ}
    (hpolicy : Policy.ofDemand store? true = .ok policy) (handler : Handler σ)
    (steps : List (Step σ)) (desk : Desk σ) :
    ∃ store, store? = some store ∧
      let run := trace ⟨policy, some handler⟩ steps desk
      (∀ t ∈ run, Gated store t) ∧
        run.flatMap Transition.handled =
          run.filterMap fun t =>
            (t.step.admitted? store t.before.state).map fun r => .message (.request r) := by
  cases store? with
  | none => cases hpolicy
  | some store =>
    cases hpolicy
    have hgated : ∀ t ∈ trace ⟨.strict store, some handler⟩ steps desk, Gated store t :=
      fun t ht => (isOf_of_mem_trace t ht).gated
    exact ⟨store, rfl, hgated, flatMap_handled hgated⟩

/-- A ledger admits a session as long as it is valid: of three requests with that session, one is
made before and one after the session expires, and one after it is valid again.  A request with the
empty session and one with none are refused. -/
theorem trace_gated_ledger :
    Policy.ofDemand (some Ledger.credentials) true = .ok (.strict Ledger.credentials) ∧
      (trace ⟨.strict Ledger.credentials, some (Reaction.handler [])⟩
        [.dispatch (.reload (some "s")),
          .change (Ledger.setSession (Text.ofString "s") .expired),
          .dispatch (.reloadNext (some "s")), .dispatch (.reload none),
          .dispatch (.reload (some "")),
          .change (Ledger.setSession (Text.ofString "s") .valid),
          .handle [], .dispatch (.reloadPrev (some "s"))]
        ⟨Ledger.empty.setSession (Text.ofString "s") .valid, []⟩).flatMap Transition.handled =
          [.message (.request (.reload (some "s"))),
            .message (.request (.reloadPrev (some "s")))] := by
  have hpolicy : Policy.ofDemand (some Ledger.credentials) true =
      .ok (.strict Ledger.credentials) := rfl
  obtain ⟨store, hstore, -, hrun⟩ :=
    trace_gated hpolicy (Reaction.handler [])
      [.dispatch (.reload (some "s")), .change (Ledger.setSession (Text.ofString "s") .expired),
        .dispatch (.reloadNext (some "s")), .dispatch (.reload none),
        .dispatch (.reload (some "")),
        .change (Ledger.setSession (Text.ofString "s") .valid),
        .handle [], .dispatch (.reloadPrev (some "s"))]
      ⟨Ledger.empty.setSession (Text.ofString "s") .valid, []⟩
  cases hstore
  exact ⟨hpolicy, hrun.trans (by rfl)⟩

end Daemon

end KeyControl
