import KeyControl.Client.Joined

/-!
# A daemon leaves the socket alone

The calls that a daemon makes are those of the credential store and of whoever acts on requests.
None is a call of the socket that the requests come from, whatever is written to it
(`Daemon.keepsOff_peer`).  So the calls of a socket in the journal of a link are those that the link
itself has made.

A desk is *calm* as long as no call of the socket has been made.  Each step of answering a request
keeps the desk calm.
-/

namespace KeyControl

/-- Whether a call is one of the socket. -/
def Call.onSocket : Call → Bool
  | setTimeout _ => true
  | recv _ => true
  | sendAll _ => true
  | close => true
  | _ => false

/-- The other side makes no call of the socket. -/
def Peer.KeepsOff {π : Type} (answer : Peer π) : Prop :=
  ∀ bs state, ∀ c ∈ (answer bs state).calls, c.onSocket = false

namespace Daemon

variable {σ : Type}

/-- No call of the socket has been made. -/
def Calm (desk : Desk σ) : Prop :=
  ∀ c ∈ desk.journal, c.onSocket = false

variable {desk : Desk σ} (h : Calm desk)

include h

theorem calm_grant (store : Option (Credentials σ)) (token : String) (clientName : Option String) :
    Calm (grant store token clientName desk).2 := by
  cases store with
  | none => exact h
  | some store =>
    have hasked : ∀ c ∈ Call.authenticate token clientName :: desk.journal, c.onSocket = false :=
      List.forall_mem_cons.2 ⟨rfl, h⟩
    rw [grant]
    split
    · exact hasked
    · exact hasked
    · split <;> exact hasked

theorem calm_gate (policy : Policy σ) (p : Parcel) : Calm (gate policy p desk).2 := by
  cases policy with
  | lenient store => exact h
  | strict store =>
    rw [gate]
    dsimp only
    split
    · exact h
    · next session _ =>
      have hasked : ∀ c ∈ Call.check session :: desk.journal, c.onSocket = false :=
        List.forall_mem_cons.2 ⟨rfl, h⟩
      split <;> exact hasked

theorem calm_act (handler : Option (Handler σ)) (p : Parcel) : Calm (act handler p desk).2 := by
  cases handler with
  | none => exact h
  | some handler => exact List.forall_mem_cons.2 ⟨rfl, h⟩

theorem calm_dispatch (d : Daemon σ) (p : Parcel) : Calm (d.dispatch p desk).2 := by
  unfold dispatch
  split
  · next token clientName =>
    have hgrant := calm_grant h d.policy.store? token clientName
    generalize grant d.policy.store? token clientName desk = result at hgrant ⊢
    rcases result with ⟨⟨e⟩ | ⟨n⟩, seen⟩ <;> exact hgrant
  · have hgate := calm_gate h d.policy p
    generalize gate d.policy p desk = result at hgate ⊢
    rcases result with ⟨⟨e⟩ | ⟨_ | refusal⟩, seen⟩
    · exact hgate
    · exact calm_act hgate d.handler p
    · exact hgate

/-- Answering frames makes no call of the socket. -/
theorem calm_answerFrames (d : Daemon σ) (fs : List Bytes) : Calm (d.answerFrames fs desk).2 := by
  induction fs generalizing desk with
  | nil => exact h
  | cons f fs ih =>
    have hhandle : Calm (d.handle (.octets f) desk).2 := by
      rw [handle]
      split
      · exact h
      · exact calm_dispatch h d _
    rw [answerFrames]
    generalize d.handle (.octets f) desk = result at hhandle ⊢
    rcases result with ⟨⟨e⟩ | ⟨replies⟩, seen⟩
    · exact hhandle
    · have hrest := ih hhandle
      dsimp only
      split
      · exact hhandle
      · generalize d.answerFrames fs seen = result at hrest ⊢
        rcases result with ⟨⟨e⟩ | ⟨rest⟩, after⟩ <;> exact hrest

omit h in
/-- **A daemon at the other end of a socket makes no call of that socket.** -/
theorem keepsOff_peer (d : Daemon σ) : d.peer.KeepsOff := by
  intro bs state
  rw [peer]
  split
  · exact List.forall_mem_nil _
  · next fs _ =>
    have hcalm : Calm (⟨state, []⟩ : Desk σ) := List.forall_mem_nil _
    have hframes := calm_answerFrames hcalm d fs
    generalize d.answerFrames fs ⟨state, []⟩ = result at hframes ⊢
    rcases result with ⟨⟨e⟩ | ⟨replies⟩, seen⟩ <;> exact hframes

end Daemon

end KeyControl
