import KeyControl.Message.Envelope
import KeyControl.Proofs.Message.Held
import KeyControl.Proofs.Wire.RoundTrip

/-!
# The token of a request is a field with laws

Stamping a request builds it anew of what it holds, with the token given in the place of its own.
Whatever else a request holds passes its check again, so it is built with any token
(`Request.build?_put_ofToken`) and fails with anything else (`Request.build?_put_error`); tokens are
text without surrogates, or null for none (`eq_ofToken_or_error`).

On these tokens stamping obeys the laws of a field: what is put in is read back, the last one put in
stays, putting in what is there changes nothing, and no other field is touched.
`Parcel.stamp_lawful` puts this together with the way over the wire and with the parcels that have
no place for a token.
-/

namespace KeyControl

/-! ## Tokens -/

/-- A token as an unchecked value: null, if there is none. -/
def Datum.ofToken (s : Option String) : Datum :=
  (s.map ofString).getD null

theorem check_ofToken (s : Option String) : sessionField.check (.ofToken s) = .ok s :=
  @Field.check_toDatum sessionField (by decide) s

/-- **What is no token does not pass**: it is neither null nor text without surrogates. -/
theorem eq_ofToken_or_error (d : Datum) :
    (∃ s, d = .ofToken s) ∨ ∃ fault, sessionField.check d = .error fault := by
  cases d with
  | null => exact .inl ⟨none, rfl⟩
  | text t =>
    cases ht : t.toString? with
    | ok s => exact .inl ⟨some s, congrArg Datum.text (Text.toString?_eq_ok_iff.1 ht)⟩
    | error run =>
      have hcheck : sessionField.check (.text t) = (Kind.checkText (.text t)).map some := rfl
      rw [Kind.checkText, ht] at hcheck
      exact .inr ⟨_, hcheck⟩
  | _ => exact .inr ⟨_, rfl⟩

namespace Request

theorem values_withSession {r : Request} (hr : r.gated = true) (s : Option String) :
    (r.withSession s).variant.values =
      r.variant.values.map fun e =>
        if e.1 = sessionField.name then (e.1, .ofToken s) else e := by
  cases r with
  | authenticate token clientName => cases hr
  | _ => cases s <;> rfl

theorem held_withSession {r : Request} (hr : r.gated = true) (s : Option String) :
    (r.withSession s).variant.held =
      Json.put sessionField.name (.ofToken s) r.variant.held := by
  cases r with
  | authenticate token clientName => cases hr
  | _ => rfl

theorem tag_withSession (r : Request) (s : Option String) :
    (r.withSession s).variant.tag = r.variant.tag := by
  cases r <;> rfl

theorem fields_of_gated {r : Request} (hr : r.gated = true) :
    Requests.fields r.variant.tag =
      (Requests.fields r.variant.tag).dropLast ++ sessionField :: [] := by
  cases r with
  | authenticate token clientName => cases hr
  | _ => rfl

theorem build?_tag (r : Request) (given : List (String × Datum)) :
    Message.build? .requests (Text.ofString r.variant.tag.name) given =
      some ((Requests.build r.variant.tag given).map (Message.request ∘ ofVariant)) :=
  Message.build?_name given

/-- **A request is built anew with any token**: whatever else it holds passes its check again. -/
theorem build?_put_ofToken {r : Request} (hr : r.gated = true) (s : Option String) :
    Message.build? .requests (Text.ofString r.variant.tag.name)
        (Json.put sessionField.name (.ofToken s) r.variant.held) =
      some (.ok (.request (r.withSession s))) := by
  have hbuild := lawful_requests.build_held (r.withSession s).variant
  rw [held_withSession hr, tag_withSession] at hbuild
  rw [build?_tag, hbuild, Except.map, Function.comp_apply, ofVariant_variant]

/-- **No request is built anew with what is no token**, and the error names the field. -/
theorem build?_put_error {r : Request} (hr : r.gated = true) {token : Datum} {fault : Fault}
    (h : sessionField.check token = .error fault) :
    Message.build? .requests (Text.ofString r.variant.tag.name)
        (Json.put sessionField.name token r.variant.held) =
      some (.error (.invalid ⟨r.variant.tag.name, sessionField.name, fault⟩)) := by
  have hbuild := lawful_requests.build_put_held_error r.variant (fields_of_gated hr) token h
  rw [build?_tag, hbuild]
  rfl

end Request

/-! ## Stamping -/

namespace Parcel

theorem stamp_ofToken {r : Request} (hr : r.gated = true) (s : Option String) :
    (message (.request r)).stamp (.ofToken s) = .ok (.fresh (r.withSession s)) := by
  rw [stamp, if_pos hr, check_ofToken]

theorem stamp_error {r : Request} (hr : r.gated = true) {token : Datum} {fault : Fault}
    (h : sessionField.check token = .error fault) :
    (message (.request r)).stamp token =
      .error ⟨r.variant.tag.name, sessionField.name, fault⟩ := by
  rw [stamp, if_pos hr, h]

/-- What has no place for a token stays as it is, and carries none. -/
theorem stamp_of_not_gated {p : Parcel} (h : p.gated = false) (token : Datum) :
    p.stamp token = .ok .untouched ∧ p.session? = none := by
  cases p with
  | message m =>
    cases m with
    | request r =>
      cases r with
      | authenticate secret clientName => exact ⟨rfl, rfl⟩
      | _ => cases h
    | notice n => exact ⟨rfl, rfl⟩
    | ack a => exact ⟨rfl, rfl⟩
  | foreign wire => exact ⟨rfl, rfl⟩
  | value d => exact ⟨rfl, rfl⟩

theorem text_invalid_sessionField (tag : String) (fault : Fault) :
    InvalidField.text ⟨tag, sessionField.name, fault⟩ = tag ++ ".session_id: " ++ fault.text := by
  have hname : "." ++ sessionField.name ++ ": " = ".session_id: " := rfl
  rw [InvalidField.text, ← hname]
  simp only [String.append_assoc]

/-- The laws that stamping a request with tokens obeys. -/
structure StampLaws (r : Request) : Prop where
  /-- Stamping builds the request anew of what it holds, with the token in the place of its own, and
  fails as building fails. -/
  anew : ∀ token,
    let built := Message.build? .requests (Text.ofString r.variant.tag.name)
      (Json.put sessionField.name token r.variant.held)
    (∃ q, (message (.request r)).stamp token = .ok (.fresh q) ∧ built = some (.ok (.request q))) ∨
      ∃ cause, (message (.request r)).stamp token = .error cause ∧
        built = some (.error (.invalid cause))
  /-- Every token is put in.  It changes its field and no other, it is read back, the next one takes
  its place, and the request that carries it goes over the wire. -/
  put : ∀ s, ∃ q, (message (.request r)).stamp (.ofToken s) = .ok (.fresh q) ∧
    q.variant.tag = r.variant.tag ∧
    q.variant.values =
      (r.variant.values.map fun e => if e.1 = sessionField.name then (e.1, .ofToken s) else e) ∧
    (message (.request q)).session? = s ∧
    (∀ token, (message (.request q)).stamp token = (message (.request r)).stamp token) ∧
    ∃ bs, (message (.request q)).frame = .ok bs ∧
      (Payload.octets bs).decode .requests = .ok (.request q)
  /-- Putting in what is there changes nothing. -/
  self : (message (.request r)).stamp (.ofToken (message (.request r)).session?) = .ok (.fresh r)
  /-- Nothing else is put in, and the error names the field. -/
  refuse : ∀ token, (∀ s, token ≠ .ofToken s) → ∃ cause,
    (message (.request r)).stamp token = .error cause ∧
      ∃ reason, cause.text = r.variant.tag.name ++ ".session_id: " ++ reason

/-- **The token of a request is a field with laws.**  Stamping obeys them on every request that has
a place for a token; every other parcel stays the very object it is, whatever it is stamped with,
and carries no token. -/
theorem stamp_lawful :
    (∀ r : Request, r.gated = true → StampLaws r) ∧
      ∀ p : Parcel, p.gated = false →
        ∀ token, p.stamp token = .ok .untouched ∧ p.session? = none := by
  refine ⟨fun r hr => ?_, fun p hp => stamp_of_not_gated hp⟩
  refine ⟨fun token => ?_, fun s => ?_, ?_, fun token htoken => ?_⟩
  · rcases eq_ofToken_or_error token with ⟨s, rfl⟩ | ⟨fault, hfault⟩
    · exact .inl ⟨_, stamp_ofToken hr s, Request.build?_put_ofToken hr s⟩
    · exact .inr ⟨_, stamp_error hr hfault, Request.build?_put_error hr hfault⟩
  · have hagain : (r.withSession s).gated = true := by rw [Request.gated_withSession, hr]
    refine ⟨r.withSession s, stamp_ofToken hr s, r.tag_withSession s, r.values_withSession hr s,
      Request.session?_withSession hr s, fun token => ?_, _, rfl,
      Message.decode_payload_newline (List.mem_singleton.2 rfl)⟩
    rcases eq_ofToken_or_error token with ⟨t, rfl⟩ | ⟨fault, hfault⟩
    · rw [stamp_ofToken hagain, stamp_ofToken hr, Request.withSession_withSession]
    · rw [stamp_error hagain hfault, stamp_error hr hfault, Request.tag_withSession]
  · rw [stamp_ofToken hr, session?, Request.withSession_session?]
  · rcases eq_ofToken_or_error token with ⟨s, rfl⟩ | ⟨fault, hfault⟩
    · exact absurd rfl (htoken s)
    · exact ⟨_, stamp_error hr hfault, fault.text, text_invalid_sessionField _ fault⟩

/-- A request that acts on a key gets another token, and none that is half of a surrogate pair; an
attempt to authenticate stays as it is even if the token is a number. -/
theorem stamp_lawful_fake_key :
    let r := Request.actOnFakeKey "esc" .tap (some "old")
    let p := Parcel.message (.request (.authenticate "secret" none))
    r.gated = true ∧
      (∃ q, (message (.request r)).stamp (.ofString "new") = .ok (.fresh q) ∧
        q.variant.values = [("name", .ofString "esc"), ("action", .ofString "Tap"),
          ("session_id", .ofString "new")] ∧
        ∃ bs, (message (.request q)).frame = .ok bs ∧
          (Payload.octets bs).decode .requests = .ok (.request q)) ∧
      (∃ cause, (message (.request r)).stamp (.text [.surrogate 0]) = .error cause ∧
        ∃ reason, cause.text = "ActOnFakeKey.session_id: " ++ reason) ∧
      p.gated = false ∧ p.stamp (.int 7) = .ok .untouched := by
  intro r p
  have hr : r.gated = true := rfl
  have hp : p.gated = false := rfl
  obtain ⟨hlaws, huntouched⟩ := stamp_lawful
  obtain ⟨q, hq, -, hvalues, -, -, hframe⟩ := (hlaws r hr).put (some "new")
  have hsurrogate : ∀ s, Datum.text [.surrogate 0] ≠ .ofToken s := by
    rintro (_ | s) h
    · cases h
    · have hplain := Text.surrogates?_ofChars s.toList
      rw [← Text.ofString, ← Datum.text.inj h] at hplain
      cases hplain
  obtain ⟨cause, hcause, reason, htext⟩ := (hlaws r hr).refuse _ hsurrogate
  exact ⟨hr, ⟨q, hq, hvalues, hframe⟩, ⟨cause, hcause, reason, htext⟩, hp,
    (huntouched p hp (.int 7)).1⟩

end Parcel

end KeyControl
