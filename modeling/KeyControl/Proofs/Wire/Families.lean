import KeyControl.Proofs.Message.Schema
import KeyControl.Proofs.Wire.RoundTrip

/-!
# Families of messages never overlap

A value that is read as a message shows whose family it is of, whatever else it holds.  A request
and a notice are borne by their tag: it is the whole value, or the only key of an object
(`Json.Bears`).  An acknowledgement has its tag under the key of the status.  No request has the tag
of a notice, and no tag is the key of the status, so what a value shows is the mark of one family
only (`Message.family_eq_of_marks`).  The tag that a notice and an acknowledgement share does no
harm.

Double keys, further keys and bodies of any shape are allowed everywhere: nothing here assumes that
a value is well formed.  `Payload.decode_eq_of_decode` says for the readings that whichever of them
take a payload take it for the same message, and `Payload.families_disjoint` spells out what that
means for the reading of requests, of notices, of acknowledgements and of replies.
-/

namespace KeyControl

/-! ## The marks of a family -/

namespace Json

/-- A value is borne by a name: it is the name, or an object with the name as its only key. -/
inductive Bears (name : String) : Json → Prop where
  | bare : Bears name (.str name)
  | only (body : Json) : Bears name (.obj [(name, body)])

namespace Bears

variable {name other : String} {v : Json}

theorem name_eq (h : Bears name v) (h' : Bears other v) : name = other := by
  cases h with
  | bare => cases h'; rfl
  | only body => cases h'; rfl

theorem get?_eq_none (h : Bears name v) (hname : name ≠ other) : v.get? other = none := by
  cases h with
  | bare => rfl
  | only body =>
    show find? other [(name, body)] = none
    rw [find?_cons, if_neg hname, find?_nil]

end Bears

end Json

theorem Family.tag_of_readBody {F : Family} {tag : F.Tag} {body : Datum} {v : Variant F}
    (h : F.readBody tag body = .ok v) : v.tag = tag := by
  unfold readBody at h
  split at h
  · split at h
    · exact tag_of_readFields h
    · cases h
  · split at h
    · exact tag_of_readFields h
    · cases h

namespace Family.Lawful

variable {F : Family} (hF : F.Lawful)

include hF

/-- **A value in the tagged form is borne by its tag.** -/
theorem bears_of_readTagged {j : Json} {v : Variant F} (h : F.readTagged (Datum.ofJson j) = .ok v) :
    j.Bears (F.name v.tag) := by
  cases j with
  | str s =>
    rw [Datum.ofJson, Datum.ofString, readTagged] at h
    split at h
    · cases h
    · next tag htag =>
      obtain rfl := Text.ofString_injective (Datum.text.inj (hF.readTag_eq_ok_iff.1 htag))
      split at h
      · rw [tag_of_readFields h]
        exact .bare
      · cases h
  | obj es =>
    rcases es with _ | ⟨⟨key, body⟩, _ | ⟨e, es⟩⟩
    · cases h
    · rw [Datum.ofJson, Datum.ofEntries, Datum.ofEntries, readTagged] at h
      split at h
      · cases h
      · next tag htag =>
        obtain rfl := Text.ofString_injective (Datum.text.inj (hF.readTag_eq_ok_iff.1 htag))
        rw [tag_of_readBody h]
        exact .only body
    · cases h
  | _ => cases h

/-- **A value in the status form has its tag as its status.** -/
theorem get?_of_readStatus {j : Json} {v : Variant F} (h : F.readStatus (Datum.ofJson j) = .ok v) :
    j.get? statusKey = some (.str (F.name v.tag)) := by
  cases j with
  | obj es =>
    rw [Datum.ofJson, readStatus, Datum.lookup_ofEntries] at h
    split at h
    · cases h
    · next status hstatus =>
      obtain ⟨s, hfind, rfl⟩ := Option.map_eq_some_iff.1 hstatus
      split at h
      · cases h
      · next tag htag =>
        obtain rfl := Datum.eq_str_of_ofJson (hF.readTag_eq_ok_iff.1 htag)
        rw [tag_of_readFields h]
        exact hfind
  | _ => cases h

end Family.Lawful

theorem RequestTag.name_ne_name (tag : RequestTag) (other : NoticeTag) :
    tag.name ≠ other.name := by
  cases tag <;> cases other <;> decide

theorem RequestTag.name_ne_statusKey (tag : RequestTag) : tag.name ≠ statusKey := by
  cases tag <;> decide

theorem NoticeTag.name_ne_statusKey (tag : NoticeTag) : tag.name ≠ statusKey := by
  cases tag <;> decide

namespace Message

/-- What a value shows of the message that it is read as. -/
def Marks : Message → Json → Prop
  | request r, v => v.Bears r.variant.tag.name
  | notice n, v => v.Bears n.variant.tag.name
  | ack a, v => v.get? statusKey = some (.str a.variant.tag.name)

/-- **A value that is read as a message shows the marks of that message.** -/
theorem marks_of_ofDatum {family : MessageFamily} {v : Json} {m : Message}
    (h : ofDatum family (Datum.ofJson v) = .ok m) : m.Marks v := by
  obtain rfl := family_of_ofDatum h
  cases m with
  | request r => exact lawful_requests.bears_of_readTagged (ofDatum_requests_iff.1 h)
  | notice n => exact lawful_notices.bears_of_readTagged (ofDatum_notices_iff.1 h)
  | ack a => exact lawful_acks.get?_of_readStatus (ofDatum_acks_iff.1 h)

theorem Marks.status_eq_none {m : Message} {v : Json} (h : m.Marks v) (hm : m.family ≠ .acks) :
    v.get? statusKey = none := by
  cases m with
  | request r => exact Json.Bears.get?_eq_none h r.variant.tag.name_ne_statusKey
  | notice n => exact Json.Bears.get?_eq_none h n.variant.tag.name_ne_statusKey
  | ack a => exact absurd rfl hm

theorem Marks.isSome_status {m : Message} {v : Json} (h : m.Marks v) (hm : m.family = .acks) :
    (v.get? statusKey).isSome = true := by
  cases m with
  | ack a =>
    rw [Marks] at h
    rw [h, Option.isSome_some]
  | _ => cases hm

/-- **A value shows the marks of one family only.** -/
theorem family_eq_of_marks {m m' : Message} {v : Json} (h : m.Marks v) (h' : m'.Marks v) :
    m.family = m'.family := by
  by_cases hm : m.family = .acks <;> by_cases hm' : m'.family = .acks
  · rw [hm, hm']
  · have hsome := h.isSome_status hm
    rw [h'.status_eq_none hm'] at hsome
    cases hsome
  · have hsome := h'.isSome_status hm'
    rw [h.status_eq_none hm] at hsome
    cases hsome
  · -- Both are borne by their tags, which no request and notice have in common.
    cases m with
    | request r =>
      cases m' with
      | request r' => rfl
      | notice n =>
        exact absurd (Json.Bears.name_eq h h') (r.variant.tag.name_ne_name n.variant.tag)
      | ack a => exact absurd rfl hm'
    | notice n =>
      cases m' with
      | request r =>
        exact absurd (Json.Bears.name_eq h' h) (r.variant.tag.name_ne_name n.variant.tag)
      | notice n' => rfl
      | ack a => exact absurd rfl hm'
    | ack a => exact absurd rfl hm

end Message

/-! ## Readings -/

namespace Reading

/-- The families whose messages are expected. -/
def families : Reading → List MessageFamily
  | requests => [.requests]
  | notices => [.notices]
  | acks => [.acks]
  | replies => [.notices, .acks]

/-- **A reading takes a value for a message** exactly if one of its families does. -/
theorem read_eq_ok_iff {r : Reading} {v : Json} {m : Message} :
    r.read v = .ok m ↔
      m.family ∈ r.families ∧ Message.ofDatum m.family (Datum.ofJson v) = .ok m := by
  have hnarrow : ∀ family, Message.ofDatum family (Datum.ofJson v) = .ok m ↔
      m.family ∈ [family] ∧ Message.ofDatum m.family (Datum.ofJson v) = .ok m := by
    intro family
    constructor
    · intro h
      obtain rfl := Message.family_of_ofDatum h
      exact ⟨List.mem_singleton.2 rfl, h⟩
    · rintro ⟨hm, h⟩
      rwa [List.mem_singleton.1 hm] at h
  cases r with
  | requests => exact hnarrow .requests
  | notices => exact hnarrow .notices
  | acks => exact hnarrow .acks
  | replies =>
    -- The status decides, and it decides rightly, because it is the mark of acknowledgements.
    rw [read]
    constructor
    · intro h
      split at h
      · obtain ⟨hm, h⟩ := (hnarrow .acks).1 h
        exact ⟨List.mem_cons_of_mem _ hm, h⟩
      · obtain ⟨hm, h⟩ := (hnarrow .notices).1 h
        exact ⟨List.mem_cons.2 (.inl (List.mem_singleton.1 hm)), h⟩
    · rintro ⟨hm, h⟩
      have hmarks := Message.marks_of_ofDatum h
      rcases List.mem_pair.1 hm with hm | hm
      · rw [hmarks.status_eq_none (by rw [hm]; exact MessageFamily.noConfusion), Option.isSome_none,
          if_neg Bool.false_ne_true, ← hm]
        exact h
      · rw [hmarks.isSome_status hm, if_pos rfl, ← hm]
        exact h

theorem families_injective : Function.Injective families := by
  intro r r' h
  cases r <;> cases r' <;> first | rfl | cases h

theorem families_eq_singleton {r : Reading} (hr : r ≠ .replies) {family : MessageFamily}
    (h : family ∈ r.families) : r.families = [family] := by
  cases r with
  | replies => exact absurd rfl hr
  | _ =>
    rw [List.mem_singleton.1 h]
    rfl

end Reading

namespace Payload

theorem decode_eq_ok_iff {p : Payload} {r : Reading} {m : Message} :
    p.decode r = .ok m ↔ m.family ∈ r.families ∧
      ∃ v, p.load = .ok v ∧ Message.ofDatum m.family (Datum.ofJson v) = .ok m := by
  constructor
  · intro h
    obtain ⟨v, hload, hread⟩ := exists_read_of_decode h
    obtain ⟨hm, hv⟩ := Reading.read_eq_ok_iff.1 hread
    exact ⟨hm, v, hload, hv⟩
  · rintro ⟨hm, v, hload, hv⟩
    rw [decode, hload]
    dsimp only
    rw [Reading.read_eq_ok_iff.2 ⟨hm, hv⟩]

/-- **Whichever readings take a payload, they take it for the same message.** -/
theorem decode_eq_of_decode {p : Payload} {r r' : Reading} {m m' : Message}
    (h : p.decode r = .ok m) (h' : p.decode r' = .ok m') : m = m' := by
  obtain ⟨-, v, hload, hv⟩ := decode_eq_ok_iff.1 h
  obtain ⟨-, v', hload', hv'⟩ := decode_eq_ok_iff.1 h'
  rw [hload] at hload'
  cases hload'
  have hfamily :=
    Message.family_eq_of_marks (Message.marks_of_ofDatum hv) (Message.marks_of_ofDatum hv')
  rw [hfamily, hv'] at hv
  exact (Except.ok.inj hv).symm

/-- A payload that some reading takes is unreadable to a reading that expects other families. -/
theorem unreadable_of_decode {p : Payload} {r r' : Reading} {m : Message} (h : p.decode r = .ok m)
    (hr' : m.family ∉ r'.families) :
    ∃ cause, p.decode r' = .error (.undecodable (.unreadable cause)) := by
  cases h' : p.decode r' with
  | ok m' =>
    obtain rfl := decode_eq_of_decode h h'
    exact absurd (decode_eq_ok_iff.1 h').1 hr'
  | error e =>
    obtain ⟨-, v, hload, -⟩ := decode_eq_ok_iff.1 h
    rw [decode, hload] at h'
    dsimp only at h'
    split at h'
    · cases h'
    · cases h'
      exact ⟨_, rfl⟩

/-- **The families of messages never overlap.**  Of the readings of requests, of notices and of
acknowledgements, at most one takes a payload.  The reading of replies takes a payload for a message
exactly if that of notices or that of acknowledgements takes it for that message.  And what the
reading of requests takes is unreadable as a reply. -/
theorem families_disjoint (p : Payload) :
    (∀ r r' m m', r ≠ .replies → r' ≠ .replies → p.decode r = .ok m → p.decode r' = .ok m' →
      r = r') ∧
    (∀ m, p.decode .replies = .ok m ↔ p.decode .notices = .ok m ∨ p.decode .acks = .ok m) ∧
    (∀ m, p.decode .requests = .ok m →
      ∃ cause, p.decode .replies = .error (.undecodable (.unreadable cause))) := by
  refine ⟨fun r r' m m' hr hr' h h' => ?_, fun m => ?_, fun m h => ?_⟩
  · obtain rfl := decode_eq_of_decode h h'
    have hfamilies := Reading.families_eq_singleton hr (decode_eq_ok_iff.1 h).1
    have hfamilies' := Reading.families_eq_singleton hr' (decode_eq_ok_iff.1 h').1
    exact Reading.families_injective (hfamilies.trans hfamilies'.symm)
  · have hfamilies : m.family ∈ Reading.replies.families ↔
        m.family ∈ Reading.notices.families ∨ m.family ∈ Reading.acks.families := by
      rw [Reading.families, Reading.families, Reading.families, List.mem_pair, List.mem_singleton,
        List.mem_singleton]
    rw [decode_eq_ok_iff, decode_eq_ok_iff, decode_eq_ok_iff, hfamilies, or_and_right]
  · refine unreadable_of_decode h ?_
    rw [List.mem_singleton.1 (decode_eq_ok_iff.1 h).1]
    decide

/-- The tag that notices and acknowledgements share: a failure that is acknowledged is no notice and
no request, and a client takes it for an acknowledgement. -/
theorem families_disjoint_shared_tag :
    let p := Payload.octets (Message.ack (.error "unknown layer")).payload
    p.decode .acks = .ok (.ack (.error "unknown layer")) ∧
      p.decode .replies = .ok (.ack (.error "unknown layer")) ∧
      (∀ m, p.decode .notices ≠ .ok m) ∧ ∀ m, p.decode .requests ≠ .ok m := by
  intro p
  have hack : p.decode .acks = .ok (.ack (.error "unknown layer")) :=
    Message.decode_payload (List.mem_cons_of_mem _ List.mem_cons_self)
  obtain ⟨hone, hreplies, -⟩ := families_disjoint p
  refine ⟨hack, (hreplies _).2 (.inr hack), fun m h => ?_, fun m h => ?_⟩
  · cases hone .acks .notices _ m Reading.noConfusion Reading.noConfusion hack h
  · cases hone .acks .requests _ m Reading.noConfusion Reading.noConfusion hack h

end Payload

end KeyControl
