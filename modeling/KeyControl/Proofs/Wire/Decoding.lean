import KeyControl.Wire.Codec

/-!
# What decoding gives

Decoding gives messages of the family that is expected (`Payload.decode_requests`).  It fails in one
way only (`Payload.undecodable_of_decode`), save for text with surrogates, which fails for these
before anything is read (`Payload.decode_of_surrogates`).  Octets never hold surrogates.
-/

namespace KeyControl

theorem CodePoint.not_isBlank_surrogate (i : Fin 2048) : ¬ (surrogate i).isBlank = true := by
  rw [isBlank, value, blankCode]
  simp only [Bool.or_eq_true, Bool.and_eq_true, beq_iff_eq, decide_eq_true_eq]
  omega

/-- Blank text has no surrogates, for no surrogate is blank. -/
theorem Text.surrogates?_of_blank {t : Text} (h : t.blank = true) : t.surrogates? = none := by
  refine surrogates?_eq_none_iff.2 fun p hp => ?_
  have hblank : p.isBlank = true := List.all_eq_true.1 h p hp
  cases p with
  | scalar c => rfl
  | surrogate i => exact absurd hblank (CodePoint.not_isBlank_surrogate i)

theorem Message.family_of_ofDatum {family : MessageFamily} {d : Datum} {m : Message}
    (h : ofDatum family d = .ok m) : m.family = family := by
  have key : ∀ {α : Type} {x : Except ReadError α} {f : α → Message}, (∀ a, (f a).family = family) →
      x.map f = .ok m → m.family = family := by
    intro α x f hf hx
    cases x with
    | error e => cases hx
    | ok a =>
      cases hx
      exact hf a
  cases family with
  | requests => exact key (fun _ => rfl) h
  | notices => exact key (fun _ => rfl) h
  | acks => exact key (fun _ => rfl) h

namespace Payload

/-- What is decoded is the message that its JSON value is read as. -/
theorem exists_read_of_decode {p : Payload} {r : Reading} {m : Message} (h : p.decode r = .ok m) :
    ∃ v, p.load = .ok v ∧ r.read v = .ok m := by
  rw [decode] at h
  cases hload : p.load with
  | error e =>
    rw [hload] at h
    cases h
  | ok v =>
    rw [hload] at h
    refine ⟨v, rfl, ?_⟩
    cases hread : r.read v with
    | error cause =>
      dsimp only at h
      rw [hread] at h
      cases h
    | ok m' =>
      dsimp only at h
      rw [hread] at h
      cases h
      rfl

theorem decode_requests {p : Payload} {m : Message} (h : p.decode .requests = .ok m) :
    ∃ q, m = .request q := by
  obtain ⟨v, -, hread⟩ := exists_read_of_decode h
  have hfamily : m.family = .requests := Message.family_of_ofDatum hread
  cases m with
  | request q => exact ⟨q, rfl⟩
  | notice n => cases hfamily
  | ack a => cases hfamily

/-- The first run of surrogates in a payload.  Octets have none. -/
def surrogates? : Payload → Option SurrogateRun
  | octets _ => none
  | text t => t.surrogates?

theorem load_of_surrogates {p : Payload} {run : SurrogateRun} (h : p.surrogates? = some run) :
    p.load = .error (.surrogates run) := by
  cases p with
  | octets bs => cases h
  | text t =>
    rw [surrogates?] at h
    have hblank : ¬ t.blank = true := by
      intro hblank
      rw [Text.surrogates?_of_blank hblank] at h
      cases h
    rw [load, if_neg hblank, h]

/-- A payload without surrogates that has no value is undecodable. -/
theorem undecodable_of_load {p : Payload} (hp : p.surrogates? = none) {e : PayloadError}
    (h : p.load = .error e) : ∃ cause, e = .undecodable cause := by
  cases p with
  | octets bs =>
    rw [load] at h
    split at h
    · cases h
      exact ⟨_, rfl⟩
    · split at h
      · cases h
      · cases h
        exact ⟨_, rfl⟩
  | text t =>
    rw [surrogates?] at hp
    rw [load, hp] at h
    split at h
    · cases h
      exact ⟨_, rfl⟩
    · dsimp only at h
      split at h
      · cases h
      · cases h
        exact ⟨_, rfl⟩

/-- **A payload without surrogates that cannot be decoded is undecodable**, and nothing else. -/
theorem undecodable_of_decode {p : Payload} (hp : p.surrogates? = none) {r : Reading}
    {e : PayloadError} (h : p.decode r = .error e) : ∃ cause, e = .undecodable cause := by
  rw [decode] at h
  split at h
  · next hload =>
    cases h
    exact undecodable_of_load hp hload
  · split at h
    · cases h
    · cases h
      exact ⟨_, rfl⟩

theorem undecodable_of_decode_octets {bs : Bytes} {r : Reading} {e : PayloadError}
    (h : (octets bs).decode r = .error e) : ∃ cause, e = .undecodable cause :=
  undecodable_of_decode rfl h

/-- **A payload with surrogates fails for them**, whatever is expected. -/
theorem decode_of_surrogates {p : Payload} {run : SurrogateRun} (h : p.surrogates? = some run)
    (r : Reading) : p.decode r = .error (.surrogates run) := by
  rw [decode, load_of_surrogates h]

end Payload

end KeyControl
