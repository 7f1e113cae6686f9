import KeyControl.Datum.Basic
import KeyControl.Datum.Quoted

/-!
# Documents

A document is a JSON value that survives a trip over the wire unchanged: its integers lie between -2
to the power 63 and 2 to the power 64, and no object in it has a key twice.  (Text is free of
surrogates and doubles are finite in every `Json`.)  `Document.ofDatum` checks an unchecked value
and builds the document that stands for it, with lists in place of tuples.  What it refuses, it
refuses for the first cause met from left to right, where in an entry the type of the key comes
first, then the value, then the key itself.

For each kind of value one lemma says what it is stored as, if at all
(`Datum.normalize_int_eq_ok_iff` up to `Datum.normalizeEntries_cons_eq_ok_iff`), so that nothing
else has to follow the check through its branches.
-/

namespace KeyControl

/-- Why a value is no document, or no text. -/
inductive DocumentFault where
  /-- Text holds surrogates. -/
  | surrogates (run : SurrogateRun)
  /-- An integer is outside the range that JSON writers agree on. -/
  | tooWide (n : Int)
  /-- A double is infinite or a NaN. -/
  | notFinite (x : Double)
  /-- A table has a key that is not text; the name is that of its type. -/
  | keyNotText (found : String)
  /-- The value is none of JSON's; the name is that of its type. -/
  | notJson (found : String)
deriving DecidableEq

namespace Json

/-- Whether an integer lies in the range that JSON writers agree on. -/
def fits (n : Int) : Bool :=
  decide (-0x8000000000000000 ≤ n) && decide (n < 0x10000000000000000)

mutual

/-- Whether a value survives a trip over the wire unchanged. -/
def storable : Json → Bool
  | .int n => fits n
  | .arr items => storableItems items
  | .obj entries => decide (entries.map Prod.fst).Nodup && storableEntries entries
  | _ => true

def storableItems : List Json → Bool
  | [] => true
  | v :: vs => storable v && storableItems vs

def storableEntries : List (String × Json) → Bool
  | [] => true
  | (_, v) :: es => storable v && storableEntries es

end

theorem storableEntries_put {key : String} {v : Json} {es : List (String × Json)}
    (hv : storable v = true) (hes : storableEntries es = true) :
    storableEntries (put key v es) = true := by
  induction es with
  | nil => simp [put, storableEntries, hv]
  | cons e es ih =>
    obtain ⟨k, w⟩ := e
    simp only [storableEntries, Bool.and_eq_true] at hes
    by_cases h : k = key
    · simp [put, h, storableEntries, hv, hes.2]
    · simp [put, h, storableEntries, hes.1, ih hes.2]

end Json

namespace Datum

mutual

/-- The JSON value that a document stores for a value. -/
def normalize : Datum → Except DocumentFault Json
  | null => .ok .null
  | bool b => .ok (.bool b)
  | int n => if Json.fits n then .ok (.int n) else .error (.tooWide n)
  | real (.finite x) => .ok (.num x)
  | real x => .error (.notFinite x)
  | text t =>
    match t.toString? with
    | .ok s => .ok (.str s)
    | .error run => .error (.surrogates run)
  | list items =>
    match normalizeItems items with
    | .ok vs => .ok (.arr vs)
    | .error e => .error e
  | tuple items =>
    match normalizeItems items with
    | .ok vs => .ok (.arr vs)
    | .error e => .error e
  | table entries =>
    match normalizeEntries [] entries with
    | .ok es => .ok (.obj es)
    | .error e => .error e
  | d => .error (.notJson d.typeName)

def normalizeItems : List Datum → Except DocumentFault (List Json)
  | [] => .ok []
  | x :: xs =>
    match normalize x with
    | .error e => .error e
    | .ok v =>
      match normalizeItems xs with
      | .error e => .error e
      | .ok vs => .ok (v :: vs)

/-- The entries that a document stores for those of a table, after the ones already there. -/
def normalizeEntries (done : List (String × Json)) :
    List (Datum × Datum) → Except DocumentFault (List (String × Json))
  | [] => .ok done
  | (text t, x) :: es =>
    match normalize x with
    | .error e => .error e
    | .ok v =>
      match t.toString? with
      | .error run => .error (.surrogates run)
      | .ok key => normalizeEntries (Json.put key v done) es
  | (k, _) :: _ => .error (.keyNotText k.typeName)

end

/-! ## What is stored, by what it is stored for -/

section

variable {v : Json} {vs : List Json} {es done : List (String × Json)}

theorem normalize_int_eq_ok_iff {n : Int} :
    normalize (int n) = .ok v ↔ Json.fits n = true ∧ v = .int n := by
  rw [normalize]
  by_cases h : Json.fits n = true <;> simp [h, eq_comm]

theorem normalize_real_eq_ok_iff {x : Double} :
    normalize (real x) = .ok v ↔ ∃ y, x = .finite y ∧ v = .num y := by
  cases x <;> simp [normalize, eq_comm]

theorem normalize_text_eq_ok_iff {t : Text} :
    normalize (text t) = .ok v ↔ ∃ s, t = Text.ofString s ∧ v = .str s := by
  simp only [normalize, ← Text.toString?_eq_ok_iff]
  cases t.toString? <;> simp [eq_comm]

theorem normalize_list_eq_ok_iff {items : List Datum} :
    normalize (list items) = .ok v ↔ ∃ vs, normalizeItems items = .ok vs ∧ v = .arr vs := by
  rw [normalize]
  cases normalizeItems items <;> simp [eq_comm]

theorem normalize_tuple (items : List Datum) : normalize (tuple items) = normalize (list items) := by
  rw [normalize, normalize]

theorem normalize_table_eq_ok_iff {entries : List (Datum × Datum)} :
    normalize (table entries) = .ok v ↔
      ∃ es, normalizeEntries [] entries = .ok es ∧ v = .obj es := by
  rw [normalize]
  cases normalizeEntries [] entries <;> simp [eq_comm]

theorem normalizeItems_cons_eq_ok_iff {x : Datum} {xs : List Datum} :
    normalizeItems (x :: xs) = .ok vs ↔
      ∃ w ws, normalize x = .ok w ∧ normalizeItems xs = .ok ws ∧ vs = w :: ws := by
  rw [normalizeItems]
  cases normalize x with
  | error cause => simp
  | ok w => cases normalizeItems xs <;> simp [eq_comm]

theorem normalizeEntries_cons_eq_ok_iff {k x : Datum} {xs : List (Datum × Datum)} :
    normalizeEntries done ((k, x) :: xs) = .ok es ↔
      ∃ key w, k = ofString key ∧ normalize x = .ok w ∧
        normalizeEntries (Json.put key w done) xs = .ok es := by
  cases k with
  | text t =>
    have hkey : ∀ key, text t = ofString key ↔ t.toString? = .ok key := fun key => by
      rw [Text.toString?_eq_ok_iff, ofString, text.injEq]
    simp only [normalizeEntries, hkey]
    cases normalize x with
    | error cause => simp
    | ok w => cases t.toString? <;> simp
  | _ => simp [normalizeEntries, ofString]

end

mutual

/-- What is stored is storable. -/
theorem storable_of_normalize : ∀ {d : Datum} {v : Json}, normalize d = .ok v → v.storable = true
  | null, v, h => by cases h; rfl
  | bool b, v, h => by cases h; rfl
  | int n, v, h => by
    obtain ⟨hfits, rfl⟩ := normalize_int_eq_ok_iff.1 h
    exact hfits
  | real x, v, h => by
    obtain ⟨y, -, rfl⟩ := normalize_real_eq_ok_iff.1 h
    rfl
  | text t, v, h => by
    obtain ⟨s, -, rfl⟩ := normalize_text_eq_ok_iff.1 h
    rfl
  | list items, v, h => by
    obtain ⟨vs, hvs, rfl⟩ := normalize_list_eq_ok_iff.1 h
    exact storable_of_normalizeItems hvs
  | tuple items, v, h => by
    rw [normalize_tuple] at h
    obtain ⟨vs, hvs, rfl⟩ := normalize_list_eq_ok_iff.1 h
    exact storable_of_normalizeItems hvs
  | table entries, v, h => by
    obtain ⟨es, hes, rfl⟩ := normalize_table_eq_ok_iff.1 h
    have hnil : (([] : List (String × Json)).map Prod.fst).Nodup := List.nodup_nil
    obtain ⟨hkeys, hvalues⟩ := storable_of_normalizeEntries hnil rfl hes
    simp [Json.storable, hkeys, hvalues]
  | octets _, v, h => by cases h
  | action _, v, h => by cases h
  | foreign _, v, h => by cases h

theorem storable_of_normalizeItems :
    ∀ {xs : List Datum} {vs : List Json}, normalizeItems xs = .ok vs → Json.storableItems vs = true
  | [], vs, h => by cases h; rfl
  | x :: xs, vs, h => by
    obtain ⟨w, ws, hw, hws, rfl⟩ := normalizeItems_cons_eq_ok_iff.1 h
    simp [Json.storableItems, storable_of_normalize hw, storable_of_normalizeItems hws]

theorem storable_of_normalizeEntries :
    ∀ {xs : List (Datum × Datum)} {done es : List (String × Json)},
      (done.map Prod.fst).Nodup → Json.storableEntries done = true →
      normalizeEntries done xs = .ok es →
      (es.map Prod.fst).Nodup ∧ Json.storableEntries es = true
  | [], done, es, hn, hs, h => by cases h; exact ⟨hn, hs⟩
  | (k, x) :: xs, done, es, hn, hs, h => by
    obtain ⟨key, w, -, hw, hes⟩ := normalizeEntries_cons_eq_ok_iff.1 h
    exact storable_of_normalizeEntries (Json.nodup_keys_put hn key w)
      (Json.storableEntries_put (storable_of_normalize hw) hs) hes

end

end Datum

/-- A JSON value that survives a trip over the wire unchanged. -/
structure Document where
  json : Json
  storable : json.storable = true
deriving DecidableEq

namespace Document

@[ext] theorem ext {a b : Document} (h : a.json = b.json) : a = b := by
  cases a; cases b; cases h; rfl

/-- The document that stands for a value. -/
def ofDatum (d : Datum) : Except DocumentFault Document :=
  match h : d.normalize with
  | .ok v => .ok ⟨v, Datum.storable_of_normalize h⟩
  | .error e => .error e

/-- A document stands for a value exactly if it is the value's normal form. -/
theorem ofDatum_eq_ok_iff {d : Datum} {doc : Document} :
    ofDatum d = .ok doc ↔ d.normalize = .ok doc.json := by
  unfold ofDatum
  split
  · next v hv =>
    constructor
    · intro h
      cases h
      exact hv
    · intro h
      rw [hv] at h
      cases doc
      cases h
      rfl
  · next e he =>
    constructor
    · intro h
      cases h
    · intro h
      rw [he] at h
      cases h

end Document

end KeyControl
