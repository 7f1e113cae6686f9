import KeyControl.Proofs.Message.Declared

/-!
# Which values a document stands for

A document stands for a value exactly if each value that stands in it, at any depth, is one that
JSON has (`Document.exists_ofDatum_iff`).  What is required of a single value, whatever its parts
are, is `Datum.Admitted`; `Datum.Throughout` requires it at every depth, and both sides of the
equivalence take a value apart in the same way (`Datum.throughout_iff`).

What is stored is the value itself with a list in place of every tuple, `Datum.listed`, if no table
in it has a text for a key twice (`Datum.ofJson_of_normalize`).  No tuple is left, and the stored
value is stored as it is.  `Message.messagePush_stored` puts this together for the one message that
carries a document.
-/

namespace KeyControl

namespace Text

theorem exists_eq_ofString_iff {t : Text} :
    (∃ s, t = ofString s) ↔ ∀ p ∈ t, p.isSurrogate = false := by
  simp only [← toString?_eq_ok_iff, ← surrogates?_eq_none_iff, toString?]
  cases t.surrogates? <;> simp

end Text

/-! ## Parts -/

namespace Datum

/-- The values that a container holds: its items, or the values of its entries. -/
def parts : Datum → List Datum
  | list items => items
  | tuple items => items
  | table entries => entries.map Prod.snd
  | _ => []

/-- A value stands in another one: it is that value, or it stands in a part of it. -/
inductive Node (x : Datum) : Datum → Prop
  | self : Node x x
  | part {y d : Datum} (hy : y ∈ d.parts) (hx : Node x y) : Node x d

/-- Whether every value that stands in a value has a property. -/
def Throughout (P : Datum → Prop) (d : Datum) : Prop :=
  ∀ x, Node x d → P x

/-- A property holds throughout a value if it holds of the value and throughout its parts. -/
theorem throughout_iff {P : Datum → Prop} {d : Datum} :
    d.Throughout P ↔ P d ∧ ∀ y ∈ d.parts, y.Throughout P := by
  constructor
  · intro h
    exact ⟨h d .self, fun y hy x hx => h x (.part hy hx)⟩
  · rintro ⟨hd, hparts⟩ x (_ | ⟨hy, hx⟩)
    · exact hd
    · exact hparts _ hy x hx

theorem throughout_of_parts_eq_nil {P : Datum → Prop} {d : Datum} (h : d.parts = []) :
    d.Throughout P ↔ P d := by
  rw [throughout_iff, h]
  simp

/-! ## What is admitted -/

/-- The text that a value is. -/
def text? : Datum → Option Text
  | text t => some t
  | _ => none

/-- Whether a value is text that has no surrogates. -/
def Plain (d : Datum) : Prop :=
  ∃ t, d = text t ∧ ∀ p ∈ t, p.isSurrogate = false

theorem plain_iff {d : Datum} : d.Plain ↔ ∃ s, d = ofString s := by
  constructor
  · rintro ⟨t, rfl, ht⟩
    obtain ⟨s, rfl⟩ := Text.exists_eq_ofString_iff.2 ht
    exact ⟨s, rfl⟩
  · rintro ⟨s, rfl⟩
    exact ⟨_, rfl, Text.exists_eq_ofString_iff.1 ⟨s, rfl⟩⟩

/-- Whether JSON has a value, whatever the parts of the value are. -/
def Admitted : Datum → Prop
  | null => True
  | bool _ => True
  | int n => -0x8000000000000000 ≤ n ∧ n ≤ 0xFFFFFFFFFFFFFFFF
  | real x => ∃ y, x = .finite y
  | text t => ∀ p ∈ t, p.isSurrogate = false
  | list _ => True
  | tuple _ => True
  | table entries => ∀ e ∈ entries, e.1.Plain
  | octets _ => False
  | action _ => False
  | foreign _ => False

mutual

/-- **A value has a normal form exactly if JSON has every value that stands in it.** -/
theorem exists_normalize_iff : ∀ d : Datum,
    (∃ v, normalize d = .ok v) ↔ d.Throughout Admitted
  | null => by
    rw [throughout_of_parts_eq_nil rfl]
    simp [normalize, Admitted]
  | bool b => by
    rw [throughout_of_parts_eq_nil rfl]
    simp [normalize, Admitted]
  | int n => by
    have hfits : Json.fits n = true ↔ Admitted (int n) := by
      rw [Json.fits, Admitted, Bool.and_eq_true, decide_eq_true_eq, decide_eq_true_eq]
      omega
    rw [throughout_of_parts_eq_nil rfl, ← hfits]
    simp [normalize_int_eq_ok_iff]
  | real x => by
    rw [throughout_of_parts_eq_nil rfl, Admitted]
    simp [normalize_real_eq_ok_iff, @exists_comm Json]
  | text t => by
    rw [throughout_of_parts_eq_nil rfl, Admitted, ← Text.exists_eq_ofString_iff]
    simp [normalize_text_eq_ok_iff, @exists_comm Json]
  | list items => by
    rw [throughout_iff, Admitted, true_and, parts, ← exists_normalizeItems_iff items]
    simp [normalize_list_eq_ok_iff, @exists_comm Json]
  | tuple items => by
    rw [throughout_iff, Admitted, true_and, parts, ← exists_normalizeItems_iff items,
      normalize_tuple]
    simp [normalize_list_eq_ok_iff, @exists_comm Json]
  | table entries => by
    rw [throughout_iff, Admitted, parts, List.forall_mem_map,
      ← exists_normalizeEntries_iff [] entries]
    simp [normalize_table_eq_ok_iff, @exists_comm Json]
  | octets bs => by
    rw [throughout_of_parts_eq_nil rfl]
    simp [normalize, Admitted]
  | action a => by
    rw [throughout_of_parts_eq_nil rfl]
    simp [normalize, Admitted]
  | foreign name => by
    rw [throughout_of_parts_eq_nil rfl]
    simp [normalize, Admitted]

/-- Items have normal forms exactly if JSON has every value that stands in them. -/
theorem exists_normalizeItems_iff : ∀ xs : List Datum,
    (∃ vs, normalizeItems xs = .ok vs) ↔ ∀ x ∈ xs, x.Throughout Admitted
  | [] => by simp [normalizeItems]
  | x :: xs => by
    rw [List.forall_mem_cons, ← exists_normalize_iff x, ← exists_normalizeItems_iff xs]
    simp only [normalizeItems_cons_eq_ok_iff]
    constructor
    · rintro ⟨_, v, ws, hv, hws, rfl⟩
      exact ⟨⟨v, hv⟩, ws, hws⟩
    · rintro ⟨⟨v, hv⟩, ws, hws⟩
      exact ⟨_, v, ws, hv, hws, rfl⟩

/-- Entries have normal forms exactly if their keys are text without surrogates and JSON has every
value that stands in their values, whatever entries are there already. -/
theorem exists_normalizeEntries_iff : ∀ (done : List (String × Json)) (xs : List (Datum × Datum)),
    (∃ es, normalizeEntries done xs = .ok es) ↔
      (∀ e ∈ xs, e.1.Plain) ∧ ∀ e ∈ xs, e.2.Throughout Admitted
  | done, [] => by simp [normalizeEntries]
  | done, (k, x) :: xs => by
    rw [List.forall_mem_cons, List.forall_mem_cons, ← exists_normalize_iff x]
    simp only [normalizeEntries_cons_eq_ok_iff]
    constructor
    · rintro ⟨es, key, v, rfl, hv, hes⟩
      obtain ⟨hkeys, hvalues⟩ := (exists_normalizeEntries_iff _ xs).1 ⟨es, hes⟩
      exact ⟨⟨plain_iff.2 ⟨key, rfl⟩, hkeys⟩, ⟨v, hv⟩, hvalues⟩
    · rintro ⟨⟨hk, hkeys⟩, ⟨v, hv⟩, hvalues⟩
      obtain ⟨key, rfl⟩ := plain_iff.1 hk
      obtain ⟨es, hes⟩ := (exists_normalizeEntries_iff (Json.put key v done) xs).2 ⟨hkeys, hvalues⟩
      exact ⟨es, key, v, rfl, hv, hes⟩

end

/-! ## What is stored -/

mutual

/-- The value with a list in place of every tuple. -/
def listed : Datum → Datum
  | list items => list (listedItems items)
  | tuple items => list (listedItems items)
  | table entries => table (listedEntries entries)
  | d => d

def listedItems : List Datum → List Datum
  | [] => []
  | x :: xs => listed x :: listedItems xs

def listedEntries : List (Datum × Datum) → List (Datum × Datum)
  | [] => []
  | (k, x) :: es => (k, listed x) :: listedEntries es

end

/-- The texts that are keys of a table. -/
def textKeys (es : List (Datum × Datum)) : List Text :=
  es.filterMap (·.1.text?)

mutual

/-- Whether no table in a value has a text for a key twice. -/
def distinct : Datum → Bool
  | list items => distinctItems items
  | tuple items => distinctItems items
  | table entries => decide (textKeys entries).Nodup && distinctEntries entries
  | _ => true

def distinctItems : List Datum → Bool
  | [] => true
  | x :: xs => distinct x && distinctItems xs

def distinctEntries : List (Datum × Datum) → Bool
  | [] => true
  | (_, x) :: es => distinct x && distinctEntries es

end

theorem ofEntries_append (es fs : List (String × Json)) :
    ofEntries (es ++ fs) = ofEntries es ++ ofEntries fs := by
  induction es with
  | nil => rfl
  | cons e es ih =>
    obtain ⟨k, v⟩ := e
    rw [List.cons_append, ofEntries, ofEntries, ih, List.cons_append]

theorem textKeys_ofEntries (es : List (String × Json)) :
    textKeys (ofEntries es) = es.map (Text.ofString ·.1) := by
  induction es with
  | nil => rfl
  | cons e es ih =>
    obtain ⟨k, v⟩ := e
    rw [ofEntries, List.map_cons, ← ih]
    rfl

theorem put_of_nodup_textKeys {key : String} {x : Datum} {done : List (String × Json)}
    {xs : List (Datum × Datum)} (h : (textKeys (ofEntries done ++ (ofString key, x) :: xs)).Nodup)
    (v : Json) : Json.put key v done = done ++ [(key, v)] := by
  rw [textKeys, List.filterMap_append, ← textKeys, ← textKeys, textKeys_ofEntries] at h
  have hfresh : Text.ofString key ∉ done.map (Text.ofString ·.1) := by
    intro hmem
    exact (List.nodup_append.1 h).2.2 _ hmem _ (List.mem_cons_self ..) rfl
  refine Json.put_of_not_mem (fun hmem => hfresh ?_) v
  obtain ⟨e, he, rfl⟩ := List.mem_map.1 hmem
  exact List.mem_map_of_mem he

mutual

/-- **The normal form of a value is the value with a list in place of every tuple.** -/
theorem ofJson_of_normalize : ∀ {d : Datum} {v : Json}, d.distinct = true →
    normalize d = .ok v → ofJson v = d.listed
  | null, _, _, h => by cases h; rfl
  | bool _, _, _, h => by cases h; rfl
  | int n, _, _, h => by
    obtain ⟨-, rfl⟩ := normalize_int_eq_ok_iff.1 h
    rfl
  | real x, _, _, h => by
    obtain ⟨y, rfl, rfl⟩ := normalize_real_eq_ok_iff.1 h
    rfl
  | text t, _, _, h => by
    obtain ⟨s, rfl, rfl⟩ := normalize_text_eq_ok_iff.1 h
    rfl
  | list items, _, hd, h => by
    obtain ⟨vs, hvs, rfl⟩ := normalize_list_eq_ok_iff.1 h
    rw [ofJson, listed, ofItems_of_normalizeItems hd hvs]
  | tuple items, _, hd, h => by
    rw [normalize_tuple] at h
    obtain ⟨vs, hvs, rfl⟩ := normalize_list_eq_ok_iff.1 h
    rw [ofJson, listed, ofItems_of_normalizeItems hd hvs]
  | table entries, _, hd, h => by
    rw [distinct, Bool.and_eq_true, decide_eq_true_eq] at hd
    obtain ⟨es, hes, rfl⟩ := normalize_table_eq_ok_iff.1 h
    rw [ofJson, listed, ofEntries_of_normalizeEntries [] hd.1 hd.2 hes]
    rfl
  | octets _, _, _, h => by cases h
  | action _, _, _, h => by cases h
  | foreign _, _, _, h => by cases h

theorem ofItems_of_normalizeItems : ∀ {xs : List Datum} {vs : List Json},
    distinctItems xs = true → normalizeItems xs = .ok vs → ofItems vs = listedItems xs
  | [], _, _, h => by cases h; rfl
  | x :: xs, _, hd, h => by
    rw [distinctItems, Bool.and_eq_true] at hd
    obtain ⟨w, ws, hw, hws, rfl⟩ := normalizeItems_cons_eq_ok_iff.1 h
    rw [ofItems, listedItems, ofJson_of_normalize hd.1 hw, ofItems_of_normalizeItems hd.2 hws]

/-- The normal forms of entries are the entries with a list in place of every tuple, behind those
that are there already. -/
theorem ofEntries_of_normalizeEntries : ∀ {xs : List (Datum × Datum)} {es : List (String × Json)}
    (done : List (String × Json)), (textKeys (ofEntries done ++ xs)).Nodup →
    distinctEntries xs = true → normalizeEntries done xs = .ok es →
    ofEntries es = ofEntries done ++ listedEntries xs
  | [], _, _, _, _, h => by
    cases h
    exact (List.append_nil _).symm
  | (k, x) :: xs, es, done, hkeys, hd, h => by
    rw [distinctEntries, Bool.and_eq_true] at hd
    obtain ⟨key, w, rfl, hw, hes⟩ := normalizeEntries_cons_eq_ok_iff.1 h
    rw [put_of_nodup_textKeys hkeys w] at hes
    have hdone : ofEntries (done ++ [(key, w)]) =
        ofEntries done ++ [(ofString key, x.listed)] := by
      rw [ofEntries_append, ofEntries, ofEntries, ofJson_of_normalize hd.1 hw]
    have hkeys' : (textKeys (ofEntries (done ++ [(key, w)]) ++ xs)).Nodup := by
      rw [hdone, ← List.append_cons]
      simpa [textKeys, text?, ofString] using hkeys
    rw [ofEntries_of_normalizeEntries _ hkeys' hd.2 hes, hdone, listedEntries, ← List.append_cons]

end

theorem listedItems_eq_map (xs : List Datum) : listedItems xs = xs.map listed := by
  induction xs with
  | nil => rfl
  | cons x xs ih => rw [listedItems, List.map_cons, ih]

theorem values_listedEntries (es : List (Datum × Datum)) :
    (listedEntries es).map Prod.snd = (es.map Prod.snd).map listed := by
  induction es with
  | nil => rfl
  | cons e es ih =>
    obtain ⟨k, x⟩ := e
    rw [listedEntries, List.map_cons, List.map_cons, List.map_cons, ih]

theorem parts_listed (d : Datum) : d.listed.parts = d.parts.map listed := by
  cases d with
  | list items => exact listedItems_eq_map items
  | tuple items => exact listedItems_eq_map items
  | table entries => exact values_listedEntries entries
  | _ => rfl

/-- What stands in a value with lists for tuples is such a value itself. -/
theorem exists_eq_listed_of_node {x d' : Datum} (h : Node x d') :
    ∀ d : Datum, d' = d.listed → ∃ y : Datum, x = y.listed := by
  induction h with
  | self => exact fun d hd => ⟨d, hd⟩
  | part hy _ ih =>
    rintro d rfl
    rw [parts_listed] at hy
    obtain ⟨y, -, rfl⟩ := List.mem_map.1 hy
    exact ih y rfl

/-- **No tuple is left** in a value with lists for tuples. -/
theorem not_node_tuple_listed (items : List Datum) (d : Datum) : ¬ Node (tuple items) d.listed := by
  intro h
  obtain ⟨y, hy⟩ := exists_eq_listed_of_node h d rfl
  cases y <;> cases hy

end Datum

/-! ## Documents -/

namespace Document

/-- **A document stands for a value exactly if JSON has every value that stands in it.** -/
theorem exists_ofDatum_iff {d : Datum} :
    (∃ doc, ofDatum d = .ok doc) ↔ d.Throughout Datum.Admitted := by
  rw [← Datum.exists_normalize_iff]
  constructor
  · rintro ⟨doc, h⟩
    exact ⟨doc.json, ofDatum_eq_ok_iff.1 h⟩
  · rintro ⟨v, h⟩
    exact ⟨⟨v, Datum.storable_of_normalize h⟩, ofDatum_eq_ok_iff.2 h⟩

end Document

namespace Message

/-- The message that carries a document is built as the document is. -/
theorem build?_messagePush (d : Datum) :
    build? .notices (Text.ofString "MessagePush") [("message", d)] =
      some (match Document.ofDatum d with
        | .ok doc => .ok (.notice (.messagePush doc))
        | .error cause => .error (.invalid ⟨"MessagePush", "message", .document cause⟩)) := by
  have hname : build? .notices (Text.ofString (Notices.name NoticeTag.messagePush))
      [("message", d)] = some ((Notices.build NoticeTag.messagePush [("message", d)]).map
        (notice ∘ Notice.ofVariant)) := build?_name _
  refine hname.trans (congrArg some ?_)
  have hdeclared : ∀ e ∈ [("message", d)], ∃ g ∈ Notices.fields NoticeTag.messagePush,
      g.name = e.1 := by
    intro e he
    rw [List.mem_singleton.1 he]
    exact ⟨_, List.mem_singleton_self _, rfl⟩
  have hcollect : Draft.collect (Json.find? · [("message", d)])
      (Notices.fields NoticeTag.messagePush) = .ok (d, ()) := by
    show Draft.collect _ [.required "message" .document] = _
    rw [Draft.collect, Field.name, Json.find?_cons, if_pos rfl]
    rfl
  have hfield : (Field.required "message" .document).check d =
      match Document.ofDatum d with
      | .ok doc => .ok doc
      | .error cause => .error (.document cause) := rfl
  cases hdoc : Document.ofDatum d with
  | ok doc =>
    rw [hdoc] at hfield
    rw [Family.build_eq_ok hdeclared hcollect (Record.check_of_check hfield rfl)]
    rfl
  | error cause =>
    rw [hdoc] at hfield
    rw [Family.build_eq_error hdeclared hcollect (Record.check_of_error hfield)]
    rfl

/-- **Exactly JSON is accepted, and normalized once.**  The message that carries a document is built
of a value exactly if JSON has every value that stands in it.  If no table in the value has a text
for a key twice, the message then holds the value with a list in place of every tuple; no tuple is
left, and the message built of what it holds is the same.  Of any other value no message is built,
and the error names the field in front of the cause. -/
theorem messagePush_stored (d : Datum) :
    let push x := build? .notices (Text.ofString "MessagePush") [("message", x)]
    ((∃ m, push d = some (.ok m)) ↔ d.Throughout Datum.Admitted) ∧
    (∀ m, d.distinct = true → push d = some (.ok m) →
      m.values = [("message", d.listed)] ∧ (∀ items, ¬ Datum.Node (.tuple items) d.listed) ∧
        push d.listed = some (.ok m)) ∧
    (¬ d.Throughout Datum.Admitted → ∃ cause : DocumentFault,
      let fault : BuildError := .invalid ⟨"MessagePush", "message", .document cause⟩
      push d = some (.error fault) ∧ fault.text = "MessagePush.message: " ++ cause.text) := by
  intro push
  have hpush : ∀ x, push x = _ := build?_messagePush
  refine ⟨?_, fun m hd hm => ?_, fun hd => ?_⟩
  · rw [← Document.exists_ofDatum_iff, hpush]
    cases Document.ofDatum d <;> simp
  · rw [hpush] at hm
    cases hdoc : Document.ofDatum d with
    | error cause =>
      rw [hdoc] at hm
      cases hm
    | ok doc =>
      rw [hdoc] at hm
      cases hm
      have hlisted : Datum.ofJson doc.json = d.listed :=
        Datum.ofJson_of_normalize hd (Document.ofDatum_eq_ok_iff.1 hdoc)
      rw [hpush, ← hlisted, Document.ofDatum_ofJson]
      refine ⟨rfl, fun items => ?_, rfl⟩
      rw [hlisted]
      exact Datum.not_node_tuple_listed items d
  · cases hdoc : Document.ofDatum d with
    | ok doc => exact absurd (Document.exists_ofDatum_iff.1 ⟨doc, hdoc⟩) hd
    | error cause =>
      refine ⟨cause, ?_, rfl⟩
      rw [hpush, hdoc]

/-- Tuples at several depths, one of them in a table whose keys are out of order: all become lists,
and the rest stays as it is. -/
theorem messagePush_stored_nested :
    let d := Datum.tuple [.int 1, .tuple [.int (-3), .bool true],
      .table [(.ofString "z", .tuple [.real (.finite (.zero true))]), (.ofString "a", .null)]]
    let stored := Datum.list [.int 1, .list [.int (-3), .bool true],
      .table [(.ofString "z", .list [.real (.finite (.zero true))]), (.ofString "a", .null)]]
    d.distinct = true ∧ ∃ m,
      build? .notices (Text.ofString "MessagePush") [("message", d)] = some (.ok m) ∧
        m.values = [("message", stored)] ∧
        build? .notices (Text.ofString "MessagePush") [("message", stored)] = some (.ok m) := by
  intro d stored
  have hd : d.distinct = true := by decide
  obtain ⟨haccepted, hstored, -⟩ := messagePush_stored d
  obtain ⟨m, hm⟩ := haccepted.2 ((Datum.exists_normalize_iff d).1 ⟨_, rfl⟩)
  obtain ⟨hvalues, -, hagain⟩ := hstored m hd hm
  exact ⟨hd, m, hm, hvalues, hagain⟩

end Message

end KeyControl
