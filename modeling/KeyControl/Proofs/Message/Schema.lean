import KeyControl.Proofs.Message.RoundTrip
import KeyControl.Proofs.Wire.Decoding

/-!
# Which JSON values are messages

Reading accepts exactly the values that a schema describes.  A value of a kind is its form on the
wire and nothing else (`Kind.check_ofJson_iff`).  The fields of a message may stand among others, in
any order, and an optional one may be null; what counts is the body after `reduce`, which keeps the
declared fields in the order of declaration and leaves out the optional ones that are null.  It has
to be what the message is written as (`Record.isRead_iff`).

`Variant.Tagged` and `Variant.WithStatus` describe the two forms, `Message.SpelledBy` says which of
them applies to a message, and `Message.reads_exactly` puts everything together: a JSON value
without double keys is read as a message exactly if the message is spelled by it, and a value that
spells none is an error.
-/

namespace KeyControl

/-! ## Kinds -/

namespace Json

mutual

/-- Whether no object in a value has a key twice. -/
def distinct : Json → Bool
  | .arr items => distinctItems items
  | .obj entries => decide (entries.map Prod.fst).Nodup && distinctEntries entries
  | _ => true

def distinctItems : List Json → Bool
  | [] => true
  | v :: vs => distinct v && distinctItems vs

def distinctEntries : List (String × Json) → Bool
  | [] => true
  | (_, v) :: es => distinct v && distinctEntries es

end

theorem distinct_of_find? (key : String) {v : Json} {es : List (String × Json)}
    (hes : distinctEntries es = true) (h : find? key es = some v) : v.distinct = true := by
  induction es with
  | nil => cases h
  | cons e es ih =>
    obtain ⟨k, w⟩ := e
    rw [distinctEntries, Bool.and_eq_true] at hes
    rw [find?_cons] at h
    split at h
    · cases h
      exact hes.1
    · exact ih hes.2 h

end Json

namespace Datum

mutual

/-- **A value without double keys is its own normal form**, if it has one. -/
theorem eq_of_normalize_ofJson : ∀ {v w : Json}, v.distinct = true →
    normalize (ofJson v) = .ok w → w = v
  | .null, _, _, h => by cases h; rfl
  | .bool _, _, _, h => by cases h; rfl
  | .int n, _, _, h => (normalize_int_eq_ok_iff.1 h).2
  | .num _, _, _, h => by cases h; rfl
  | .str s, _, _, h => by
    obtain ⟨t, ht, rfl⟩ := normalize_text_eq_ok_iff.1 h
    rw [Text.ofString_injective ht]
  | .arr vs, _, hv, h => by
    obtain ⟨ws, hws, rfl⟩ := normalize_list_eq_ok_iff.1 h
    rw [eq_of_normalizeItems_ofItems hv hws]
  | .obj es, _, hv, h => by
    rw [Json.distinct, Bool.and_eq_true, decide_eq_true_eq] at hv
    obtain ⟨fs, hfs, rfl⟩ := normalize_table_eq_ok_iff.1 h
    rw [eq_of_normalizeEntries_ofEntries [] hv.1 hv.2 hfs, List.nil_append]

theorem eq_of_normalizeItems_ofItems : ∀ {vs ws : List Json}, Json.distinctItems vs = true →
    normalizeItems (ofItems vs) = .ok ws → ws = vs
  | [], _, _, h => by cases h; rfl
  | v :: vs, _, hv, h => by
    rw [Json.distinctItems, Bool.and_eq_true] at hv
    obtain ⟨w, ws, hw, hws, rfl⟩ := normalizeItems_cons_eq_ok_iff.1 h
    rw [eq_of_normalize_ofJson hv.1 hw, eq_of_normalizeItems_ofItems hv.2 hws]

theorem eq_of_normalizeEntries_ofEntries : ∀ {es fs : List (String × Json)}
    (done : List (String × Json)), ((done ++ es).map Prod.fst).Nodup →
    Json.distinctEntries es = true → normalizeEntries done (ofEntries es) = .ok fs → fs = done ++ es
  | [], _, done, _, _, h => by
    cases h
    exact (List.append_nil _).symm
  | (k, v) :: es, _, done, hkeys, hv, h => by
    rw [Json.distinctEntries, Bool.and_eq_true] at hv
    obtain ⟨key, w, hkey, hw, hfs⟩ := normalizeEntries_cons_eq_ok_iff.1 h
    obtain rfl := Text.ofString_injective (text.inj hkey)
    rw [eq_of_normalize_ofJson hv.1 hw, Json.put_eq_append_of_nodup hkeys] at hfs
    rw [List.append_cons] at hkeys ⊢
    exact eq_of_normalizeEntries_ofEntries _ hkeys hv.2 hfs

end

end Datum

theorem Datum.eq_str_of_ofJson {v : Json} {s : String} (h : ofJson v = ofString s) : v = .str s := by
  cases v with
  | str t => rw [Text.ofString_injective (Datum.text.inj h)]
  | _ => cases h

namespace Kind

theorem eq_of_checkText_ofJson {j : Json} {s : String} (h : checkText (Datum.ofJson j) = .ok s) :
    .str s = j :=
  (Datum.eq_str_of_ofJson (checkText_eq_ok_iff.1 h)).symm

theorem eq_of_checkAction_ofJson {j : Json} {a : Action}
    (h : checkAction (Datum.ofJson j) = .ok a) : .str a.name = j := by
  cases j with
  | str t =>
    rw [Datum.ofJson, Datum.ofString, checkAction, Text.toString?_ofString] at h
    dsimp only at h
    split at h
    · next b hb =>
      cases h
      rw [Action.name_of_ofName? hb]
    · cases h
  | _ => cases h

theorem eq_of_checkWord_ofJson {α : Type} {kind : Kind} {greatest : Nat} {ofNat : Nat → α}
    {toNat : α → Nat} (hword : ∀ n ≤ greatest, toNat (ofNat n) = n) {j : Json} {v : α}
    (h : (checkWord kind greatest (Datum.ofJson j)).map ofNat = .ok v) : .int (toNat v) = j := by
  have hd := eq_of_checkWord hword h
  cases j with
  | int i => exact congrArg Json.int (Datum.int.inj hd).symm
  | _ => cases hd

theorem eq_of_checkItems_ofItems : ∀ {vs : List Json} {ss : List String},
    checkItems (Datum.ofItems vs) = .ok ss → ss.map .str = vs
  | [], _, h => by
    cases h
    rfl
  | v :: vs, _, h => by
    rw [Datum.ofItems, checkItems] at h
    split at h
    · cases h
    · next s hs =>
      split at h
      · cases h
      · next ss hss =>
        cases h
        rw [List.map_cons, eq_of_checkText_ofJson hs, eq_of_checkItems_ofItems hss]

/-- What passes as a value of a kind is the form of that value on the wire. -/
theorem toJson_of_check_ofJson {k : Kind} {j : Json} (hj : j.distinct = true) {v : k.Carrier}
    (h : k.check (Datum.ofJson j) = .ok v) : k.toJson v = j := by
  cases k with
  | text => exact eq_of_checkText_ofJson h
  | action => exact eq_of_checkAction_ofJson h
  | word16 =>
    exact eq_of_checkWord_ofJson (fun n hn => UInt16.toNat_ofNat_of_lt' (Nat.lt_succ_of_le hn)) h
  | word64 =>
    exact eq_of_checkWord_ofJson (fun n hn => UInt64.toNat_ofNat_of_lt' (Nat.lt_succ_of_le hn)) h
  | flag =>
    cases j with
    | bool b =>
      cases h
      rfl
    | _ => cases h
  | texts =>
    cases j with
    | arr vs => exact congrArg Json.arr (eq_of_checkItems_ofItems h)
    | _ => cases h
  | document =>
    obtain ⟨json, hstorable⟩ := v
    replace h : checkDocument (Datum.ofJson j) = .ok ⟨json, hstorable⟩ := h
    rw [checkDocument] at h
    split at h
    · next doc hdoc =>
      cases h
      exact Datum.eq_of_normalize_ofJson hj (Document.ofDatum_eq_ok_iff.1 hdoc)
    · cases h

/-- **A JSON value passes as a value of a kind exactly if it is the form of that value on the
wire.** -/
theorem check_ofJson_iff {k : Kind} {j : Json} (hj : j.distinct = true) {v : k.Carrier} :
    k.check (Datum.ofJson j) = .ok v ↔ k.toJson v = j := by
  constructor
  · exact toJson_of_check_ofJson hj
  · rintro rfl
    exact k.check_toJson v

end Kind

/-! ## Fields and records -/

namespace Field

/-- The value that entries have for a field.  For an optional field, null is none. -/
def kept? (f : Field) (entries : List (String × Json)) : Option Json :=
  match Json.find? f.name entries with
  | some v => if f.isOptional = true ∧ v = .null then none else some v
  | none => none

/-- The unchecked value that is looked up for a field: null, if an optional field has none. -/
def given? (f : Field) (entries : List (String × Json)) : Option Datum :=
  match Json.find? f.name entries with
  | some v => some (Datum.ofJson v)
  | none => if f.isOptional then some .null else none

theorem isNull_ofJson {v : Json} (h : v ≠ .null) : (Datum.ofJson v).isNull = false := by
  cases v with
  | null => exact absurd rfl h
  | _ => rfl

/-- **A field is read from entries exactly if they have for it what its value is written as.** -/
theorem check_given?_iff {f : Field} {entries : List (String × Json)}
    (hentries : Json.distinctEntries entries = true) {v : f.Carrier} :
    (∃ d, f.given? entries = some d ∧ f.check d = .ok v) ↔ f.kept? entries = f.toJson? v := by
  rw [given?, kept?]
  cases hfind : Json.find? f.name entries with
  | none =>
    cases f with
    | required name k => simp [isOptional, toJson?]
    | optional name k => cases v <;> simp [isOptional, toJson?, check, Datum.isNull]
  | some j =>
    have hj := Json.distinct_of_find? f.name hentries hfind
    have hgiven : (∃ d, some (Datum.ofJson j) = some d ∧ f.check d = .ok v) ↔
        f.check (Datum.ofJson j) = .ok v := by
      simp
    dsimp only
    rw [hgiven]
    cases f with
    | required name k =>
      show k.check (Datum.ofJson j) = .ok v ↔ some j = some (k.toJson v)
      rw [Kind.check_ofJson_iff hj, Option.some.injEq, eq_comm]
    | optional name k =>
      show (if (Datum.ofJson j).isNull then .ok none else (k.check (Datum.ofJson j)).map some) =
        .ok v ↔ (if true = true ∧ j = .null then none else some j) = v.map k.toJson
      by_cases hnull : j = .null
      · have hnone : (Datum.ofJson .null).isNull = true := rfl
        rw [hnull, if_pos hnone, if_pos ⟨rfl, rfl⟩]
        cases v <;> simp
      · rw [isNull_ofJson hnull, if_neg Bool.false_ne_true, if_neg fun h => hnull h.2]
        cases v with
        | none => cases k.check (Datum.ofJson j) <;> simp [Except.map]
        | some w =>
          rw [Option.map_some, Option.some.injEq, eq_comm (a := j), ← Kind.check_ofJson_iff hj]
          cases k.check (Datum.ofJson j) <;> simp [Except.map]

end Field

namespace Record

/-- The declared ones among entries, in the order of declaration, without optional ones that are
null. -/
def reduce (fs : List Field) (entries : List (String × Json)) : List (String × Json) :=
  fs.filterMap fun f => (f.kept? entries).map (f.name, ·)

theorem keys_reduce_subset (fs : List Field) (es : List (String × Json)) :
    (reduce fs es).map Prod.fst ⊆ fs.map Field.name := by
  intro key hkey
  obtain ⟨e, he, rfl⟩ := List.mem_map.1 hkey
  obtain ⟨f, hf, hfe⟩ := List.mem_filterMap.1 he
  obtain ⟨v, -, rfl⟩ := Option.map_eq_some_iff.1 hfe
  exact List.mem_map_of_mem hf

theorem reduce_cons (f : Field) (fs : List Field) (es : List (String × Json)) :
    reduce (f :: fs) es = ((f.kept? es).map (f.name, ·)).toList ++ reduce fs es := by
  rw [reduce, List.filterMap_cons]
  cases f.kept? es with
  | none => rfl
  | some v => rfl

theorem entries_cons (f : Field) (fs : List Field) (v : f.Carrier) (vs : Record fs) :
    entries (f :: fs) (v, vs) = ((f.toJson? v).map (f.name, ·)).toList ++ entries fs vs := by
  rw [entries]
  cases f.toJson? v with
  | none => rfl
  | some j => rfl

/-- Entries whose other keys differ from the first are equal part by part. -/
theorem toList_append_inj {name : String} {o o' : Option Json} {es es' : List (String × Json)}
    (h : name ∉ es.map Prod.fst) (h' : name ∉ es'.map Prod.fst) :
    (o.map (name, ·)).toList ++ es = (o'.map (name, ·)).toList ++ es' ↔ o = o' ∧ es = es' := by
  constructor
  · intro heq
    cases o with
    | none =>
      cases o' with
      | none => exact ⟨rfl, heq⟩
      | some j =>
        replace heq : es = (name, j) :: es' := heq
        rw [heq] at h
        exact absurd List.mem_cons_self h
    | some i =>
      cases o' with
      | none =>
        replace heq : (name, i) :: es = es' := heq
        rw [← heq] at h'
        exact absurd List.mem_cons_self h'
      | some j =>
        obtain ⟨hhead, rfl⟩ := List.cons.inj heq
        exact ⟨congrArg some (Prod.mk.inj hhead).2, rfl⟩
  · rintro ⟨rfl, rfl⟩
    rfl

/-- Look up the declared fields and check what is found. -/
def IsRead (find : String → Option Datum) (fs : List Field) (r : Record fs) : Prop :=
  ∃ draft, Draft.collect find fs = .ok draft ∧ check fs draft = .ok r

theorem map_mk_eq_ok_iff {α β ε : Type} {a c : α} {d : β} {x : Except ε β} :
    x.map (a, ·) = .ok (c, d) ↔ a = c ∧ x = .ok d := by
  cases x with
  | error e => simp [Except.map]
  | ok b => simp [Except.map]

theorem collect_cons_iff {es : List (String × Json)} {f : Field} {fs : List Field} {d : Datum}
    {ds : Draft fs} :
    Draft.collect (fun name => (Json.find? name es).map Datum.ofJson) (f :: fs) = .ok (d, ds) ↔
      f.given? es = some d ∧
        Draft.collect (fun name => (Json.find? name es).map Datum.ofJson) fs = .ok ds := by
  rw [Draft.collect, Field.given?]
  cases Json.find? f.name es with
  | some j =>
    dsimp only [Option.map_some]
    rw [Option.some.injEq]
    exact map_mk_eq_ok_iff
  | none =>
    dsimp only [Option.map_none]
    cases f.isOptional with
    | false => simp
    | true =>
      rw [if_pos rfl, if_pos rfl, Option.some.injEq]
      exact map_mk_eq_ok_iff

theorem check_cons_iff {f : Field} {fs : List Field} {d : Datum} {ds : Draft fs} {v : f.Carrier}
    {vs : Record fs} :
    check (f :: fs) (d, ds) = .ok (v, vs) ↔ f.check d = .ok v ∧ check fs ds = .ok vs := by
  rw [check]
  cases f.check d with
  | error fault => simp
  | ok w =>
    rw [Except.ok.injEq]
    exact map_mk_eq_ok_iff

/-- **The fields of a record are read from entries exactly if these reduce to what the record is
written as.** -/
theorem isRead_iff {es : List (String × Json)} (hes : Json.distinctEntries es = true) :
    ∀ {fs : List Field} {r : Record fs}, (fs.map Field.name).Nodup →
      (IsRead (fun name => (Json.find? name es).map Datum.ofJson) fs r ↔
        reduce fs es = entries fs r)
  | [], _, _ => ⟨fun _ => rfl, fun _ => ⟨(), rfl, rfl⟩⟩
  | f :: fs, (v, vs), hnames => by
    rw [List.map_cons, List.nodup_cons] at hnames
    have hunkept : f.name ∉ (reduce fs es).map Prod.fst := fun h =>
      hnames.1 (keys_reduce_subset fs es h)
    have hunset : f.name ∉ (entries fs vs).map Prod.fst := fun h =>
      hnames.1 ((keys_entries_sublist fs vs).subset h)
    rw [reduce_cons, entries_cons, toList_append_inj hunkept hunset, ← isRead_iff hes hnames.2,
      ← Field.check_given?_iff hes]
    constructor
    · rintro ⟨⟨d, ds⟩, hcollect, hcheck⟩
      obtain ⟨hgiven, hcollect⟩ := collect_cons_iff.1 hcollect
      obtain ⟨hv, hcheck⟩ := check_cons_iff.1 hcheck
      exact ⟨⟨d, hgiven, hv⟩, ds, hcollect, hcheck⟩
    · rintro ⟨⟨d, hgiven, hv⟩, ds, hcollect, hcheck⟩
      exact ⟨(d, ds), collect_cons_iff.2 ⟨hgiven, hcollect⟩, check_cons_iff.2 ⟨hv, hcheck⟩⟩

end Record

/-! ## Families -/

namespace Variant

variable {F : Family}

/-- The values that are a variant in the tagged form: the bare tag or the tag with null, if the
variant declares no fields, and else the tag with a body that reduces to what the variant is written
as. -/
inductive Tagged (v : Variant F) : Json → Prop where
  | bare (hunit : F.isUnit v.tag = true) : Tagged v (.str (F.name v.tag))
  | null (hunit : F.isUnit v.tag = true) : Tagged v (.obj [(F.name v.tag, .null)])
  | body (hunit : F.isUnit v.tag = false) (entries : List (String × Json))
    (hentries : Record.reduce (F.fields v.tag) entries = v.entries) :
    Tagged v (.obj [(F.name v.tag, .obj entries)])

/-- The values that are a variant in the status form: objects with the tag as their status that
reduce to what the variant is written as. -/
inductive WithStatus (v : Variant F) : Json → Prop where
  | object (entries : List (String × Json))
    (hstatus : Json.find? statusKey entries = some (.str (F.name v.tag)))
    (hentries : Record.reduce (F.fields v.tag) entries = v.entries) :
    WithStatus v (.obj entries)

end Variant

namespace Family

variable {F : Family}

theorem tag_of_readFields {tag : F.Tag} {find : String → Option Datum} {v : Variant F}
    (h : F.readFields tag find = .ok v) : v.tag = tag := by
  rw [readFields] at h
  split at h
  · cases h
  · split at h
    · next hcheck =>
      cases h
      rw [check] at hcheck
      split at hcheck
      · cases hcheck
        rfl
      · cases hcheck
    · cases h

/-- The fields of a variant are read by reading its record. -/
theorem readFields_eq_ok_iff {v : Variant F} {find : String → Option Datum} :
    F.readFields v.tag find = .ok v ↔ Record.IsRead find (F.fields v.tag) v.record := by
  obtain ⟨tag, record⟩ := v
  rw [readFields]
  constructor
  · intro h
    split at h
    · cases h
    · next draft hdraft =>
      split at h
      · next hcheck =>
        cases h
        rw [check] at hcheck
        split at hcheck
        · next hrecord =>
          cases hcheck
          exact ⟨draft, hdraft, hrecord⟩
        · cases hcheck
      · cases h
  · rintro ⟨draft, hdraft, hrecord⟩
    dsimp only at hdraft hrecord ⊢
    rw [hdraft]
    dsimp only
    rw [check, hrecord]

namespace Lawful

variable (hF : F.Lawful)

include hF

/-- Only the name of a tag is read as that tag. -/
theorem readTag_eq_ok_iff {d : Datum} {tag : F.Tag} :
    F.readTag d = .ok tag ↔ d = Datum.ofString (F.name tag) := by
  constructor
  · intro h
    cases d with
    | text name =>
      rw [readTag] at h
      split at h
      · next found hfound =>
        cases h
        rw [ofName?] at hfound
        have hname := List.find?_some hfound
        rw [Datum.ofString, of_decide_eq_true hname]
      · cases h
    | _ => cases h
  · rintro rfl
    exact hF.readTag_name tag

theorem readFields_iff_of_isUnit {tag : F.Tag} (hunit : F.isUnit tag = true)
    {find : String → Option Datum} {v : Variant F} :
    F.readFields tag find = .ok v ↔ v.tag = tag := by
  constructor
  · exact tag_of_readFields
  · rintro rfl
    exact hF.readFields_of_isUnit find v hunit

/-- **The fields of a variant are read from entries exactly if these reduce to what the variant is
written as.** -/
theorem readFields_ofEntries_iff {es : List (String × Json)} (hes : Json.distinctEntries es = true)
    {tag : F.Tag} {v : Variant F} :
    F.readFields tag (fun name => Datum.lookup (Text.ofString name) (Datum.ofEntries es)) = .ok v ↔
      v.tag = tag ∧ Record.reduce (F.fields v.tag) es = v.entries := by
  have hread : F.readFields v.tag
      (fun name => Datum.lookup (Text.ofString name) (Datum.ofEntries es)) = .ok v ↔
        Record.reduce (F.fields v.tag) es = v.entries := by
    simp only [Datum.lookup_ofEntries]
    exact readFields_eq_ok_iff.trans (Record.isRead_iff hes (hF.nodup_names v.tag))
  constructor
  · intro h
    obtain rfl := tag_of_readFields h
    exact ⟨rfl, hread.1 h⟩
  · rintro ⟨rfl, h⟩
    exact hread.2 h

/-- A body is read as a variant exactly if it is null and there are no fields, or if it is an object
that reduces to what the variant is written as. -/
theorem readBody_ofJson_iff {body : Json} (hbody : body.distinct = true) {tag : F.Tag}
    {v : Variant F} :
    F.readBody tag (Datum.ofJson body) = .ok v ↔
      v.tag = tag ∧ (F.isUnit v.tag = true ∧ body = .null ∨ F.isUnit v.tag = false ∧
        ∃ es, body = .obj es ∧ Record.reduce (F.fields v.tag) es = v.entries) := by
  unfold readBody
  cases hunit : F.isUnit tag with
  | true =>
    rw [if_pos rfl]
    by_cases hnull : body = .null
    · have hisNull : (Datum.ofJson .null).isNull = true := rfl
      rw [hnull, if_pos hisNull, hF.readFields_iff_of_isUnit hunit]
      constructor
      · rintro rfl
        exact ⟨rfl, .inl ⟨hunit, rfl⟩⟩
      · exact And.left
    · rw [Field.isNull_ofJson hnull, if_neg Bool.false_ne_true]
      constructor
      · intro h
        cases h
      · rintro ⟨rfl, ⟨-, h⟩ | ⟨h, -⟩⟩
        · exact absurd h hnull
        · rw [hunit] at h
          cases h
  | false =>
    rw [if_neg Bool.false_ne_true]
    constructor
    · intro h
      cases body with
      | obj es =>
        rw [Json.distinct, Bool.and_eq_true] at hbody
        obtain ⟨rfl, hes⟩ := (hF.readFields_ofEntries_iff hbody.2).1 h
        exact ⟨rfl, .inr ⟨hunit, es, rfl, hes⟩⟩
      | _ => cases h
    · rintro ⟨rfl, ⟨h, -⟩ | ⟨-, es, rfl, hes⟩⟩
      · rw [hunit] at h
        cases h
      · rw [Json.distinct, Bool.and_eq_true] at hbody
        exact (hF.readFields_ofEntries_iff hbody.2).2 ⟨rfl, hes⟩

/-- **A value is read as a variant exactly if it is that variant in the tagged form.** -/
theorem readTagged_ofJson_iff {j : Json} (hj : j.distinct = true) {v : Variant F} :
    F.readTagged (Datum.ofJson j) = .ok v ↔ v.Tagged j := by
  constructor
  · intro h
    cases j with
    | str s =>
      rw [Datum.ofJson, Datum.ofString, readTagged] at h
      split at h
      · cases h
      · next tag htag =>
        obtain rfl := Text.ofString_injective (Datum.text.inj (hF.readTag_eq_ok_iff.1 htag))
        split at h
        · next hunit =>
          obtain rfl := (hF.readFields_iff_of_isUnit hunit).1 h
          exact .bare hunit
        · cases h
    | obj es =>
      rw [Json.distinct, Bool.and_eq_true] at hj
      rcases es with _ | ⟨⟨key, body⟩, _ | ⟨e, es⟩⟩
      · cases h
      · rw [Datum.ofJson, Datum.ofEntries, Datum.ofEntries, readTagged] at h
        split at h
        · cases h
        · next tag htag =>
          obtain rfl := Text.ofString_injective (Datum.text.inj (hF.readTag_eq_ok_iff.1 htag))
          have hbody : body.distinct = true := Json.distinct_of_find? (F.name tag) hj.2
            (if_pos rfl)
          obtain ⟨rfl, ⟨hunit, rfl⟩ | ⟨hunit, es, rfl, hes⟩⟩ := (hF.readBody_ofJson_iff hbody).1 h
          · exact .null hunit
          · exact .body hunit es hes
      · cases h
    | _ => cases h
  · intro h
    have htag := hF.readTag_name v.tag
    cases h with
    | bare hunit =>
      rw [Datum.ofString] at htag
      rw [Datum.ofJson, Datum.ofString, readTagged, htag]
      dsimp only
      rw [if_pos hunit]
      exact hF.readFields_of_isUnit _ v hunit
    | null hunit =>
      rw [Datum.ofJson, Datum.ofEntries, Datum.ofEntries, readTagged, htag]
      exact (hF.readBody_ofJson_iff rfl).2 ⟨rfl, .inl ⟨hunit, rfl⟩⟩
    | body hunit entries hentries =>
      have hbody : (Json.obj entries).distinct = true := by
        rw [Json.distinct, Bool.and_eq_true] at hj
        exact Json.distinct_of_find? (F.name v.tag) hj.2 (if_pos rfl)
      rw [Datum.ofJson, Datum.ofEntries, Datum.ofEntries, readTagged, htag]
      exact (hF.readBody_ofJson_iff hbody).2 ⟨rfl, .inr ⟨hunit, entries, rfl, hentries⟩⟩

/-- **A value is read as a variant exactly if it is that variant in the status form.** -/
theorem readStatus_ofJson_iff {j : Json} (hj : j.distinct = true) {v : Variant F} :
    F.readStatus (Datum.ofJson j) = .ok v ↔ v.WithStatus j := by
  constructor
  · intro h
    cases j with
    | obj es =>
      rw [Json.distinct, Bool.and_eq_true] at hj
      rw [Datum.ofJson, readStatus, Datum.lookup_ofEntries] at h
      split at h
      · cases h
      · next status hstatus =>
        obtain ⟨s, hfind, rfl⟩ := Option.map_eq_some_iff.1 hstatus
        split at h
        · cases h
        · next tag htag =>
          obtain ⟨rfl, hes⟩ := (hF.readFields_ofEntries_iff hj.2).1 h
          obtain rfl := Datum.eq_str_of_ofJson (hF.readTag_eq_ok_iff.1 htag)
          exact .object es hfind hes
    | _ => cases h
  · rintro ⟨es, hstatus, hes⟩
    rw [Json.distinct, Bool.and_eq_true] at hj
    rw [Datum.ofJson, readStatus, Datum.lookup_ofEntries, hstatus, Option.map_some]
    dsimp only
    rw [Datum.ofJson, hF.readTag_name]
    exact (hF.readFields_ofEntries_iff hj.2).2 ⟨rfl, hes⟩

end Lawful

end Family

/-! ## Messages -/

namespace Message

/-- The values that are a message. -/
def SpelledBy : Message → Json → Prop
  | request r, v => r.variant.Tagged v
  | notice n, v => n.variant.Tagged v
  | ack a, v => a.variant.WithStatus v

theorem map_eq_ok_iff {α ε : Type} {x : Except ε α} {f : α → Message} {a : α} {m : Message}
    (hf : ∀ b, f b = m ↔ b = a) : x.map f = .ok m ↔ x = .ok a := by
  cases x with
  | error e => simp [Except.map]
  | ok b =>
    rw [Except.map, Except.ok.injEq, Except.ok.injEq]
    exact hf b

theorem ofDatum_requests_iff {d : Datum} {r : Request} :
    ofDatum .requests d = .ok (.request r) ↔ Requests.readTagged d = .ok r.variant := by
  refine map_eq_ok_iff fun b => ?_
  rw [Function.comp_apply, request.injEq]
  exact ⟨fun h => h ▸ (Request.variant_ofVariant b).symm, fun h => h ▸ r.ofVariant_variant⟩

theorem ofDatum_notices_iff {d : Datum} {n : Notice} :
    ofDatum .notices d = .ok (.notice n) ↔ Notices.readTagged d = .ok n.variant := by
  refine map_eq_ok_iff fun b => ?_
  rw [Function.comp_apply, notice.injEq]
  exact ⟨fun h => h ▸ (Notice.variant_ofVariant b).symm, fun h => h ▸ n.ofVariant_variant⟩

theorem ofDatum_acks_iff {d : Datum} {a : Ack} :
    ofDatum .acks d = .ok (.ack a) ↔ Acks.readStatus d = .ok a.variant := by
  refine map_eq_ok_iff fun b => ?_
  rw [Function.comp_apply, ack.injEq]
  exact ⟨fun h => h ▸ (Ack.variant_ofVariant b).symm, fun h => h ▸ a.ofVariant_variant⟩

/-- **A value without double keys is read as a message exactly if the message is spelled by it.** -/
theorem ofDatum_ofJson_iff {v : Json} (hv : v.distinct = true) (m : Message) :
    ofDatum m.family (Datum.ofJson v) = .ok m ↔ m.SpelledBy v := by
  cases m with
  | request r => exact ofDatum_requests_iff.trans (lawful_requests.readTagged_ofJson_iff hv)
  | notice n => exact ofDatum_notices_iff.trans (lawful_notices.readTagged_ofJson_iff hv)
  | ack a => exact ofDatum_acks_iff.trans (lawful_acks.readStatus_ofJson_iff hv)

/-- **Reading accepts exactly the schema.**  A JSON value without double keys is read as a message
of a family exactly if the message is spelled by it: by its bare tag, or by the tag with null, if it
has no fields; by the tag with a body that has its fields; or by its status beside its fields.  A
value that spells no message of the family is an error. -/
theorem reads_exactly {v : Json} (hv : v.distinct = true) (family : MessageFamily) :
    (∀ m : Message, m.family = family →
      (ofDatum family (Datum.ofJson v) = .ok m ↔ m.SpelledBy v)) ∧
    ((∀ m : Message, m.family = family → ¬ m.SpelledBy v) →
      ∃ e, ofDatum family (Datum.ofJson v) = .error e) := by
  have hiff : ∀ m : Message, m.family = family →
      (ofDatum family (Datum.ofJson v) = .ok m ↔ m.SpelledBy v) := by
    rintro m rfl
    exact ofDatum_ofJson_iff hv m
  refine ⟨hiff, fun hnone => ?_⟩
  cases hread : ofDatum family (Datum.ofJson v) with
  | error e => exact ⟨e, rfl⟩
  | ok m =>
    have hfamily := family_of_ofDatum hread
    exact absurd ((hiff m hfamily).1 hread) (hnone m hfamily)

/-- A request to move the pointer is read from fields in another order, among one that is not
declared and with a session that is null. -/
theorem reads_exactly_shuffled :
    let v : Json := .obj [("SetMouse",
      .obj [("session_id", .null), ("y", .int 2), ("wheel", .bool true), ("x", .int 1)])]
    v.distinct = true ∧ ofDatum .requests (Datum.ofJson v) = .ok (.request (.setMouse 1 2 none)) := by
  intro v
  have hv : v.distinct = true := rfl
  refine ⟨hv, ((reads_exactly hv .requests).1 (.request (.setMouse 1 2 none)) rfl).2 ?_⟩
  exact .body rfl _ rfl

end Message

end KeyControl
