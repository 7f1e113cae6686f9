import KeyControl.Message.Basic
import Mathlib.Logic.Function.Basic

/-!
# Messages are read back from their wire form

The forms of a message on the wire are read back as that message.  A form is an object whose entries
are the fields that are set, so the proof follows the two steps of reading a record: the declared
fields are looked up (`Record.collect_eq_draft`) and their values checked (`Record.check_draft`).

What reading back takes of a family is collected in `Family.Lawful`, which the three families obey:
a tag is found by its name, the fields of a variant have names of their own, none of them the key of
the status, and no optional field may hold a document, because a null document could not be told
from an unset one.  The main statements are `Family.Lawful.readTagged_tagged` and
`Family.Lawful.readStatus_status`, and `Message.ofDatum_wire` for messages.
-/

namespace KeyControl

/-! ## Documents -/

namespace Text

theorem ofString_injective : Function.Injective ofString := by
  intro s t h
  have hs := toString?_ofString s
  rw [h, toString?_ofString] at hs
  exact (Except.ok.inj hs).symm

end Text

namespace Datum

theorem lookup_ofEntries (key : String) (es : List (String × Json)) :
    lookup (Text.ofString key) (ofEntries es) = (Json.find? key es).map ofJson := by
  induction es with
  | nil => rfl
  | cons e es ih =>
    obtain ⟨k, v⟩ := e
    rw [ofEntries, ofString, lookup, Json.find?_cons]
    by_cases h : k = key
    · rw [if_pos (congrArg _ h), if_pos h, Option.map_some]
    · rw [if_neg (Text.ofString_injective.ne h), if_neg h, ih]

mutual

/-- **A storable value is its own normal form.** -/
theorem normalize_ofJson : ∀ {v : Json}, v.storable = true → normalize (ofJson v) = .ok v
  | .null, _ => rfl
  | .bool _, _ => rfl
  | .int _, h => if_pos h
  | .num _, _ => rfl
  | .str s, _ => by rw [ofJson, ofString, normalize, Text.toString?_ofString]
  | .arr vs, h => by rw [ofJson, normalize, normalizeItems_ofItems h]
  | .obj es, h => by
    simp only [Json.storable, Bool.and_eq_true, decide_eq_true_eq] at h
    rw [ofJson, normalize, normalizeEntries_ofEntries [] h.1 h.2, List.nil_append]

theorem normalizeItems_ofItems : ∀ {vs : List Json}, Json.storableItems vs = true →
    normalizeItems (ofItems vs) = .ok vs
  | [], _ => rfl
  | v :: vs, h => by
    simp only [Json.storableItems, Bool.and_eq_true] at h
    rw [ofItems, normalizeItems, normalize_ofJson h.1, normalizeItems_ofItems h.2]

theorem normalizeEntries_ofEntries : ∀ {es : List (String × Json)} (done : List (String × Json)),
    ((done ++ es).map Prod.fst).Nodup → Json.storableEntries es = true →
    normalizeEntries done (ofEntries es) = .ok (done ++ es)
  | [], done, _, _ => by rw [ofEntries, normalizeEntries, List.append_nil]
  | (k, v) :: es, done, hkeys, h => by
    simp only [Json.storableEntries, Bool.and_eq_true] at h
    have hput := Json.put_eq_append_of_nodup hkeys
    rw [List.append_cons] at hkeys ⊢
    rw [ofEntries, ofString, normalizeEntries, normalize_ofJson h.1, Text.toString?_ofString]
    dsimp only
    rw [hput, normalizeEntries_ofEntries _ hkeys h.2]

end

end Datum

namespace Document

theorem ofDatum_ofJson (doc : Document) : ofDatum (Datum.ofJson doc.json) = .ok doc :=
  ofDatum_eq_ok_iff.2 (Datum.normalize_ofJson doc.storable)

end Document

/-! ## Fields -/

namespace Kind

theorem checkItems_ofItems (ss : List String) :
    checkItems (Datum.ofItems (ss.map .str)) = .ok ss := by
  induction ss with
  | nil => rfl
  | cons s ss ih =>
    rw [List.map_cons, Datum.ofItems, Datum.ofJson, Datum.ofString, checkItems, checkText,
      Text.toString?_ofString, ih]

theorem checkWord_ofNat {n greatest : Nat} (kind : Kind) (h : n ≤ greatest) :
    checkWord kind greatest (.int n) = .ok n := by
  rw [checkWord, if_pos ⟨Int.natCast_nonneg n, Int.ofNat_le.2 h⟩, Int.toNat_natCast]

/-- **What passes as text is text without surrogates.** -/
theorem checkText_eq_ok_iff {d : Datum} {s : String} : checkText d = .ok s ↔ d = .ofString s := by
  cases d with
  | text t =>
    have htext : Datum.text t = .ofString s ↔ t.toString? = .ok s := by
      rw [Datum.ofString, Datum.text.injEq, Text.toString?_eq_ok_iff]
    rw [htext, checkText]
    cases t.toString? <;> simp
  | _ => simp [checkText, Datum.ofString]

/-- Only a natural number up to the greatest one passes, and as that number, if its type holds all
of these. -/
theorem eq_of_checkWord {α : Type} {kind : Kind} {greatest : Nat} {ofNat : Nat → α}
    {toNat : α → Nat} (hword : ∀ n ≤ greatest, toNat (ofNat n) = n) {d : Datum} {v : α}
    (h : (checkWord kind greatest d).map ofNat = .ok v) : d = .int (toNat v) := by
  cases d with
  | int i =>
    rw [checkWord] at h
    split at h
    · next hi =>
      cases h
      rw [hword i.toNat (by omega), Int.toNat_of_nonneg hi.1]
    · cases h
  | _ => cases h

/-- **A value of a kind is read back from its form on the wire.** -/
theorem check_toJson (k : Kind) (v : k.Carrier) : k.check (Datum.ofJson (k.toJson v)) = .ok v := by
  cases k with
  | text =>
    show checkText (.text (Text.ofString v)) = .ok v
    rw [checkText, Text.toString?_ofString]
  | action =>
    show checkAction (.text (Text.ofString v.name)) = .ok v
    rw [checkAction, Text.toString?_ofString]
    dsimp only
    rw [Action.ofName?_name]
  | word16 =>
    show (checkWord word16 0xFFFF (.int v.toNat)).map UInt16.ofNat = .ok v
    have hv := v.toNat_lt
    rw [checkWord_ofNat _ (by omega), Except.map, UInt16.ofNat_toNat]
  | word64 =>
    show (checkWord word64 0xFFFFFFFFFFFFFFFF (.int v.toNat)).map UInt64.ofNat = .ok v
    have hv := v.toNat_lt
    rw [checkWord_ofNat _ (by omega), Except.map, UInt64.ofNat_toNat]
  | flag => rfl
  | texts => exact checkItems_ofItems v
  | document =>
    show checkDocument (Datum.ofJson v.json) = .ok v
    rw [checkDocument, Document.ofDatum_ofJson]

/-- Only a document may be null. -/
theorem isNull_toJson {k : Kind} (hk : k ≠ .document) (v : k.Carrier) :
    (Datum.ofJson (k.toJson v)).isNull = false := by
  cases k with
  | document => exact absurd rfl hk
  | _ => rfl

theorem storableItems_texts (ss : List String) : Json.storableItems (ss.map .str) = true := by
  induction ss with
  | nil => rfl
  | cons s ss ih => exact ih

theorem storable_int_of_le {n : Nat} (h : n ≤ 0xFFFFFFFFFFFFFFFF) :
    (Json.int n).storable = true := by
  simp only [Json.storable, Json.fits, Bool.and_eq_true, decide_eq_true_eq]
  omega

theorem storable_toJson (k : Kind) (v : k.Carrier) : (k.toJson v).storable = true := by
  cases k with
  | texts => exact storableItems_texts v
  | document => exact v.storable
  | word16 =>
    have hv := v.toNat_lt
    exact storable_int_of_le (by omega)
  | word64 =>
    have hv := v.toNat_lt
    exact storable_int_of_le (by omega)
  | _ => rfl

end Kind

namespace Field

/-- Whether the unset value of a field can be told from those that are set. -/
def Tells : Field → Prop
  | required _ _ => True
  | optional _ k => k ≠ .document

instance (f : Field) : Decidable f.Tells := by
  cases f <;> unfold Tells <;> infer_instance

/-- The unchecked value that stands for a field's value: null, if it is unset. -/
def draft (f : Field) (v : f.Carrier) : Datum :=
  ((f.toJson? v).map Datum.ofJson).getD .null

theorem check_draft {f : Field} (hf : f.Tells) (v : f.Carrier) : f.check (f.draft v) = .ok v := by
  cases f with
  | required name k => exact k.check_toJson v
  | optional name k =>
    cases v with
    | none => rfl
    | some w =>
      show (if (Datum.ofJson (k.toJson w)).isNull then Except.ok none
        else (k.check (Datum.ofJson (k.toJson w))).map some) = _
      rw [Kind.isNull_toJson hf, if_neg Bool.false_ne_true, k.check_toJson, Except.map]

theorem isOptional_of_toJson?_eq_none {f : Field} {v : f.Carrier} (h : f.toJson? v = none) :
    f.isOptional = true := by
  cases f with
  | required name k => cases h
  | optional name k => rfl

theorem storable_toJson? {f : Field} {v : f.Carrier} {j : Json} (h : f.toJson? v = some j) :
    j.storable = true := by
  cases f with
  | required name k =>
    cases h
    exact k.storable_toJson v
  | optional name k =>
    obtain ⟨w, rfl, rfl⟩ := Option.map_eq_some_iff.1 h
    exact k.storable_toJson w

end Field

/-! ## Records -/

namespace Json

theorem find?_eq_none {key : String} {es : List (String × α)} (h : key ∉ es.map Prod.fst) :
    find? key es = none := by
  induction es with
  | nil => rfl
  | cons e es ih =>
    obtain ⟨k, v⟩ := e
    rw [List.map_cons, List.mem_cons, not_or] at h
    rw [find?_cons, if_neg (Ne.symm h.1), ih h.2]

theorem find?_append {key : String} {es : List (String × α)} (h : key ∉ es.map Prod.fst)
    (fs : List (String × α)) : find? key (es ++ fs) = find? key fs := by
  induction es with
  | nil => rfl
  | cons e es ih =>
    obtain ⟨k, v⟩ := e
    rw [List.map_cons, List.mem_cons, not_or] at h
    rw [List.cons_append, find?_cons, if_neg (Ne.symm h.1), ih h.2]

end Json

namespace Record

/-- The unchecked values that stand for those of a record. -/
def draft : (fs : List Field) → Record fs → Draft fs
  | [], _ => ()
  | f :: fs, (v, vs) => (f.draft v, draft fs vs)

/-- Whether looking the declared fields up gives the values of a record that are set. -/
def FoundBy (find : String → Option Datum) : (fs : List Field) → Record fs → Prop
  | [], _ => True
  | f :: fs, (v, vs) => find f.name = (f.toJson? v).map Datum.ofJson ∧ FoundBy find fs vs

/-- **A record whose values are found is collected.** -/
theorem collect_eq_draft {find : String → Option Datum} : ∀ {fs : List Field} {r : Record fs},
    FoundBy find fs r → Draft.collect find fs = .ok (draft fs r)
  | [], _, _ => rfl
  | f :: fs, (v, vs), h => by
    have hrest := collect_eq_draft h.2
    rw [Draft.collect, h.1, draft, Field.draft]
    cases hv : f.toJson? v with
    | none =>
      show (if f.isOptional then _ else _) = _
      rw [if_pos (Field.isOptional_of_toJson?_eq_none hv), hrest]
      rfl
    | some j =>
      show (Draft.collect find fs).map _ = _
      rw [hrest]
      rfl

variable {f : Field} {fs : List Field} {d : Datum} {ds : Draft fs}

theorem check_of_check {v : f.Carrier} {vs : Record fs} (hd : f.check d = .ok v)
    (hds : check fs ds = .ok vs) : check (f :: fs) (d, ds) = .ok (v, vs) := by
  rw [check, hd, hds]
  rfl

theorem check_of_error {fault : Fault} (hd : f.check d = .error fault) :
    check (f :: fs) (d, ds) = .error (f.name, fault) := by
  rw [check, hd]

/-- **The values of a record pass their checks.** -/
theorem check_draft : ∀ {fs : List Field} (r : Record fs), (∀ f ∈ fs, f.Tells) →
    check fs (draft fs r) = .ok r
  | [], _, _ => rfl
  | f :: fs, (v, vs), h => by
    obtain ⟨hf, hfs⟩ := List.forall_mem_cons.1 h
    exact check_of_check (Field.check_draft hf v) (check_draft vs hfs)

theorem keys_entries_sublist : ∀ (fs : List Field) (r : Record fs),
    ((entries fs r).map Prod.fst).Sublist (fs.map Field.name)
  | [], _ => .slnil
  | f :: fs, (v, vs) => by
    have hrest := keys_entries_sublist fs vs
    rw [entries, List.map_cons]
    cases f.toJson? v with
    | none => exact hrest.cons _
    | some j => exact hrest.cons_cons _

theorem storableEntries_entries : ∀ (fs : List Field) (r : Record fs),
    Json.storableEntries (entries fs r) = true
  | [], _ => rfl
  | f :: fs, (v, vs) => by
    have hrest := storableEntries_entries fs vs
    rw [entries]
    cases hv : f.toJson? v with
    | none => exact hrest
    | some j =>
      show (j.storable && Json.storableEntries (entries fs vs)) = true
      rw [Field.storable_toJson? hv, hrest, Bool.and_self]

/-- **The values of a record are found among its entries**, also behind others that have none of
its names. -/
theorem foundBy_entries : ∀ {fs : List Field} (before : List (String × Json)) (r : Record fs),
    (fs.map Field.name).Nodup → (∀ f ∈ fs, f.name ∉ before.map Prod.fst) →
    FoundBy (fun name => (Json.find? name (before ++ entries fs r)).map Datum.ofJson) fs r
  | [], _, _, _, _ => trivial
  | f :: fs, before, (v, vs), hnames, hbefore => by
    rw [List.map_cons, List.nodup_cons] at hnames
    obtain ⟨hf, hfs⟩ := List.forall_mem_cons.1 hbefore
    rw [entries]
    cases hv : f.toJson? v with
    | none =>
      refine ⟨?_, foundBy_entries before vs hnames.2 hfs⟩
      have hunset : f.name ∉ (entries fs vs).map Prod.fst := fun h =>
        hnames.1 ((keys_entries_sublist fs vs).subset h)
      dsimp only
      rw [hv, Json.find?_append hf, Json.find?_eq_none hunset]
    | some j =>
      refine ⟨?_, ?_⟩
      · dsimp only
        rw [hv, Json.find?_append hf, Json.find?_cons, if_pos rfl]
      · dsimp only
        rw [List.append_cons]
        refine foundBy_entries _ vs hnames.2 fun g hg => ?_
        rw [List.map_append, List.mem_append, List.map_singleton, List.mem_singleton]
        rintro (h | h)
        · exact hfs g hg h
        · have hg' : g.name ∈ fs.map Field.name := List.mem_map_of_mem hg
          rw [h] at hg'
          exact hnames.1 hg'

end Record

/-! ## Families -/

theorem Family.check_of_error {F : Family} {tag : F.Tag} {draft : Draft (F.fields tag)}
    {field : String} {fault : Fault}
    (h : Record.check (F.fields tag) draft = .error (field, fault)) :
    F.check tag draft = .error ⟨F.name tag, field, fault⟩ := by
  rw [check, h]

/-- What reading back takes of a family. -/
structure Family.Lawful (F : Family) : Prop where
  /-- A tag is found by its name. -/
  ofName?_name : ∀ tag, F.ofName? (Text.ofString (F.name tag)) = some tag
  /-- The fields of a variant have names of their own. -/
  nodup_names : ∀ tag, ((F.fields tag).map Field.name).Nodup
  /-- No field has the name of the status. -/
  status_notMem : ∀ tag, statusKey ∉ (F.fields tag).map Field.name
  /-- Unset fields can be told from set ones. -/
  tells : ∀ tag, ∀ f ∈ F.fields tag, f.Tells

namespace Family.Lawful

variable {F : Family} (hF : F.Lawful)

include hF

theorem readTag_name (tag : F.Tag) : F.readTag (Datum.ofString (F.name tag)) = .ok tag := by
  rw [Datum.ofString, readTag, hF.ofName?_name]

/-- A variant whose values are found is read. -/
theorem readFields_of_foundBy {find : String → Option Datum} (v : Variant F)
    (h : Record.FoundBy find _ v.record) : F.readFields v.tag find = .ok v := by
  rw [readFields, Record.collect_eq_draft h]
  dsimp only
  rw [check, Record.check_draft v.record (hF.tells v.tag)]

theorem readFields_of_isUnit (find : String → Option Datum) (v : Variant F)
    (h : F.isUnit v.tag = true) : F.readFields v.tag find = .ok v := by
  refine hF.readFields_of_foundBy v ?_
  obtain ⟨tag, record⟩ := v
  have hfields : F.fields tag = [] := List.isEmpty_iff.1 h
  dsimp only
  clear h
  revert record
  rw [hfields]
  exact fun _ => trivial

/-- The fields of a variant are read back from its entries, behind others that have none of their
names. -/
theorem readFields_entries (before : List (String × Json)) (v : Variant F)
    (h : ∀ f ∈ F.fields v.tag, f.name ∉ before.map Prod.fst) :
    F.readFields v.tag
      (fun name => Datum.lookup (Text.ofString name) (Datum.ofEntries (before ++ v.entries))) =
        .ok v := by
  simp only [Datum.lookup_ofEntries]
  exact hF.readFields_of_foundBy v
    (Record.foundBy_entries before v.record (hF.nodup_names v.tag) h)

/-- **A variant is read back from its tagged form.** -/
theorem readTagged_tagged (v : Variant F) : F.readTagged (Datum.ofJson v.tagged) = .ok v := by
  have htag := hF.readTag_name v.tag
  rw [Datum.ofString] at htag
  by_cases hunit : F.isUnit v.tag = true
  · rw [Variant.tagged, if_pos hunit, Datum.ofJson, Datum.ofString, readTagged, htag]
    dsimp only
    rw [if_pos hunit, hF.readFields_of_isUnit _ v hunit]
  · rw [Variant.tagged, if_neg hunit, Datum.ofJson, Datum.ofEntries, Datum.ofEntries, Datum.ofJson,
      Datum.ofString, readTagged, htag]
    dsimp only
    rw [readBody, if_neg hunit]
    exact hF.readFields_entries [] v fun f _ => List.not_mem_nil

/-- **A variant is read back from its status form.** -/
theorem readStatus_status (v : Variant F) : F.readStatus (Datum.ofJson v.status) = .ok v := by
  rw [Variant.status, Datum.ofJson, readStatus, Datum.lookup_ofEntries, Json.find?_cons, if_pos rfl,
    Option.map_some]
  dsimp only
  rw [Datum.ofJson, hF.readTag_name]
  refine hF.readFields_entries [(statusKey, .str (F.name v.tag))] v fun f hf h => ?_
  have hname : f.name ∈ (F.fields v.tag).map Field.name := List.mem_map_of_mem hf
  rw [List.map_singleton, List.mem_singleton] at h
  rw [h] at hname
  exact hF.status_notMem v.tag hname

theorem nodup_keys_entries (v : Variant F) : (v.entries.map Prod.fst).Nodup :=
  (hF.nodup_names v.tag).sublist (Record.keys_entries_sublist _ v.record)

theorem storable_tagged (v : Variant F) : v.tagged.storable = true := by
  rw [Variant.tagged]
  split
  · rfl
  · have hentries : Json.storableEntries v.entries = true :=
      Record.storableEntries_entries _ v.record
    simp [Json.storable, Json.storableEntries, hentries, hF.nodup_keys_entries v]

theorem storable_status (v : Variant F) : v.status.storable = true := by
  have hentries : Json.storableEntries v.entries = true :=
    Record.storableEntries_entries _ v.record
  have hstatus : statusKey ∉ v.entries.map Prod.fst := fun h =>
    hF.status_notMem v.tag ((Record.keys_entries_sublist _ v.record).subset h)
  have hkeys : (((statusKey, Json.str (F.name v.tag)) :: v.entries).map Prod.fst).Nodup :=
    List.nodup_cons.2 ⟨hstatus, hF.nodup_keys_entries v⟩
  rw [Variant.status, Json.storable, decide_eq_true hkeys, Bool.true_and]
  exact hentries

end Family.Lawful

/-! ## Messages -/

theorem lawful_requests : Requests.Lawful where
  ofName?_name tag := by cases tag <;> rfl
  nodup_names tag := by cases tag <;> decide
  status_notMem tag := by cases tag <;> decide
  tells tag := by cases tag <;> decide

theorem lawful_notices : Notices.Lawful where
  ofName?_name tag := by cases tag <;> rfl
  nodup_names tag := by cases tag <;> decide
  status_notMem tag := by cases tag <;> decide
  tells tag := by cases tag <;> decide

theorem lawful_acks : Acks.Lawful where
  ofName?_name tag := by cases tag <;> rfl
  nodup_names tag := by cases tag <;> decide
  status_notMem tag := by cases tag <;> decide
  tells tag := by cases tag <;> decide

namespace Message

/-- **A message is read back from its form on the wire.** -/
theorem ofDatum_wire (m : Message) : ofDatum m.family (Datum.ofJson m.wire) = .ok m := by
  cases m with
  | request r =>
    show (Requests.readTagged (Datum.ofJson r.variant.tagged)).map _ = _
    rw [lawful_requests.readTagged_tagged, Except.map, Function.comp_apply,
      Request.ofVariant_variant]
  | notice n =>
    show (Notices.readTagged (Datum.ofJson n.variant.tagged)).map _ = _
    rw [lawful_notices.readTagged_tagged, Except.map, Function.comp_apply,
      Notice.ofVariant_variant]
  | ack a =>
    show (Acks.readStatus (Datum.ofJson a.variant.status)).map _ = _
    rw [lawful_acks.readStatus_status, Except.map, Function.comp_apply, Ack.ofVariant_variant]

theorem storable_wire (m : Message) : m.wire.storable = true := by
  cases m with
  | request r => exact lawful_requests.storable_tagged r.variant
  | notice n => exact lawful_notices.storable_tagged n.variant
  | ack a => exact lawful_acks.storable_status a.variant

theorem get?_wire_notice (n : Notice) : (notice n).wire.get? statusKey = none := by
  show n.variant.tagged.get? statusKey = none
  rw [Variant.tagged]
  split
  · rfl
  · have hname : Notices.name n.variant.tag ≠ statusKey := by
      generalize n.variant.tag = tag
      cases tag <;> decide
    show Json.find? statusKey [(Notices.name n.variant.tag, Json.obj n.variant.entries)] = none
    rw [Json.find?_cons, if_neg hname, Json.find?_nil]

theorem get?_wire_ack (a : Ack) :
    (ack a).wire.get? statusKey = some (.str (Acks.name a.variant.tag)) := by
  show Json.find? statusKey ((statusKey, _) :: a.variant.entries) = _
  rw [Json.find?_cons, if_pos rfl]

end Message

end KeyControl
