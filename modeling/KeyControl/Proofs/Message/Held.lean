import KeyControl.Proofs.Message.Declared

/-!
# What a message holds builds it again

A message is built by checking a value for each of its fields, and it holds what the checks made of
these values: an action as such, even if it was given by name, and texts as a tuple, even if they
were given as a list (`Kind.toDatum`).  What it holds passes the same checks again and stays what it
is (`Field.check_toDatum`), so every message of every family is built again from its own fields
(`Family.Lawful.build_held`).

If the message is built anew with another value for one field, only that value can be at fault, and
if it is, the error names that field (`Family.Lawful.build_put_held_error`).
-/

namespace KeyControl

/-! ## Fields -/

namespace Kind

/-- A value of a kind as an unchecked one, the way a message holds it. -/
def toDatum : (k : Kind) → k.Carrier → Datum
  | text, s => .ofString s
  | action, a => .action a
  | word16, n => .int n.toNat
  | word64, n => .int n.toNat
  | flag, b => .bool b
  | texts, ss => .tuple (ss.map .ofString)
  | document, doc => .ofJson doc.json

theorem checkItems_map_ofString (ss : List String) : checkItems (ss.map .ofString) = .ok ss := by
  induction ss with
  | nil => rfl
  | cons s ss ih =>
    rw [List.map_cons, Datum.ofString, checkItems, checkText, Text.toString?_ofString, ih]

/-- **What a message holds for a kind passes the check of the kind and stays what it is.** -/
theorem check_toDatum (k : Kind) (v : k.Carrier) : k.check (k.toDatum v) = .ok v := by
  cases k with
  | action => rfl
  | texts => exact checkItems_map_ofString v
  -- All others are held as they are read from the wire.
  | text => exact check_toJson text v
  | word16 => exact check_toJson word16 v
  | word64 => exact check_toJson word64 v
  | flag => exact check_toJson flag v
  | document => exact check_toJson document v

theorem isNull_toDatum {k : Kind} (hk : k ≠ .document) (v : k.Carrier) :
    (k.toDatum v).isNull = false := by
  cases k with
  | document => exact absurd rfl hk
  | _ => rfl

end Kind

namespace Field

/-- A field's value as an unchecked one, the way a message holds it: null, if it is unset. -/
def toDatum : (f : Field) → f.Carrier → Datum
  | required _ k, v => k.toDatum v
  | optional _ k, v => (v.map k.toDatum).getD .null

/-- **What a message holds for a field passes the check of the field and stays what it is.** -/
theorem check_toDatum {f : Field} (hf : f.Tells) (v : f.Carrier) :
    f.check (f.toDatum v) = .ok v := by
  cases f with
  | required name k => exact k.check_toDatum v
  | optional name k =>
    cases v with
    | none => rfl
    | some w =>
      show (if (k.toDatum w).isNull then Except.ok none else (k.check (k.toDatum w)).map some) = _
      rw [Kind.isNull_toDatum hf, if_neg Bool.false_ne_true, k.check_toDatum, Except.map]

variable {f : Field} {find : String → Option Datum} {d : Datum} (h : find f.name = some d)

include h

theorem isMissing_of_find : f.isMissing find = false := by
  rw [isMissing, held?, h]
  cases f with
  | required name k => rfl
  | optional name k => rfl

theorem value_of_find : f.value find = d := by
  rw [value, held?, h]
  cases f with
  | required name k => rfl
  | optional name k => cases d <;> rfl

end Field

/-! ## Records -/

theorem Json.find?_of_mem {key : String} {v : α} {es : List (String × α)}
    (hkeys : (es.map Prod.fst).Nodup) (h : (key, v) ∈ es) : find? key es = some v := by
  induction es with
  | nil => cases h
  | cons e es ih =>
    obtain ⟨k, w⟩ := e
    rw [List.map_cons, List.nodup_cons] at hkeys
    rw [find?_cons]
    rcases List.mem_cons.1 h with heq | hmem
    · cases heq
      rw [if_pos rfl]
    · have hmem' : key ∈ es.map Prod.fst := List.mem_map_of_mem hmem
      have hne : k ≠ key := by
        rintro rfl
        exact hkeys.1 hmem'
      rw [if_neg hne, ih hkeys.2 hmem]

namespace Record

/-- The fields of a record by name, as a message holds them. -/
def held : (fs : List Field) → Record fs → List (String × Datum)
  | [], _ => []
  | f :: fs, (v, vs) => (f.name, f.toDatum v) :: held fs vs

theorem keys_held : ∀ {fs : List Field} (r : Record fs),
    (held fs r).map Prod.fst = fs.map Field.name
  | [], _ => rfl
  | _ :: _, (_, vs) => congrArg _ (keys_held vs)

theorem exists_mem_held : ∀ {fs : List Field} (r : Record fs) {f : Field}, f ∈ fs →
    ∃ v : f.Carrier, (f.name, f.toDatum v) ∈ held fs r
  | _ :: _, (v, vs), f, hf => by
    rcases List.mem_cons.1 hf with rfl | hf
    · exact ⟨v, List.mem_cons_self ..⟩
    · obtain ⟨w, hw⟩ := exists_mem_held vs hf
      exact ⟨w, List.mem_cons_of_mem _ hw⟩

/-- **A record passes if what is found for its fields is what is held.** -/
theorem check_fill_held {find : String → Option Datum} : ∀ {fs : List Field} (r : Record fs),
    (∀ f ∈ fs, f.Tells) → (∀ e ∈ held fs r, find e.1 = some e.2) →
    check fs (Draft.fill find fs) = .ok r
  | [], _, _, _ => rfl
  | f :: fs, (v, vs), htells, hfind => by
    obtain ⟨hf, hfs⟩ := List.forall_mem_cons.1 htells
    obtain ⟨hv, hvs⟩ := List.forall_mem_cons.1 hfind
    refine check_of_check ?_ (check_fill_held vs hfs hvs)
    rw [Field.value_of_find hv, Field.check_toDatum hf]

end Record

/-! ## Variants -/

/-- The fields of a variant by name, as a message holds them. -/
def Variant.held {F : Family} (v : Variant F) : List (String × Datum) :=
  Record.held _ v.record

namespace Family.Lawful

variable {F : Family} (hF : F.Lawful) (v : Variant F)

include hF

theorem find?_held {e : String × Datum} (he : e ∈ v.held) : Json.find? e.1 v.held = some e.2 := by
  refine Json.find?_of_mem ?_ he
  rw [Variant.held, Record.keys_held]
  exact hF.nodup_names v.tag

theorem exists_find?_held {f : Field} (hf : f ∈ F.fields v.tag) :
    ∃ w : f.Carrier, Json.find? f.name v.held = some (f.toDatum w) := by
  obtain ⟨w, hw⟩ := Record.exists_mem_held v.record hf
  exact ⟨w, hF.find?_held v hw⟩

/-- **Every message is built again of what it holds.** -/
theorem build_held : F.build v.tag v.held = .ok v := by
  have hdeclared : ∀ e ∈ v.held, ∃ g ∈ F.fields v.tag, g.name = e.1 := fun e he =>
    List.mem_map.1 (Record.keys_held v.record ▸ List.mem_map_of_mem he)
  have hcollect : Draft.collect (Json.find? · v.held) (F.fields v.tag) = .ok (Draft.fill _ _) :=
    Draft.collect_eq_fill fun f hf => by
      obtain ⟨w, hw⟩ := hF.exists_find?_held v hf
      exact Field.isMissing_of_find hw
  refine build_eq_ok hdeclared hcollect ?_
  exact Record.check_fill_held v.record (hF.tells v.tag) fun e he => hF.find?_held v he

variable {before after : List Field} {f : Field} (hfields : F.fields v.tag = before ++ f :: after)
  (d : Datum)

include hfields

theorem find?_put_held {g : Field} (hg : g ∈ before) : ∃ w : g.Carrier,
    Json.find? g.name (Json.put f.name d v.held) = some (g.toDatum w) := by
  have hnames := hF.nodup_names v.tag
  rw [hfields, List.map_append, List.nodup_append] at hnames
  have hne : g.name ≠ f.name :=
    hnames.2.2 _ (List.mem_map_of_mem hg) _ (List.mem_map_of_mem (List.mem_cons_self ..))
  rw [Json.find?_put_of_ne hne]
  exact hF.exists_find?_held v (hfields ▸ List.mem_append_left _ hg)

/-- **If one field is to hold another value, only that value can be at fault**, and the error names
the field. -/
theorem build_put_held_error {fault : Fault} (hd : f.check d = .error fault) :
    F.build v.tag (Json.put f.name d v.held) = .error (.invalid ⟨F.name v.tag, f.name, fault⟩) := by
  have hself : Json.find? f.name (Json.put f.name d v.held) = some d :=
    Json.find?_put_self f.name d v.held
  have hmissing : ∀ g ∈ F.fields v.tag,
      g.isMissing (Json.find? · (Json.put f.name d v.held)) = false := by
    intro g hg
    by_cases hname : g.name = f.name
    · rw [← hname] at hself ⊢
      exact Field.isMissing_of_find hself
    · obtain ⟨w, hw⟩ := hF.exists_find?_held v hg
      rw [← Json.find?_put_of_ne hname d] at hw
      exact Field.isMissing_of_find hw
  have hbefore : ∀ g ∈ before,
      g.fault? (Json.find? · (Json.put f.name d v.held)) = none := by
    intro g hg
    obtain ⟨w, hw⟩ := hF.find?_put_held v hfields d hg
    have htells : g.Tells := hF.tells v.tag g (hfields ▸ List.mem_append_left _ hg)
    rw [Field.fault?, Field.value_of_find hw, Field.check_toDatum htells]
  have hf : f.fault? (Json.find? · (Json.put f.name d v.held)) = some fault := by
    rw [Field.fault?, Field.value_of_find hself, hd]
  have hdeclared : ∀ e ∈ Json.put f.name d v.held, ∃ g ∈ F.fields v.tag, g.name = e.1 := by
    intro e he
    have hname : f.name ∈ v.held.map Prod.fst := by
      rw [Variant.held, Record.keys_held, hfields]
      exact List.mem_map_of_mem (List.mem_append_right _ (List.mem_cons_self ..))
    have hkey : e.1 ∈ (Json.put f.name d v.held).map Prod.fst := List.mem_map_of_mem he
    rw [Json.keys_put, if_pos hname, Variant.held, Record.keys_held] at hkey
    exact List.mem_map.1 hkey
  exact build_eq_invalid hfields hmissing hbefore hf hdeclared fun _ _ => rfl

end Family.Lawful

end KeyControl
