import KeyControl.Number.Double

/-!
# JSON values

Numbers are kept in two kinds: integers of any size, and finite doubles.  The entries of an object
keep the order in which their keys first came; `Json.put` is the one way to add an entry, so objects
built with it have no key twice.  Equality of values is decidable; it tells integers from doubles,
and objects by the order of their entries.
-/

namespace KeyControl

/-- A JSON value. -/
inductive Json where
  | null
  | bool (b : Bool)
  | int (n : Int)
  | num (x : FiniteDouble)
  | str (s : String)
  | arr (items : List Json)
  | obj (entries : List (String × Json))
deriving Inhabited

namespace Json

/-! ## Equality -/

mutual

/-- Whether two values are equal. -/
def beq : Json → Json → Bool
  | null, null => true
  | bool a, bool b => a == b
  | int m, int n => m == n
  | num x, num y => decide (x = y)
  | str s, str t => s == t
  | arr vs, arr ws => beqItems vs ws
  | obj es, obj fs => beqEntries es fs
  | _, _ => false

def beqItems : List Json → List Json → Bool
  | [], [] => true
  | v :: vs, w :: ws => beq v w && beqItems vs ws
  | _, _ => false

def beqEntries : List (String × Json) → List (String × Json) → Bool
  | [], [] => true
  | (k, v) :: es, (l, w) :: fs => k == l && beq v w && beqEntries es fs
  | _, _ => false

end

mutual

theorem beq_iff : ∀ v w : Json, beq v w = true ↔ v = w
  | arr vs, w => by cases w <;> simp [beq, beqItems_iff vs]
  | obj es, w => by cases w <;> simp [beq, beqEntries_iff es]
  | null, w => by cases w <;> simp [beq]
  | bool _, w => by cases w <;> simp [beq]
  | int _, w => by cases w <;> simp [beq]
  | num _, w => by cases w <;> simp [beq]
  | str _, w => by cases w <;> simp [beq]

theorem beqItems_iff : ∀ vs ws : List Json, beqItems vs ws = true ↔ vs = ws
  | [], ws => by cases ws <;> simp [beqItems]
  | v :: vs, ws => by cases ws <;> simp [beqItems, beq_iff v, beqItems_iff vs]

theorem beqEntries_iff : ∀ es fs : List (String × Json), beqEntries es fs = true ↔ es = fs
  | [], fs => by cases fs <;> simp [beqEntries]
  | (k, v) :: es, fs => by
    cases fs <;> simp [beqEntries, beq_iff v, beqEntries_iff es, Prod.ext_iff]

end

instance : DecidableEq Json :=
  fun v w => decidable_of_iff _ (beq_iff v w)

/-! ## Entries -/

/-- Set the value of a key.  A new key goes to the end, a known one keeps its place. -/
def put (key : String) (value : α) : List (String × α) → List (String × α)
  | [] => [(key, value)]
  | (k, v) :: rest => if k = key then (k, value) :: rest else (k, v) :: put key value rest

def find? (key : String) : List (String × α) → Option α
  | [] => none
  | (k, v) :: rest => if k = key then some v else find? key rest

def get? (v : Json) (key : String) : Option Json :=
  match v with
  | obj entries => find? key entries
  | _ => none

@[simp] theorem find?_nil (key : String) : find? key ([] : List (String × α)) = none := rfl

theorem find?_cons (key k : String) (v : α) (rest : List (String × α)) :
    find? key ((k, v) :: rest) = if k = key then some v else find? key rest := rfl

@[simp] theorem find?_put_self (key : String) (value : α) (es : List (String × α)) :
    find? key (put key value es) = some value := by
  induction es with
  | nil => simp [put, find?]
  | cons e es ih =>
    obtain ⟨k, v⟩ := e
    by_cases h : k = key <;> simp [put, find?, h, ih]

theorem find?_put_of_ne {key other : String} (h : other ≠ key) (value : α)
    (es : List (String × α)) : find? other (put key value es) = find? other es := by
  induction es with
  | nil => simp [put, find?, Ne.symm h]
  | cons e es ih =>
    obtain ⟨k, v⟩ := e
    by_cases hk : k = key
    · subst hk; simp [put, find?, Ne.symm h]
    · by_cases ho : k = other
      · subst ho; simp [put, find?, hk]
      · simp [put, find?, hk, ho, ih]

theorem put_of_not_mem {key : String} {es : List (String × α)} (h : key ∉ es.map Prod.fst)
    (value : α) : put key value es = es ++ [(key, value)] := by
  induction es with
  | nil => rfl
  | cons e es ih =>
    obtain ⟨k, v⟩ := e
    simp only [List.map_cons, List.mem_cons, not_or] at h
    simp [put, Ne.symm h.1, ih h.2]

theorem put_eq_append_of_nodup {key : String} {value : α} {done es : List (String × α)}
    (h : ((done ++ (key, value) :: es).map Prod.fst).Nodup) :
    put key value done = done ++ [(key, value)] := by
  rw [List.map_append, List.nodup_append] at h
  exact put_of_not_mem (fun hk => h.2.2 key hk key (List.mem_cons_self ..) rfl) value

theorem keys_put (key : String) (value : α) (es : List (String × α)) :
    (put key value es).map Prod.fst =
      if key ∈ es.map Prod.fst then es.map Prod.fst else es.map Prod.fst ++ [key] := by
  induction es with
  | nil => simp [put]
  | cons e es ih =>
    obtain ⟨k, v⟩ := e
    by_cases hk : k = key
    · simp [put, hk]
    · simp only [put, hk, if_false, List.map_cons, ih, List.mem_cons]
      by_cases hm : key ∈ es.map Prod.fst
      · simp [hm]
      · simp [hm, Ne.symm hk]

/-- **No key comes twice** in entries built with `put`. -/
theorem nodup_keys_put {es : List (String × α)} (h : (es.map Prod.fst).Nodup) (key : String)
    (value : α) : ((put key value es).map Prod.fst).Nodup := by
  rw [keys_put]
  split
  · exact h
  · next hm =>
    rw [List.nodup_append]
    refine ⟨h, by simp, ?_⟩
    intro a ha b hb hab
    obtain rfl := List.mem_singleton.1 hb
    exact hm (hab ▸ ha)

end Json

end KeyControl
