import KeyControl.Json.Token
import KeyControl.Text.Utf8

/-!
# Reading JSON

A JSON text is read in one pass.  The characters drive the machine of `Json.Token`, and the tokens
that it completes drive the machine here, which keeps a stack of the arrays and objects that are
still open.  Neither machine looks ahead, so reading a text in two parts is the same as reading it
at once; `Reader.run?` is that one pass over any part, and `Json.ofChars?` runs it from start to
end.
-/

namespace KeyControl.Json

/-- An array or object that is open while one of its members is read.  Items are held newest
first. -/
inductive Frame where
  | array (items : List Json)
  | object (entries : List (String × Json)) (key : String)

/-- What the next token may be. -/
inductive Focus where
  /-- The start of a value. -/
  | value
  /-- The first item of an array, or its end. -/
  | firstItem
  /-- A comma or the end, after an item. -/
  | nextItem (items : List Json)
  /-- The first key of an object, or its end. -/
  | firstKey
  /-- A key, after a comma. -/
  | key (entries : List (String × Json))
  /-- A colon, after a key. -/
  | colon (entries : List (String × Json)) (key : String)
  /-- A comma or the end, after an entry. -/
  | nextEntry (entries : List (String × Json))
  /-- Nothing: the value is complete. -/
  | complete (value : Json)

/-- The state over tokens: what may come, and the frames around it, innermost first. -/
structure Nesting where
  focus : Focus
  frames : List Frame

/-- A value is complete: it joins the innermost frame, or is the whole. -/
def Nesting.accept (v : Json) : List Frame → Nesting
  | [] => ⟨.complete v, []⟩
  | .array items :: frames => ⟨.nextItem (v :: items), frames⟩
  | .object entries key :: frames => ⟨.nextEntry (put key v entries), frames⟩

/-- Take a token where a value has to start. -/
def Nesting.begin? (frames : List Frame) : Token → Option Nesting
  | .scalar v => some (accept v frames)
  | .openArray => some ⟨.firstItem, frames⟩
  | .openObject => some ⟨.firstKey, frames⟩
  | _ => none

/-- Take one token. -/
def Nesting.step? (n : Nesting) (t : Token) : Option Nesting :=
  match n.focus with
  | .value => begin? n.frames t
  | .firstItem =>
    match t with
    | .closeArray => some (accept (.arr []) n.frames)
    | _ => begin? (.array [] :: n.frames) t
  | .nextItem items =>
    match t with
    | .comma => some ⟨.value, .array items :: n.frames⟩
    | .closeArray => some (accept (.arr items.reverse) n.frames)
    | _ => none
  | .firstKey =>
    match t with
    | .scalar (.str s) => some ⟨.colon [] s, n.frames⟩
    | .closeObject => some (accept (.obj []) n.frames)
    | _ => none
  | .key entries =>
    match t with
    | .scalar (.str s) => some ⟨.colon entries s, n.frames⟩
    | _ => none
  | .colon entries key =>
    match t with
    | .colon => some ⟨.value, .object entries key :: n.frames⟩
    | _ => none
  | .nextEntry entries =>
    match t with
    | .comma => some ⟨.key entries, n.frames⟩
    | .closeObject => some (accept (.obj entries) n.frames)
    | _ => none
  | .complete _ => none

def Nesting.run? (n : Nesting) (ts : List Token) : Option Nesting :=
  ts.foldlM step? n

/-- The state over characters: the mode of the token being read, and the nesting of the tokens
before it. -/
structure Reader where
  mode : Mode
  nesting : Nesting

namespace Reader

def start : Reader :=
  ⟨.between, ⟨.value, []⟩⟩

/-- Take one character. -/
def step? (r : Reader) (c : Char) : Option Reader :=
  match r.mode.step? c with
  | none => none
  | some (mode, tokens) => (r.nesting.run? tokens).map (⟨mode, ·⟩)

def run? (r : Reader) (cs : List Char) : Option Reader :=
  cs.foldlM step? r

/-- The value read, if the text may end here. -/
def close? (r : Reader) : Option Json :=
  match r.mode.close? with
  | none => none
  | some tokens =>
    match r.nesting.run? tokens with
    | some ⟨.complete v, _⟩ => some v
    | _ => none

@[simp] theorem run?_nil (r : Reader) : r.run? [] = some r := rfl

@[simp] theorem run?_cons (r : Reader) (c : Char) (cs : List Char) :
    r.run? (c :: cs) = (r.step? c).bind (·.run? cs) := rfl

/-- **Reading has no lookahead**: two parts after each other are read as the whole. -/
theorem run?_append (r : Reader) (cs ds : List Char) :
    r.run? (cs ++ ds) = (r.run? cs).bind (·.run? ds) := by
  simp only [run?, List.foldlM_append]
  rfl

end Reader

/-- The value of a JSON text. -/
def ofChars? (cs : List Char) : Option Json :=
  (Reader.start.run? cs).bind Reader.close?

def ofBytes? (bs : Bytes) : Option Json :=
  (Utf8.decode? bs).bind ofChars?

end KeyControl.Json
