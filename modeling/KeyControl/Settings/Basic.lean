import KeyControl.Message.Wording
import KeyControl.Text.CharacterClass

/-!
# Settings

Three settings come from the environment: whether the daemon demands sessions, the longest line it
accepts, and how many octets it reads at a time.  A variable that is unset or blank leaves its
setting at the default.  `Settings.load` reads all three and stops at the first that is wrong; what
it returns has a line limit that is not negative and a read size that is positive.

An integer may be written with a sign, with digits of any script and with single underscores between
digits, and blanks around it do not matter.  `Text.integer?` reads such a spelling.  More than
`spellingLimit` digits are refused.
-/

namespace KeyControl

/-! ## Integers as people write them -/

/-- The greatest number of digits a spelling may have. -/
def spellingLimit : Nat := 4300

namespace CodePoint

/-- Whether a code point may stand around an integer: a blank other than the information
separators. -/
def surroundsInteger (p : CodePoint) : Bool :=
  p.isBlank && ! (decide (28 ≤ p.value) && decide (p.value ≤ 31))

end CodePoint

/-- The digits read so far, last digit first, and whether the last code point was one of them. -/
structure Spelling where
  digits : List Nat
  afterDigit : Bool
deriving DecidableEq

namespace Spelling

/-- Take a digit, or an underscore that follows a digit. -/
def step? (s : Spelling) (p : CodePoint) : Option Spelling :=
  match decimalDigit? p.value with
  | some d => some ⟨d :: s.digits, true⟩
  | none => if p.value = 0x5F ∧ s.afterDigit then some ⟨s.digits, false⟩ else none

/-- The value of digits, last digit first. -/
def value : List Nat → Nat
  | [] => 0
  | d :: ds => 10 * value ds + d

/-- The natural number that digits and underscores spell. -/
def natural? (t : Text) : Option Nat :=
  match t.foldlM step? ⟨[], false⟩ with
  | some ⟨digits, true⟩ =>
    if digits.length ≤ spellingLimit then some (value digits) else none
  | _ => none

end Spelling

namespace Text

/-- A text without the code points that may surround an integer. -/
def trimAroundInteger (t : Text) : Text :=
  ((t.dropWhile CodePoint.surroundsInteger).reverse.dropWhile CodePoint.surroundsInteger).reverse

/-- The integer that a text spells. -/
def integer? (t : Text) : Option Int :=
  match t.trimAroundInteger with
  | .scalar '-' :: rest => (Spelling.natural? rest).map fun n => - Int.ofNat n
  | .scalar '+' :: rest => (Spelling.natural? rest).map Int.ofNat
  | rest => (Spelling.natural? rest).map Int.ofNat

end Text

/-! ## Variables -/

/-- Why a variable is no setting. -/
inductive SettingError where
  | notBoolean (name : Text) (raw : Text)
  | notInteger (name : Text) (raw : Text)
  | tooSmall (name : Text) (least : Int) (value : Int)
deriving DecidableEq

namespace SettingError

/-- The wording of an error in a setting. -/
def text : SettingError → Text
  | notBoolean name raw =>
    name ++ Text.ofString (" must be a boolean (0/1), got " ++ raw.quotedString)
  | notInteger name raw =>
    name ++ Text.ofString (" must be an integer, got " ++ raw.quotedString)
  | tooSmall name least value =>
    name ++ Text.ofString
      (" must be at least " ++ integerString least ++ ", got " ++ integerString value)

end SettingError

/-- The spellings of true. -/
def trueWords : List String := ["1", "true", "yes", "on"]

/-- The spellings of false. -/
def falseWords : List String := ["0", "false", "no", "off"]

/-- A code point with upper-case ASCII letters made lower-case.  No other character has one of the
letters in `trueWords` and `falseWords` for its lower case. -/
def CodePoint.toLower : CodePoint → CodePoint
  | scalar c => scalar c.toLower
  | surrogate i => surrogate i

/-- The truth value of a variable. -/
def readBoolean (name : Text) (raw : Option Text) (default : Bool) : Except SettingError Bool :=
  match raw with
  | none => .ok default
  | some t =>
    if t.blank then .ok default
    else
      let word := t.trim.map CodePoint.toLower
      if trueWords.any fun w => decide (Text.ofString w = word) then .ok true
      else if falseWords.any fun w => decide (Text.ofString w = word) then .ok false
      else .error (.notBoolean name t)

/-- The integer of a variable, which has to be at least `least`; the default need not be. -/
def readInteger (name : Text) (raw : Option Text) (default least : Int) :
    Except SettingError Int :=
  match raw with
  | none => .ok default
  | some t =>
    if t.blank then .ok default
    else
      match t.integer? with
      | none => .error (.notInteger name t)
      | some n => if n < least then .error (.tooSmall name least n) else .ok n

/-- The variables that settings are read from; an unset one is `none`. -/
structure Environment where
  requireSession : Option Text
  maxLine : Option Text
  recvSize : Option Text
deriving DecidableEq

namespace Environment

def empty : Environment :=
  ⟨none, none, none⟩

end Environment

/-- What the environment settles. -/
structure Settings where
  /-- Whether the daemon demands a session of every request. -/
  requireSession : Bool
  /-- The longest line accepted; zero stands for no limit. -/
  maxLine : Int
  /-- The number of octets asked for in one read. -/
  recvSize : Int
deriving DecidableEq

namespace Settings

def default : Settings :=
  ⟨false, 1048576, 4096⟩

/-- Read the settings from the environment. -/
def load (env : Environment) : Except SettingError Settings :=
  match readBoolean (Text.ofString "REMAPWIRE_REQUIRE_SESSION") env.requireSession
      default.requireSession with
  | .error e => .error e
  | .ok requireSession =>
    match readInteger (Text.ofString "REMAPWIRE_MAX_LINE") env.maxLine default.maxLine 0 with
    | .error e => .error e
    | .ok maxLine =>
      match readInteger (Text.ofString "REMAPWIRE_RECV_SIZE") env.recvSize default.recvSize 1 with
      | .error e => .error e
      | .ok recvSize => .ok ⟨requireSession, maxLine, recvSize⟩

end Settings

end KeyControl
