import CallStacks.Text.Blank
import CallStacks.Text.Quoted
import CallStacks.Word

/-!
Settings that come as text from the environment. Surrounding white space does not count, nor does
the case of ASCII letters. A setting whose text is not understood keeps its default.
-/

namespace CallStacks

/-- A text that a variable cannot take. -/
structure InvalidSetting where
  name : String
  text : String
  deriving DecidableEq, Repr

def InvalidSetting.message (invalid : InvalidSetting) : String :=
  "invalid value " ++ Text.quote invalid.text ++ " for " ++ invalid.name

/-- The variables that are set. -/
abbrev Environment := String → Option String

namespace Setting

/-- Lower-case form in ASCII. -/
def fold (text : List Char) : List Char := text.map Char.toLower

/-- The text of a setting without the white space around it, in lower case. -/
def core (text : String) : List Char := fold (Text.trim text.toList)

/-- A flag is one of four words for yes, or one of four for no. -/
def flag (name text : String) : Except InvalidSetting Bool :=
  let word := String.ofList (core text)
  if ["1", "true", "on", "yes"].contains word then .ok true
  else if ["0", "false", "off", "no"].contains word then .ok false
  else .error ⟨name, text⟩

/-- The number that a text of ASCII digits denotes. A plus sign may come before the digits. -/
def number (digits : List Char) : Option Nat :=
  let digits := if digits.head? = some '+' then digits.tail else digits
  if digits ≠ [] ∧ digits.all Char.isDigit then
    some (digits.foldl (fun value c => 10 * value + (c.toNat - 48)) 0)
  else none

/-- The digits of a byte count, and the number of bytes in the unit behind them. -/
def unit (text : List Char) : List Char × Nat :=
  match text.getLast? with
  | some 'k' => (text.dropLast, 1024)
  | some 'm' => (text.dropLast, 1024 * 1024)
  | _ => (text, 1)

/-- A byte count is a number, with `k` or `m` for units of 2¹⁰ or 2²⁰ bytes. Both the number and
the count must fit a word, and the count must not be zero. -/
def byteCount (name text : String) : Except InvalidSetting Word :=
  let (digits, scale) := unit (core text)
  match number digits with
  | some value =>
    if value < UInt64.size ∧ 0 < value * scale ∧ value * scale < UInt64.size then
      .ok (UInt64.ofNat (value * scale))
    else .error ⟨name, text⟩
  | none => .error ⟨name, text⟩

/-- The value of a variable, or a default if it is not set or not understood. -/
def read {α : Type} (environment : Environment) (name : String)
    (parse : String → String → Except InvalidSetting α) (fallback : α) : α :=
  match environment name with
  | some text => (parse name text).toOption.getD fallback
  | none => fallback

end Setting
end CallStacks
