import CallStacks.Text.Ignorable
import CallStacks.Text.Unprintable

/-!
Text in quotes, for messages. Quotes and backslashes are escaped, and so is every character that
would not show as itself.
-/

namespace CallStacks.Text

/-- The character shows as itself wherever it stands. -/
def isVisible (c : Char) : Bool :=
  !unprintable.has c && !ignorable.has c && !extending.has c

def quoteMark : Char := '\x22'

def escapeMark : Char := '\x5c'

/-- A code point in hexadecimal, in braces. -/
def codePoint (c : Char) : List Char :=
  [escapeMark, 'u', '\x7b'] ++ Nat.toDigits 16 c.toNat ++ ['\x7d']

/-- The characters that are escaped by a letter or by themselves. -/
def shortEscape? (c : Char) : Option Char :=
  if c = quoteMark ∨ c = escapeMark then some c
  else match c with
    | '\t' => some 't'
    | '\n' => some 'n'
    | '\r' => some 'r'
    | '\x00' => some '0'
    | _ => none

/-- The quoted form of one character. -/
def quoteChar (c : Char) : List Char :=
  match shortEscape? c with
  | some letter => [escapeMark, letter]
  | none => if isVisible c then [c] else codePoint c

/-- The text between quotes, on one line. -/
def quote (text : String) : String :=
  String.ofList (quoteMark :: text.toList.flatMap quoteChar ++ [quoteMark])

end CallStacks.Text
