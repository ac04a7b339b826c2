import CallStacks.Text.CodeRanges

/-!
White space as Unicode's White_Space property has it, and text without the white space at its
ends.
-/

namespace CallStacks.Text

/-- The characters of the White_Space property. -/
def blank : CodeRanges :=
  [(0x09, 0x0d), (0x20, 0x20), (0x85, 0x85), (0xa0, 0xa0), (0x1680, 0x1680), (0x2000, 0x200a),
   (0x2028, 0x2029), (0x202f, 0x202f), (0x205f, 0x205f), (0x3000, 0x3000)]

def isBlank (c : Char) : Bool := blank.has c

/-- The text without the white space before and after it. -/
def trim (text : List Char) : List Char :=
  ((text.dropWhile isBlank).reverse.dropWhile isBlank).reverse

end CallStacks.Text
