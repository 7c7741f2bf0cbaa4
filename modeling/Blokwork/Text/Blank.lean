/-!
# Blank characters

The characters with the Unicode property `White_Space`, and what is built on them: a text
is *blank* when it holds nothing else, and trimming removes them from the ends of a text.
-/

namespace Blokwork.Text

/-- The ranges of code points with the property `White_Space`, ends included. -/
def blankRanges : List (Nat × Nat) :=
  [(0x9, 0xD), (0x20, 0x20), (0x85, 0x85), (0xA0, 0xA0), (0x1680, 0x1680), (0x2000, 0x200A),
   (0x2028, 0x2029), (0x202F, 0x202F), (0x205F, 0x205F), (0x3000, 0x3000)]

/-- `c` is white space. -/
def isBlankChar (c : Char) : Bool :=
  blankRanges.any fun r => r.1 ≤ c.toNat && c.toNat ≤ r.2

/-- The characters of a text without the blank ones at its end. -/
def dropBlankEnd (cs : List Char) : List Char :=
  (cs.reverse.dropWhile isBlankChar).reverse

/-- The text holds blank characters only. -/
def isBlank (s : String) : Bool :=
  s.toList.all isBlankChar

/-- The text without blank characters at its end. -/
def trimEnd (s : String) : String :=
  String.ofList (dropBlankEnd s.toList)

/-- The text without blank characters at either end. -/
def trim (s : String) : String :=
  String.ofList (dropBlankEnd (s.toList.dropWhile isBlankChar))

end Blokwork.Text
