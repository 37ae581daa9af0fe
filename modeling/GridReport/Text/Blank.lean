/-!
White space as the Unicode property `White_Space` has it: 25 code points, in ten ranges.
-/

namespace GridReport.Text

/-- The ranges of code points with the property `White_Space`. -/
def blankRanges : List (Nat × Nat) :=
  [(0x9, 0xD), (0x20, 0x20), (0x85, 0x85), (0xA0, 0xA0), (0x1680, 0x1680), (0x2000, 0x200A),
    (0x2028, 0x2029), (0x202F, 0x202F), (0x205F, 0x205F), (0x3000, 0x3000)]

def isBlank (c : Char) : Bool :=
  blankRanges.any fun range => range.1 ≤ c.toNat && c.toNat ≤ range.2

/-- Drops white space at both ends. -/
def trimChars (chars : List Char) : List Char :=
  ((chars.dropWhile isBlank).reverse.dropWhile isBlank).reverse

/-- Drops white space at both ends of a text. -/
def trim (text : String) : String := String.ofList (trimChars text.toList)

/-- The text holds nothing but white space. -/
def isAllBlank (text : String) : Bool := text.toList.all isBlank

end GridReport.Text
