/-!
Upper case, as far as it leads to ASCII letters.

A few letters outside ASCII have an upper case inside it: the dotless i, the long s, the sharp s and
the Latin ligatures.
-/

namespace GridReport.Text

/-- The letters outside ASCII whose upper case is made of ASCII letters. -/
def foreignUpper : List (Nat × String) :=
  [(0xDF, "SS"), (0x131, "I"), (0x17F, "S"), (0xFB00, "FF"), (0xFB01, "FI"), (0xFB02, "FL"),
    (0xFB03, "FFI"), (0xFB04, "FFL"), (0xFB05, "ST"), (0xFB06, "ST")]

def upperChar (c : Char) : List Char :=
  if c.toNat < 128 then [c.toUpper]
  else
    match foreignUpper.lookup c.toNat with
    | some letters => letters.toList
    | none => [c]

def upper (content : String) : String := String.ofList (content.toList.flatMap upperChar)

end GridReport.Text
