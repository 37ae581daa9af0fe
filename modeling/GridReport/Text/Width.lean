/-!
How many bytes characters take.
-/

namespace GridReport.Text

/-- The bytes that characters take when a text is stored. -/
def width : List Char → Nat
  | [] => 0
  | c :: rest => c.utf8Size + width rest

end GridReport.Text
