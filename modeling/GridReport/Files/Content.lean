import GridReport.Files
import GridReport.Store.Pages

/-!
What a file holds, told from its bytes.
-/

namespace GridReport.Node

/-- A database if the bytes keep to its format, else text if they spell it, else plain bytes. -/
def ofBytes (bytes : ByteArray) : Node :=
  match Store.Database.ofBytes? bytes with
  | some content => .database content
  | none =>
    match String.fromUTF8? bytes with
    | some content => .text content
    | none => .binary bytes.toList

end GridReport.Node
