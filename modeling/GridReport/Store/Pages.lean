import GridReport.Store.Schema

/-!
Database files: pages of one size, with the rows of each table in a tree of pages.

The reader takes a whole file as bytes and gives the tables with their rows, or nothing where the
bytes do not keep to the format. Indexes, views and tables without row keys are left out: what is
asked of a database here needs only the rows of its tables.
-/

namespace GridReport.Store

/-- How the texts of a database are written as bytes. -/
inductive Encoding where
  | utf8
  /-- Units of two bytes, the low one first. -/
  | utf16Low
  /-- Units of two bytes, the high one first. -/
  | utf16High
deriving Repr, DecidableEq

namespace Encoding

/-- The units of two bytes in a text. -/
def units (high : Bool) : List UInt8 → List Nat
  | a :: b :: rest =>
    (if high then 256 * a.toNat + b.toNat else a.toNat + 256 * b.toNat) :: units high rest
  | _ => []

/-- The characters of units: two units that belong together are one character. -/
def characters : List Nat → List Char
  | first :: second :: rest =>
    if 0xD800 ≤ first && first < 0xDC00 && 0xDC00 ≤ second && second < 0xE000 then
      Char.ofNat (0x10000 + 1024 * (first - 0xD800) + (second - 0xDC00)) :: characters rest
    else Char.ofNat first :: characters (second :: rest)
  | [unit] => [Char.ofNat unit]
  | [] => []

def text : Encoding → List UInt8 → String
  | utf8, bytes => Cell.bytesText bytes
  | utf16Low, bytes => String.ofList (characters (units false bytes))
  | utf16High, bytes => String.ofList (characters (units true bytes))

end Encoding

/-- A database file. -/
structure Pages where
  bytes : ByteArray
  /-- The bytes of a page. -/
  size : Nat
  /-- The bytes of a page that are used. -/
  usable : Nat
  encoding : Encoding

namespace Pages

/-- The number that bytes write, the highest first. -/
def magnitude (bytes : List UInt8) : Nat := bytes.foldl (fun n byte => 256 * n + byte.toNat) 0

/-- The number that bytes write in two's complement. -/
def signed (bytes : List UInt8) : Int := Int.bmod (magnitude bytes) (Nat.pow 256 bytes.length)

/-- A number of seven bits a byte at the front of bytes, the highest first; every byte but the last
has its top bit set. After `left` more bytes the last one gives all its bits. -/
def septetsFrom (left n : Nat) : List UInt8 → Option (Nat × List UInt8)
  | [] => none
  | byte :: rest =>
    match left with
    | 0 => some (256 * n + byte.toNat, rest)
    | left + 1 =>
      if byte < 128 then some (128 * n + byte.toNat, rest)
      else septetsFrom left (128 * n + (byte.toNat - 128)) rest

/-- A number of up to nine bytes at the front of bytes. -/
def septets : List UInt8 → Option (Nat × List UInt8) := septetsFrom 8 0

/-- All numbers that bytes write one after the other; no more than `fuel` are left. -/
def septetList : Nat → List UInt8 → Option (List Nat)
  | _, [] => some []
  | 0, _ => none
  | fuel + 1, bytes => do
    let (n, rest) ← septets bytes
    return n :: (← septetList fuel rest)

def width (code : Nat) : Nat :=
  match code with
  | 0 | 8 | 9 | 10 | 11 => 0
  | 5 => 6
  | 6 | 7 => 8
  | code => if code < 5 then code else (code - 12) / 2

def cell (encoding : Encoding) (code : Nat) (bytes : List UInt8) : Cell :=
  match code with
  | 0 | 10 | 11 => .null
  | 7 => .ofFloat (Float.ofBits (UInt64.ofNat (magnitude bytes)))
  | 8 => .integer 0
  | 9 => .integer 1
  | code =>
    if code < 7 then .integer (signed bytes)
    else if code % 2 = 0 then .blob bytes
    else .text (encoding.text bytes)

def cells (encoding : Encoding) : List Nat → List UInt8 → List Cell
  | [], _ => []
  | code :: codes, bytes =>
    cell encoding code (bytes.take (width code)) ::
      cells encoding codes (bytes.drop (width code))

/-- The cells of a record: the length of its head, a code for each cell, and their bytes. -/
def record (encoding : Encoding) (bytes : List UInt8) : Option (List Cell) := do
  let (head, rest) ← septets bytes
  let codesLength := head - (bytes.length - rest.length)
  let codes ← septetList codesLength (rest.take codesLength)
  return cells encoding codes (rest.drop codesLength)

/-- The words at the front of every database file. -/
def mark : List UInt8 := "SQLite format 3\x00".toUTF8.toList

def slice (bytes : ByteArray) (start count : Nat) : List UInt8 :=
  (bytes.extract start (start + count)).toList

def numberAt (bytes : ByteArray) (start count : Nat) : Nat := magnitude (slice bytes start count)

def encodingOf? : Nat → Option Encoding
  | 0 | 1 => some .utf8
  | 2 => some .utf16Low
  | 3 => some .utf16High
  | _ => none

/-- Takes bytes as a database file, if they start like one. -/
def ofBytes? (bytes : ByteArray) : Option Pages := do
  if slice bytes 0 16 != mark then failure
  let written := numberAt bytes 16 2
  let size := if written = 1 then 65536 else written
  let reserved := numberAt bytes 20 1
  if size < 512 || size < reserved + 480 then failure
  return ⟨bytes, size, size - reserved, ← encodingOf? (numberAt bytes 56 4)⟩

def count (pages : Pages) : Nat := pages.bytes.size / pages.size

def start (pages : Pages) (page : Nat) : Nat := (page - 1) * pages.size

/-- Bytes that go on in a chain of pages; no more than `fuel` pages are left. -/
def chained (pages : Pages) : Nat → Nat → Nat → Option (List UInt8)
  | _, _, 0 => some []
  | 0, _, _ => none
  | fuel + 1, page, wanted => do
    if page = 0 || pages.count < page then failure
    let room := pages.usable - 4
    let here := slice pages.bytes (pages.start page + 4) (min wanted room)
    return here ++
      (← chained pages fuel (numberAt pages.bytes (pages.start page) 4) (wanted - here.length))

/-- How many bytes of a row stand on its own page; the other ones are in a chain. -/
def ownLength (pages : Pages) (length : Nat) : Nat :=
  let most := pages.usable - 35
  let least := (pages.usable - 12) * 32 / 255 - 23
  if length ≤ most then length
  else
    let kept := least + (length - least) % (pages.usable - 4)
    if kept ≤ most then kept else least

/-- The row at a place of a leaf: its length, its key and its record. -/
def row (pages : Pages) (place : Nat) : Option Row := do
  let head := slice pages.bytes place 18
  let (length, rest) ← septets head
  let (key, rest) ← septets rest
  let body := place + (head.length - rest.length)
  let kept := pages.ownLength length
  let here := slice pages.bytes body kept
  let far ←
    if kept < length then
      pages.chained pages.count (numberAt pages.bytes (body + kept) 4) (length - kept)
    else some []
  return ⟨Int.bmod key (Nat.pow 2 64), ← record pages.encoding (here ++ far)⟩

/-- The number that a leaf of a table starts with. -/
def leafKind : Nat := 13

/-- The number that a page with further pages below it starts with. -/
def branchKind : Nat := 5

def deepest : Nat := 20

/-- The rows below a page in the order of their keys; no more than `depth` pages lie on the way. -/
def rowsBelow (pages : Pages) : Nat → Nat → Option (List Row)
  | 0, _ => none
  | depth + 1, page => do
    if page = 0 || pages.count < page then failure
    let start := pages.start page
    let head := if page = 1 then start + 100 else start
    let kind := numberAt pages.bytes head 1
    let cells := List.range (numberAt pages.bytes (head + 3) 2)
    if kind = leafKind then
      cells.mapM fun i => pages.row (start + numberAt pages.bytes (head + 8 + 2 * i) 2)
    else if kind = branchKind then
      let below ← cells.mapM fun i =>
        rowsBelow pages depth
          (numberAt pages.bytes (start + numberAt pages.bytes (head + 12 + 2 * i) 2) 4)
      let last ← rowsBelow pages depth (numberAt pages.bytes (head + 8) 4)
      return below.flatten ++ last
    else failure

/-- A row with the cells that the columns of its table ask for: the key in its column, nothing where
the record ends early, and reals where whole numbers were stored for them. -/
def fit (table : Table) (row : Row) : Row :=
  let whole := (table.columns.zipIdx).map fun column =>
    let found := (row.cells[column.2]?).getD .null
    if column.2 = table.keyColumn then .integer row.key
    else if column.1.affinity = .real then Affinity.preferReal found
    else found
  ⟨row.key, whole⟩

/-- The table of an entry of the schema, unless it has no tree of rows. -/
def tableOf? (pages : Pages) (entry : Row) : Option Table :=
  match entry.cells with
  | .text "table" :: .text name :: _ :: .integer page :: .text sql :: _ => do
    let table := Schema.table name sql
    let rows ← pages.rowsBelow deepest page.toNat
    return { table with rows := rows.map (fit table) }
  | _ => none

def database? (pages : Pages) : Option Database := do
  let schema ← pages.rowsBelow deepest 1
  return ⟨schema.filterMap pages.tableOf?⟩

end Pages

def Database.ofBytes? (bytes : ByteArray) : Option Database := do
  (← Pages.ofBytes? bytes).database?

end GridReport.Store
