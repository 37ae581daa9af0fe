import GridReport.Chart.Svg
import GridReport.Files.Fault
import GridReport.Store.Table

/-!
A file tree, as a value.

A run reads files out of a tree and gives back the tree that it leaves. A place in the tree is a
list of names from the working directory; a path is text that leads to a place, or to a fault. The
root of the file system and the directories above the working directory are places too.
-/

namespace GridReport

/-- What is at a place. -/
inductive Node where
  | directory
  | text (content : String)
  /-- Bytes that are no text. -/
  | binary (bytes : List UInt8)
  | database (content : Store.Database)
  | drawing (content : Drawing)

/-- The content is the same. A run changes no database, so any two databases count as the same. -/
def Node.isSame : Node → Node → Bool
  | .directory, .directory => true
  | .text a, .text b => a == b
  | .binary a, .binary b => a == b
  | .database _, .database _ => true
  | .drawing a, .drawing b => a == b
  | _, _ => false

/-- A place: the names that lead to it from the working directory. Two dots lead to the directory
above, as long as nothing else stands before them; a slash in front leads from the root. -/
abbrev Place := List String

namespace Place

def root : Place := ["/"]

/-- The working directory, or a directory above it. -/
def isAbove (place : Place) : Bool := place.all (· == "..")

def parent (place : Place) : Place :=
  if place = root then root else if place.isAbove then place ++ [".."] else place.dropLast

def path : Place → String
  | "/" :: names => "/" ++ String.intercalate "/" names
  | names => String.intercalate "/" names

end Place

/-- The content of a working directory: what is at each place below it. -/
structure Files where
  nodes : List (Place × Node)

namespace Files

/-- A directory with nothing in it. -/
def empty : Files := ⟨[]⟩

/-- What is at a place. The root, the working directory and what is above it are always there. -/
def at? (files : Files) (place : Place) : Option Node :=
  if place.isAbove || place == Place.root then some .directory else files.nodes.lookup place

def setNode (place : Place) (node : Node) : List (Place × Node) → List (Place × Node)
  | [] => [(place, node)]
  | entry :: rest =>
    if entry.1 = place then (place, node) :: rest else entry :: setNode place node rest

/-- The nodes that are new in a tree, or that differ from an earlier tree. -/
def changes (before after : Files) : List (Place × Node) :=
  after.nodes.filter fun entry =>
    match before.at? entry.1 with
    | none => true
    | some node => !node.isSame entry.2

def put (files : Files) (place : Place) (node : Node) : Files :=
  ⟨setNode place node files.nodes⟩

/-- The names of a path. An empty name and a dot stand for the directory reached so far. -/
def names (path : String) : List String := (path.splitToList (· == '/'))

/-- The path starts at the root of the file system. -/
def isAbsolute (path : String) : Bool := path.startsWith "/"

def origin (path : String) : Place := if isAbsolute path then Place.root else []

/-- The name stands for the directory itself. -/
def isSelf (name : String) : Bool := name == "" || name == "."

/-- The places that names lead through from a place, whatever is there. -/
def placesFrom (place : Place) : List String → List Place
  | [] => []
  | name :: rest =>
    if isSelf name then placesFrom place rest
    else
      let next := if name = ".." then Place.parent place else place ++ [name]
      next :: placesFrom next rest

def placesAlong (path : String) : List Place := placesFrom (origin path) (names path)

/-- Follows names from a place. Every place that is left must be a directory; the last one need not
be there. -/
def walk (files : Files) (place : Place) : List String → Except FileFault Place
  | [] => .ok place
  | name :: rest =>
    match files.at? place with
    | none => .error .absent
    | some .directory =>
      if isSelf name then walk files place rest
      else if name = ".." then walk files (Place.parent place) rest
      else walk files (place ++ [name]) rest
    | some _ => .error .notDirectory

def resolve (files : Files) (path : String) : Except FileFault Place :=
  if path = "" then .error .absent else walk files (origin path) (names path)

def find (files : Files) (path : String) : Except FileFault Node := do
  let place ← files.resolve path
  match files.at? place with
  | some node => return node
  | none => throw .absent

def pathExists (files : Files) (path : String) : Bool := (files.find path).toOption.isSome

def isDirectory (files : Files) (path : String) : Bool :=
  match files.find path with
  | .ok .directory => true
  | _ => false

def isFile (files : Files) (path : String) : Bool :=
  match files.find path with
  | .ok .directory => false
  | .ok _ => true
  | .error _ => false

def readText (files : Files) (path : String) : Except FileFault String := do
  match ← files.find path with
  | .text content => return content
  | .drawing content => return Svg.render content
  | .directory => throw .isDirectory
  | .binary _ => throw .notText
  | .database _ => throw .notText

/-- The place of a file to be written: its directory is there, and it is no directory itself. -/
def writable (files : Files) (path : String) : Except FileFault Place := do
  let parts := names path
  let kept := (parts.reverse.dropWhile (· == "")).reverse
  let name := kept.getLast?.getD ""
  let parent ← if path = "" then throw .absent else walk files (origin path) kept.dropLast
  match files.at? parent with
  | none => throw .absent
  | some .directory =>
    let place := parent ++ [name]
    if kept.length < parts.length || name = "." || name = ".." then throw .isDirectory
    match files.at? place with
    | some .directory => throw .isDirectory
    | _ => return place
  | some _ => throw .notDirectory

def writeText (files : Files) (path content : String) : Except FileFault Files := do
  return files.put (← files.writable path) (.text content)

/-- Makes the directories along names from a place, some having been made before. What is made in
front of a fault stays. -/
def makeAlong (files : Files) (made : Bool) (place : Place) :
    List String → Except FileFault Unit × Files
  | [] => (.ok (), files)
  | name :: rest =>
    if isSelf name then makeAlong files made place rest
    else if name = ".." then makeAlong files made (Place.parent place) rest
    else
      let next := place ++ [name]
      match files.at? next with
      | none => makeAlong (files.put next .directory) true next rest
      | some .directory => makeAlong files made next rest
      | some _ =>
        (.error (if made || rest.all (· == "") then .alreadyExists else .notDirectory), files)

def makeDirectories (files : Files) (path : String) : Except FileFault Unit × Files :=
  makeAlong files false (origin path) (names path)

def join (directory path : String) : String :=
  if isAbsolute path || directory == "" then path
  else if directory.endsWith "/" then directory ++ path
  else directory ++ "/" ++ path

/-- The name of the file that a path leads to, without its last extension. A name that starts with
its only dot has no extension. -/
def stem? (path : String) : Option String :=
  match (names path).reverse.dropWhile isSelf with
  | [] => none
  | ".." :: _ => none
  | name :: _ =>
    let pieces := name.splitToList (· == '.')
    match pieces.dropLast with
    | [] => some name
    | [""] => some name
    | kept => some (String.intercalate "." kept)

end Files

end GridReport
