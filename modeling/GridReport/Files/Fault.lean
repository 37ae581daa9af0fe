/-!
What can go wrong with a path, in the words of the operating system.
-/

namespace GridReport

/-- Why a path could not be read, written or made. -/
inductive FileFault where
  | absent
  | isDirectory
  | notDirectory
  | alreadyExists
  | notText
deriving Repr, DecidableEq

def FileFault.message : FileFault → String
  | .absent => "No such file or directory (os error 2)"
  | .isDirectory => "Is a directory (os error 21)"
  | .notDirectory => "Not a directory (os error 20)"
  | .alreadyExists => "File exists (os error 17)"
  | .notText => "stream did not contain valid UTF-8"

end GridReport
