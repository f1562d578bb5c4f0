import BlockScript.Target

/-!
# Loading projects

A project is loaded from a text or from a file. The file itself is described by a `FileContent`, so
that what loading makes of it is a plain function.
-/

namespace BlockScript

/-- What is found at a path. -/
inductive FileContent where
  /-- It cannot be opened, for the reason given. -/
  | closed (reason : String)
  /-- It can be opened but not read, as a directory. -/
  | unreadable
  /-- A file with this content. -/
  | octets (content : List UInt8)

/-- The reason for which a file that does not exist cannot be opened. -/
def FileContent.noSuchFile : FileContent :=
  .closed "No such file or directory (os error 2)"

namespace Project

/-- Why a project cannot be loaded. -/
inductive LoadError where
  /-- The file cannot be opened. -/
  | cannotOpen (path reason : String)
  /-- The file cannot be read. -/
  | cannotRead
  /-- The content is refused. -/
  | refused (cause : Refusal)
  /-- There is no target. -/
  | noTargets
deriving DecidableEq

/-- Why a project cannot be loaded, in words, where there is more to say than that its text is not
well formed or cannot be read. -/
def LoadError.message? : LoadError → Option String
  | .cannotOpen path reason => some ("could not open " ++ path ++ ": " ++ reason)
  | .cannotRead => none
  | .refused .malformed => none
  | .refused (.mismatch cause) => some cause.message
  | .noTargets => some "project has no targets"

/-- The project of a text. -/
def ofOctets (octets : List UInt8) : Except LoadError Project :=
  match Decoder.decodeText decode octets with
  | .error cause => .error (.refused cause)
  | .ok project => if project.targets = [] then .error .noTargets else .ok project

/-- The project of what is found at a path. -/
def load (path : String) : FileContent → Except LoadError Project
  | .closed reason => .error (.cannotOpen path reason)
  | .unreadable => .error .cannotRead
  | .octets content => ofOctets content

end Project

end BlockScript
