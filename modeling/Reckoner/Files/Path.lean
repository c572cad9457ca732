/-!
# Paths

A path is a list of components, counted from the working directory or, if it is absolute, from the
top. Empty components and single dots are dropped when it is read; double dots stay, because the
directory before them has to exist for a path to be followed.
-/

namespace Reckoner

/-- A path of a file or a directory. -/
structure Path where
  /-- Whether the path starts at the top. -/
  isAbsolute : Bool
  /-- The components, none of them empty or a single dot. -/
  parts : List String
  deriving DecidableEq

/-- The component that leads to the directory above. -/
def above : String := ".."

namespace Path

/-- Cut a text at its slashes. -/
def splitSlashes : List Char → List (List Char)
  | [] => [[]]
  | '/' :: cs => [] :: splitSlashes cs
  | c :: cs =>
    match splitSlashes cs with
    | p :: ps => (c :: p) :: ps
    | [] => [[c]]

/-- Read a path. -/
def ofText (s : String) : Path :=
  let cs := s.toList
  ⟨cs.head? == some '/',
    ((splitSlashes cs).filter fun p => !p.isEmpty && p != ['.']).map String.ofList⟩

/-- A path as text; the working directory is a single dot. -/
def text (p : Path) : String :=
  let joined := String.intercalate "/" p.parts
  if p.isAbsolute then "/" ++ joined else if p.parts.isEmpty then "." else joined

/-- The path without its last component. -/
def parent (p : Path) : Path := { p with parts := p.parts.dropLast }

/-- One more component of a path that leads straight down; double dots take one away where there is
one to take. -/
def descend (place : List String) (part : String) : List String :=
  if part == above then
    match place.getLast? with
    | none => [above]
    | some last => if last == above then place ++ [above] else place.dropLast
  else place ++ [part]

/-- The place of a path that is followed by its text alone, without asking what exists. -/
def place (p : Path) : List String :=
  let start := if p.isAbsolute then ["/"] else []
  p.parts.foldl descend start

/-- The places on the way from the start of a path to its place, in order. -/
def waypoints (p : Path) : List (List String) :=
  (p.parts.foldl (fun (here, seen) part => (descend here part, seen ++ [descend here part]))
    (if p.isAbsolute then ["/"] else [], [])).2

/-- Whether there is a null character in a path; no file can have such a name. -/
def hasNull (p : Path) : Bool := p.parts.any fun part => part.toList.contains '\x00'

end Path

end Reckoner
