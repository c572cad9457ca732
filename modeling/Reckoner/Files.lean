import Reckoner.Files.Path

/-!
# Files and directories

The files and directories that a program sees, as far as it makes directories and appends to files.
The working directory and those above it are always there. A path is followed component by
component, so that each of them has to be a directory; to open a file its path is first shortened by
its text alone.

What is said of files is said under these assumptions: nobody else changes them, everything that is
there may be read, searched and written by the program, no path is too long as a whole, and a file
is an ordinary one, which keeps what is appended to it and shows it nowhere else. A file may have no
room for a text. What is appended to it then is lost, and the program learns so when it closes the
file.
-/

namespace Reckoner

/-- Why a file or a directory cannot be used. -/
inductive FileError where
  /-- A file was expected. -/
  | isDirectory
  /-- Something of this name exists. -/
  | alreadyExists
  /-- A component of the path is a file. -/
  | notDirectory
  /-- A component of the path does not exist. -/
  | notFound
  /-- A name is too long. -/
  | nameTooLong
  /-- There is a null character in the path. -/
  | nullCharacter
  /-- There is no room for what was written. -/
  | noSpace
  deriving DecidableEq

/-- The wording of a file error. -/
def FileError.message : FileError → String
  | isDirectory => "Is a directory"
  | alreadyExists => "File exists"
  | notDirectory => "Not a directory"
  | notFound => "No such file or directory"
  | nameTooLong => "File name too long"
  | nullCharacter => "embedded null byte"
  | noSpace => "No space left on device"

/-- What is at a place. -/
inductive FileKind where
  /-- A directory. -/
  | directory
  /-- A file. -/
  | file
  deriving DecidableEq

/-- The files and directories, by their places. -/
structure Files where
  /-- The directories besides those that are always there. -/
  directories : List (List String)
  /-- The files with their contents, in the order in which they were made. -/
  contents : List (List String × String)
  /-- The places of the files that have no room for any more text. -/
  full : List (List String)

namespace Files

/-- No files, and no directories besides those that are always there. -/
def empty : Files := ⟨[], [], []⟩

/-- The greatest number of bytes in the name of a file. -/
def nameLimit : Nat := 255

/-- Whether a place is a directory that is always there. -/
def isGiven (place : List String) : Bool := place == ["/"] || place.all (· == above)

/-- What is at a place, if anything. -/
def kind? (fs : Files) (place : List String) : Option FileKind :=
  if isGiven place || fs.directories.contains place then some .directory
  else if fs.contents.any (·.1 == place) then some .file
  else none

/-- The content of the file at a place. -/
def read? (fs : Files) (place : List String) : Option String :=
  (fs.contents.find? (·.1 == place)).map Prod.snd

/-- Whether the file at a place has no room for any more text. -/
def isFull (fs : Files) (place : List String) : Bool := fs.full.contains place

/-- Go from a directory to the one that a component names. -/
def step (fs : Files) (place : List String) (part : String) : Except FileError (List String) :=
  if part == above then .ok (Path.descend place part)
  else if nameLimit < part.utf8ByteSize then .error .nameTooLong
  else match fs.kind? (place ++ [part]) with
    | some .directory => .ok (place ++ [part])
    | some .file => .error .notDirectory
    | none => .error .notFound

/-- Follow the components of a path from the place where it starts. -/
def follow (fs : Files) (p : Path) : Except FileError (List String) :=
  p.parts.foldlM fs.step (if p.isAbsolute then ["/"] else [])

/-- Whether a path leads to a directory. -/
def isDirectory (fs : Files) (p : Path) : Bool :=
  match fs.follow p with
  | .ok _ => true
  | .error _ => false

/-- Make a directory in one that exists. -/
def makeDirectory (fs : Files) (p : Path) : Except FileError Files :=
  match p.parts.getLast? with
  | none => .error .alreadyExists
  | some last =>
    match fs.follow p.parent with
    | .error e => .error e
    | .ok base =>
      if last == above then .error .alreadyExists
      else if nameLimit < last.utf8ByteSize then .error .nameTooLong
      else if (fs.kind? (base ++ [last])).isSome then .error .alreadyExists
      else .ok { fs with directories := fs.directories ++ [base ++ [last]] }

/-- Make the directory of a path, given by its components from the last to the first, and those
above it, unless they are there. What was made before an error stays. -/
def makeDirectories (fs : Files) (isAbsolute : Bool) :
    List String → Files × Option FileError
  | [] => (fs, none)
  | part :: up =>
    let p : Path := ⟨isAbsolute, (part :: up).reverse⟩
    let settle (fs : Files) (e : FileError) : Files × Option FileError :=
      if e ≠ .notFound ∧ fs.isDirectory p then (fs, none) else (fs, some e)
    match fs.makeDirectory p with
    | .ok fs => (fs, none)
    | .error .notFound =>
      match makeDirectories fs isAbsolute up with
      | (fs, some e) => (fs, some e)
      | (fs, none) =>
        match fs.makeDirectory p with
        | .ok fs => (fs, none)
        | .error e => settle fs e
    | .error e => settle fs e

/-- Open a file to append to it; it is made if it is not there. -/
def openAppend (fs : Files) (place : List String) : Except FileError Files :=
  match fs.kind? place with
  | some .directory => .error .isDirectory
  | some .file => .ok fs
  | none =>
    match fs.follow ⟨false, place.dropLast⟩ with
    | .error e => .error e
    | .ok _ =>
      if nameLimit < (place.getLast?.getD "").utf8ByteSize then .error .nameTooLong
      else .ok { fs with contents := fs.contents ++ [(place, "")] }

/-- Append a text to the file at a place, if it has room. -/
def append (fs : Files) (place : List String) (text : String) : Files :=
  if fs.isFull place then fs
  else
    { fs with contents := fs.contents.map fun f => if f.1 == place then (f.1, f.2 ++ text) else f }

/-- Open the file of a path to append to it, in directories that are made if they are not there.
What was made before an error stays; a null character is noticed as soon as the path is used. -/
def openLog (fs : Files) (p : Path) : Files × Option FileError :=
  if p.parent.hasNull then (fs, some .nullCharacter)
  else match fs.makeDirectories p.isAbsolute p.parent.parts.reverse with
    | (fs, some e) => (fs, some e)
    | (fs, none) =>
      if p.hasNull then (fs, some .nullCharacter)
      else match fs.openAppend p.place with
        | .ok fs => (fs, none)
        | .error e => (fs, some e)

/-- Appending adds to the file that is appended to. -/
theorem read?_append {fs : Files} {place : List String} {content : String}
    (h : fs.read? place = some content) (hroom : fs.isFull place = false) (text : String) :
    (fs.append place text).read? place = some (content ++ text) := by
  obtain ⟨dirs, files, full⟩ := fs
  simp only [append, hroom, Bool.false_eq_true, if_false]
  clear hroom
  simp only [read?] at *
  induction files with
  | nil => simp at h
  | cons f rest ih =>
    cases hf : f.1 == place
    · simp only [List.find?_cons, hf] at h
      simp only [List.map_cons, List.find?_cons, hf, Bool.false_eq_true, if_false]
      exact ih h
    · simp only [List.find?_cons, hf, Option.map_some, Option.some.injEq] at h
      simp only [List.map_cons, List.find?_cons, hf, if_true, Option.map_some, h]

end Files

end Reckoner
