import Reckoner.Text.Classes

/-!
# Environment files

An environment file is a sequence of statements, each of which gives a value to a name. A statement
may start with the word `export`; its value is in single quotes, in double quotes or plain to the
end of the line, and a comment may follow. A statement that cannot be read is skipped to the end of
its line and reported by the line where it was expected. References in values are replaced when the
whole file is known.
-/

namespace Reckoner

open Text

/-- A statement of an environment file. -/
inductive EnvFile.Statement where
  /-- A name with its value; without an equals sign it has none. -/
  | setting (name : String) (value : Option String)
  /-- Nothing but blanks or a comment. -/
  | blank
  /-- Something that cannot be read. -/
  | unreadable
  deriving DecidableEq

/-- The content of an environment file. -/
structure EnvFile where
  /-- The names with their values, in the order of their statements. -/
  settings : List (String × Option String)
  /-- The lines where a statement was expected that cannot be read. -/
  unreadable : List Nat
  deriving DecidableEq

namespace EnvFile

/-- Drop a comment and the rest of the blanks of a line. -/
def dropComment (cs : List Char) : List Char :=
  match cs.dropWhile isInlineBlank with
  | '#' :: rest => rest.dropWhile (· != '\n')
  | rest => rest

/-- Drop the rest of a line with its end. -/
def dropLine (cs : List Char) : List Char := (cs.dropWhile (· != '\n')).drop 1

/-- Drop the word that may stand in front of a name. -/
def dropExport (cs : List Char) : List Char :=
  let word := ['e', 'x', 'p', 'o', 'r', 't']
  let rest := cs.drop word.length
  if word.isPrefixOf cs && (rest.head?.map isInlineBlank).getD false then
    rest.dropWhile isInlineBlank
  else cs

/-- Cut off a name that is not empty. -/
def takeWord? (p : Char → Bool) (cs : List Char) : Option (String × List Char) :=
  let name := cs.takeWhile p
  if name.isEmpty then none else some (String.ofList name, cs.dropWhile p)

/-- Cut off a name: in single quotes, or up to a blank, an equals sign or a comment. -/
def takeName? (cs : List Char) : Option (String × List Char) :=
  match cs with
  | '\'' :: rest =>
    match takeWord? (· != '\'') rest with
    | some (name, '\'' :: rest) => some (name, rest)
    | _ => none
  | _ => takeWord? (fun c => c != '=' && c != '#' && !isBlank c) cs

/-- Cut a text at its closing quote. A quote after a backslash closes only if none follows. -/
def takeQuoted? (quote : Char) : List Char → Option (List Char × List Char)
  | [] => none
  | '\\' :: c :: cs =>
    if c == quote then
      match takeQuoted? quote cs with
      | some (body, rest) => some ('\\' :: c :: body, rest)
      | none => some (['\\'], cs)
    else (takeQuoted? quote (c :: cs)).map fun r => ('\\' :: r.1, r.2)
  | c :: cs =>
    if c == quote then some ([], cs) else (takeQuoted? quote cs).map fun r => (c :: r.1, r.2)

/-- Replace a backslash and a letter by what they stand for. -/
def unescape (escapes : List (Char × Char)) : List Char → List Char
  | '\\' :: c :: cs =>
    match escapes.lookup c with
    | some d => d :: unescape escapes cs
    | none => '\\' :: unescape escapes (c :: cs)
  | c :: cs => c :: unescape escapes cs
  | [] => []

/-- What can stand after a backslash in single quotes. -/
def singleEscapes : List (Char × Char) := [('\\', '\\'), ('\'', '\'')]

/-- What can stand after a backslash in double quotes. -/
def doubleEscapes : List (Char × Char) :=
  [('\\', '\\'), ('\'', '\''), ('"', '"'), ('a', '\x07'), ('b', '\x08'), ('f', '\x0c'),
    ('n', '\n'), ('r', '\r'), ('t', '\t'), ('v', '\x0b')]

/-- Cut a plain value off at its comment, which starts after a blank. -/
def beforeComment : List Char → List Char
  | c :: '#' :: cs => if isBlank c then [] else c :: beforeComment ('#' :: cs)
  | c :: cs => c :: beforeComment cs
  | [] => []

/-- Cut off the value after an equals sign. -/
def takeValue? (cs : List Char) : Option (List Char × List Char) :=
  match cs with
  | '\'' :: rest => (takeQuoted? '\'' rest).map fun r => (unescape singleEscapes r.1, r.2)
  | '"' :: rest => (takeQuoted? '"' rest).map fun r => (unescape doubleEscapes r.1, r.2)
  | _ =>
    some (trimEnd isBlank (beforeComment (cs.takeWhile (· != '\n'))), cs.dropWhile (· != '\n'))

/-- The end of a statement: a comment may come first, and nothing else. -/
def endStatement (s : Statement) (cs : List Char) : Statement × List Char :=
  match dropComment cs with
  | [] => (s, [])
  | '\n' :: rest => (s, rest)
  | rest => (.unreadable, dropLine rest)

/-- Read a statement from its name on, and give what follows its line. -/
def readAssignment (cs : List Char) : Statement × List Char :=
  match takeName? cs with
  | none => (.unreadable, dropLine cs)
  | some (name, rest) =>
    match rest.dropWhile isInlineBlank with
    | '=' :: rest =>
      let rest := rest.dropWhile isInlineBlank
      match takeValue? rest with
      | none => (.unreadable, dropLine rest)
      | some (value, rest) => endStatement (.setting name (some (String.ofList value))) rest
    | rest => endStatement (.setting name none) rest

/-- Read a statement and give what follows its line. -/
def readStatement (cs : List Char) : Statement × List Char :=
  match cs.dropWhile isBlank with
  | [] => (.blank, [])
  | cs =>
    match dropExport cs with
    | '#' :: cs => endStatement .blank ('#' :: cs)
    | cs => readAssignment cs

/-- Read statements up to the end, each with the number of characters from its start. -/
def readStatements (cs : List Char) : List (Statement × Nat) :=
  let r := readStatement cs
  if r.2.length < cs.length then (r.1, cs.length) :: readStatements r.2 else []
termination_by cs.length

/-- The number of the line on which a text goes on, if so many characters remain. -/
def lineAt (cs : List Char) (remaining : Nat) : Nat :=
  (cs.take (cs.length - remaining)).count '\n' + 1

/-- Read an environment file. -/
def ofText (s : String) : EnvFile :=
  let cs := unifyLineEnds s.toList
  let statements := readStatements cs
  ⟨statements.filterMap fun
      | (.setting name value, _) => some (name, value)
      | _ => none,
    statements.filterMap fun
      | (.unreadable, remaining) => some (lineAt cs remaining)
      | _ => none⟩

/-- The values of names; a name may be known to have none. -/
abbrev Scope := List (String × Option String)

/-- The value that a reference stands for: a name without a value gives nothing, and the default
counts for an unknown name alone. -/
def Scope.value (scope : Scope) (name : String) (default : Option String) : String :=
  match scope.lookup name with
  | some value => value.getD ""
  | none => default.getD ""

/-- A reference at the start of a text, with its default and its length. -/
def reference? : List Char → Option (String × Option String × Nat)
  | '$' :: '\x7b' :: cs =>
    let name := cs.takeWhile fun c => c != '\x7d' && c != ':'
    match cs.drop name.length with
    | '\x7d' :: _ => some (String.ofList name, none, name.length + 3)
    | ':' :: '-' :: rest =>
      let default := rest.takeWhile (· != '\x7d')
      if default.length < rest.length then
        some (String.ofList name, some (String.ofList default), name.length + default.length + 5)
      else none
    | _ => none
  | _ => none

/-- The names to which a text may refer. -/
def referencesIn : List Char → List String
  | [] => []
  | c :: cs =>
    match reference? (c :: cs) with
    | some (name, _, _) => name :: referencesIn cs
    | none => referencesIn cs

/-- The names to which the values of an environment file may refer. -/
def references (file : EnvFile) : List String :=
  file.settings.flatMap fun s => (s.2.map fun v => referencesIn v.toList).getD []

/-- Replace the references in a text after skipping some of its characters. -/
def expandFrom (scope : Scope) : Nat → List Char → List Char
  | _, [] => []
  | skip + 1, _ :: cs => expandFrom scope skip cs
  | 0, c :: cs =>
    match reference? (c :: cs) with
    | some (name, default, length) =>
      (scope.value name default).toList ++ expandFrom scope (length - 1) cs
    | none => c :: expandFrom scope 0 cs

/-- Replace the references in a value. -/
def expand (scope : Scope) (value : String) : String :=
  String.ofList (expandFrom scope 0 value.toList)

/-- Replace the references in settings: each sees the settings before it, and behind them the
surrounding scope. -/
def expandAll : Scope → List (String × Option String) → List (String × Option String)
  | _, [] => []
  | scope, (name, value) :: rest =>
    let value := value.map (expand scope)
    (name, value) :: expandAll ((name, value) :: scope) rest

end EnvFile

end Reckoner
