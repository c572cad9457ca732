import Reckoner.Log.Data
import Reckoner.Log.Level
import Reckoner.Text.Template

/-!
# Log records

A record is a message of a logger at a level, with the place in the program that wrote it and with
further fields. It is written on one line, as plain text or as data: the data fields stand in a
fixed order, and a further field either replaces a field of its name at its place or comes last.
The line of a calculation log is a data line that was relieved of the place in the program.

A logger with a permanent context adds it to the further fields of every record. A field that the
record brings along itself replaces the one of the context at its place.
-/

namespace Reckoner

open Text

/-- The time of a record in the two forms in which it is written. -/
structure Moment where
  /-- The form of a data line. -/
  iso : String
  /-- The form of a plain line. -/
  civil : String

/-- A message to be logged. -/
structure Record where
  /-- The name of the logger. -/
  logger : String
  /-- The level. -/
  level : Int
  /-- The template of the message. -/
  template : String
  /-- The arguments of the template; without any the template is the message. -/
  args : List Scalar
  /-- The module that wrote the record. -/
  moduleName : String
  /-- The function that wrote the record. -/
  functionName : String
  /-- The line that wrote the record. -/
  line : Int
  /-- Further fields. -/
  extra : List (String × Scalar)
  /-- The kind and the text of an exception. -/
  exception : Option (String × String)

namespace Record

/-- The message of a record. -/
def message (r : Record) : Except Template.Misfit String :=
  if r.args.isEmpty then .ok r.template else Template.fill r.template r.args

/-- The exception of a record on one line. -/
def exceptionText (r : Record) : Option String :=
  r.exception.map fun e => if e.2.isEmpty then e.1 else e.1 ++ ": " ++ e.2

/-- A message with the exception of its record on the next line. -/
def withException (r : Record) (message : String) : String :=
  match r.exceptionText with
  | none => message
  | some e => if message.endsWith "\n" then message ++ e else message ++ "\n" ++ e

end Record

/-- The name of the module in a file: the last component of its path without its last extension. -/
def moduleOfPath (path : String) : String :=
  let base := (path.toList.reverse.takeWhile (· != '/')).reverse
  let dots := base.takeWhile (· == '.')
  let rest := (base.drop dots.length).reverse
  let stem := (rest.dropWhile (· != '.')).drop 1
  if rest.contains '.' then String.ofList (dots ++ stem.reverse) else String.ofList base

/-- Set a field of a list of named data: in place if its name is there, else at the end. -/
def setField {α : Type} (fields : List (String × α)) (f : String × α) : List (String × α) :=
  if fields.any (·.1 == f.1) then fields.map fun g => if g.1 == f.1 then f else g
  else fields ++ [f]

/-- Set several fields in order. -/
def setFields {α : Type} (fields new : List (String × α)) : List (String × α) :=
  new.foldl setField fields

/-- Setting a field that is there keeps the names and their order. -/
theorem map_fst_setField {α : Type} {fields : List (String × α)} {f : String × α}
    (h : fields.any (·.1 == f.1) = true) :
    (setField fields f).map Prod.fst = fields.map Prod.fst := by
  rw [setField, if_pos h, List.map_map]
  apply List.map_congr_left
  intro g _
  simp only [Function.comp_apply]
  split
  · rename_i hg
    exact (beq_iff_eq.mp hg).symm
  · rfl

/-! ### Permanent context -/

/-- An argument of a logging call: plain data, or the further fields of the record. -/
inductive Attachment where
  /-- Plain data. -/
  | scalar (s : Scalar)
  /-- Named data. -/
  | fields (fs : List (String × Scalar))

/-- The further fields of a record under a permanent context. -/
def withContext (context own : List (String × Scalar)) : List (String × Scalar) :=
  setFields (setFields [] context) own

/-- The attachments of a record under a permanent context: the further fields are set among those
that are there already. -/
def attach (context own : List (String × Scalar)) (attached : List (String × Scalar)) :
    List (String × Attachment) :=
  setField (setFields [] (attached.map fun a => (a.1, Attachment.scalar a.2)))
    ("extra_data", .fields (withContext context own))

/-! ### Lines -/

/-- How records are written. -/
inductive LineFormat where
  /-- A plain line. -/
  | plain
  /-- A data line with the place in the program. -/
  | structured
  /-- A data line of a calculation log. -/
  | history
  deriving DecidableEq

/-- The data fields of a record with a message. -/
def Record.fields (r : Record) (time : Moment) (message : String) : List (String × Scalar) :=
  setFields
    ([("timestamp", .text time.iso), ("level", .text (levelName r.level)),
      ("logger", .text r.logger), ("message", .text message), ("module", .text r.moduleName),
      ("function", .text r.functionName), ("line", .int r.line)] ++
      (r.exceptionText.map fun e => ("exception", Scalar.text e)).toList)
    r.extra

/-- The names of the fields that a calculation log leaves out. -/
def placeFields : List String := ["module", "function", "line"]

/-- A data line without the place in the program: it is read, its fields are picked, and they are
written again. -/
def withoutPlace (line : String) : String :=
  dataLine (((Data.readLine? true line).getD []).filter fun f => !placeFields.contains f.1)

/-- A record on one line, without the end of the line. -/
def LineFormat.render (f : LineFormat) (time : Moment) (r : Record) :
    Except Template.Misfit String :=
  r.message.map fun message =>
    match f with
    | plain =>
      r.withException
        (time.civil ++ " - " ++ r.logger ++ " - " ++ levelName r.level ++ " - " ++ message)
    | structured => dataLine (r.fields time message)
    | history => withoutPlace (dataLine (r.fields time message))

end Reckoner
