import Reckoner.Calculation
import Reckoner.Number.Reading
import Reckoner.Settings

/-!
# Lenient fields

The settings and the options of a calculation can be given as named plain data, which is read
leniently: a text that spells a number stands for it, `true` for one, a double without a fraction
for a whole number. A field that is not given has its default.
-/

namespace Reckoner

/-- The whole number that a finite double is, if it has no fraction. -/
def exactInt? (x : Float) : Option Int :=
  let r := exactMagnitude x
  if r.1 % r.2 = 0 then some (if signBit x then -(r.1 / r.2 : Nat) else (r.1 / r.2 : Nat))
  else none

namespace Scalar

/-- Read a scalar leniently as a whole number. -/
def toInt : Scalar → Except Problem Int
  | null => .error .intType
  | bool b => .ok (if b then 1 else 0)
  | int n => .ok n
  | float x =>
    if x.isFinite then
      match exactInt? x with
      | some n => .ok n
      | none => .error .intFromFloat
    else .error .finiteNumber
  | text s =>
    match readPlainInt? s with
    | some n => .ok n
    | none => .error .intParsing

/-- The words for a truth value, in lower case. -/
def truthOfWord? (s : String) : Option Bool :=
  if ["1", "on", "t", "true", "y", "yes"].contains s then some true
  else if ["0", "off", "f", "false", "n", "no"].contains s then some false
  else none

/-- The truth value of the numbers one and zero. -/
def truthOfInt (n : Int) : Except Problem Bool :=
  if n = 1 then .ok true else if n = 0 then .ok false else .error .boolParsing

/-- Read a scalar leniently as a truth value. -/
def toBool : Scalar → Except Problem Bool
  | null => .error .boolType
  | bool b => .ok b
  | int n => truthOfInt n
  | float x =>
    match if x.isFinite then exactInt? x else none with
    | some n => truthOfInt n
    | none => .error .boolType
  | text s =>
    match truthOfWord? (String.ofList (s.toList.map Char.toLower)) with
    | some b => .ok b
    | none => .error .boolParsing

/-- Read a scalar as a text. -/
def toText : Scalar → Except Problem String
  | text s => .ok s
  | _ => .error .stringType

/-- Read a scalar as a text or as nothing. -/
def toText? : Scalar → Except Problem (Option String)
  | null => .ok none
  | text s => .ok (some s)
  | _ => .error .stringType

end Scalar

/-- Two outcomes together: both results, or all problems in order. -/
def bothFields {α β : Type} (a : Except Invalid α) (b : Except Invalid β) :
    Except Invalid (α × β) :=
  match a, b with
  | .ok a, .ok b => .ok (a, b)
  | .error p, .error q => .error ⟨p.problems ++ q.problems⟩
  | .error p, _ => .error p
  | _, .error q => .error q

/-- A field of a list of named scalars; of two of one name the later counts. -/
def field? (fields : List (String × Scalar)) (name : String) : Option Scalar :=
  (fields.reverse.find? fun f => f.1 == name).map Prod.snd

/-- Read the field of a name; one that is not given has its default. -/
def readField {α : Type} (fields : List (String × Scalar)) (name : String)
    (reader : Scalar → Except Problem α) (absent : α) : Except Invalid α :=
  match field? fields name with
  | some s => checkField name (reader s)
  | none => .ok absent

/-- Read the nesting limit, which has to be positive. -/
def Options.readDepth (s : Scalar) : Except Problem Int :=
  match s.toInt with
  | .error p => .error p
  | .ok n => if 0 < n then .ok n else .error .greaterThan

/-- The options that named fields give; fields of other names are ignored. -/
def Options.ofFields (fields : List (String × Scalar)) : Except Invalid Options :=
  (bothFields (readField fields "show_tokens" Scalar.toBool false)
    (bothFields (readField fields "show_ast" Scalar.toBool false)
      (readField fields "max_depth" Options.readDepth Parser.defaultLimit))).map
    fun p => ⟨p.1, p.2.1, p.2.2⟩

namespace Settings

/-- The settings that named fields give; fields of other names are ignored. -/
def ofFields (fields : List (String × Scalar)) : Except Invalid Settings :=
  (bothFields (readField fields "APP_NAME" Scalar.toText default.appName)
    (bothFields (readField fields "APP_VERSION" Scalar.toText default.appVersion)
      (bothFields (readField fields "LOG_LEVEL" Scalar.toText default.logLevel)
        (bothFields (readField fields "LOG_FORMAT" Scalar.toText default.logFormat)
          (bothFields (readField fields "LOG_FILE" Scalar.toText? default.logFile)
            (bothFields (readField fields "MAX_INPUT_SIZE" Scalar.toInt default.maxInputSize)
              (bothFields
                (readField fields "MAX_NESTING_DEPTH" Scalar.toInt default.maxNestingDepth)
                (readField fields "HISTORY_FILE" Scalar.toText? default.historyFile)))))))).map
    fun (name, version, level, format, file, size, depth, history) =>
      ⟨name, version, level, format, file, size, depth, history⟩

end Settings

end Reckoner
