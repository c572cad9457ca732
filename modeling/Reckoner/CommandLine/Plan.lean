import Reckoner.CommandLine.Run

/-!
# What a run needs

Before a run starts it can be told which files it may open and whether it reads the standard input.
A run that does not read the input is the same for every input.
-/

namespace Reckoner.CommandLine

/-- The calculation that a run comes to, with its settings. -/
def Invocation.plan? (inv : Invocation) (host : Host) (files : Files) :
    Option (Settings × Arguments) :=
  match (host.load inv.environment files).settings with
  | .error _ => none
  | .ok s =>
    match Request.ofArguments s.maxNestingDepth inv.args with
    | .ok (.calculate a) => some (s, a)
    | _ => none

/-- The paths of the files that a run may open. -/
def Invocation.paths (inv : Invocation) (host : Host) (files : Files) : List Path :=
  match inv.plan? host files with
  | none => []
  | some (s, a) => (s.logFile.map Path.ofText).toList ++ ((historyPath? a s).map Prod.fst).toList

/-- Whether a run reads the standard input. -/
def Invocation.readsInput (inv : Invocation) (host : Host) (files : Files) : Bool :=
  match inv.plan? host files with
  | none => false
  | some (_, a) => a.expression.isNone

/-- The expression among the arguments stands for any input. -/
theorem findExpression_of_isSome {a : Arguments} (h : a.expression.isSome = true) (host : Host)
    (limit : Int) (input other : StandardInput) :
    findExpression host a limit input = findExpression host a limit other := by
  obtain ⟨e, he⟩ := Option.isSome_iff_exists.mp h
  simp [findExpression, he]

/-- A run that does not read the standard input does not depend on it. -/
theorem run_congr_input {host : Host} {time : Moment} {inv : Invocation} {files : Files}
    (h : inv.readsInput host files = false) (input : StandardInput) :
    run host time { inv with input := input } files = run host time inv files := by
  simp only [Invocation.readsInput, Invocation.plan?] at h
  simp only [run]
  cases hs : (host.load inv.environment files).settings with
  | error i => rfl
  | ok s =>
    simp only [hs] at h
    simp only [answer]
    cases hr : Request.ofArguments s.maxNestingDepth inv.args with
    | error e => rfl
    | ok r =>
      cases r with
      | help => rfl
      | version => rfl
      | calculate a =>
        simp only [hr] at h
        have ha : a.expression.isSome = true := by
          cases he : a.expression <;> simp_all
        simp only [calculateRequested, calculateFound,
          findExpression_of_isSome ha host s.maxInputSize input inv.input]

end Reckoner.CommandLine
