import Reckoner.Calculation
import Reckoner.Files
import Reckoner.Settings

/-!
# Hosts

A run takes from its host what is not part of the program: the operations on doubles, the libraries
that load the settings and check the options, and a machine whose memory and stack have bounds. A
host is a record of choices, so that a law of runs can be stated for any of them.
-/

namespace Reckoner.CommandLine

/-- What loading the settings comes to. -/
structure Loading where
  /-- What is written to the console on the way. -/
  report : String
  /-- The settings, or what is wrong with them. -/
  settings : Except Invalid Settings

/-- What a run takes from its host. -/
structure Host where
  /-- The operations on doubles. -/
  ops : FloatOps
  /-- Load the settings from the environment and the files of the working directory. -/
  load : List (String × String) → Files → Loading
  /-- Check the nesting limit of a calculation, if there is one. -/
  checkLimit : Option Int → Except Invalid Int
  /-- Whether so many characters of the standard input can be read, or all of them if the number is
  negative: they are text, and there is memory for them. -/
  canRead : Int → Bool
  /-- After how many emissions the stack runs out in a calculation, if it does. -/
  stackEnd? : Options → String → Option Nat

namespace Host

/-- What is documented of the check of nesting limits: a positive number is taken as it is, and
nothing else is valid. -/
structure ChecksLimits (host : Host) : Prop where
  /-- A positive limit is valid. -/
  positive : ∀ n, 0 < n → host.checkLimit (some n) = .ok n
  /-- Any other limit is not valid. -/
  other : ∀ n ≤ 0, ∃ i, host.checkLimit (some n) = .error i
  /-- There has to be a limit. -/
  absent : ∃ i, host.checkLimit none = .error i

/-- A host with room for every run. -/
def ample (ops : FloatOps) (load : List (String × String) → Files → Loading) : Host where
  ops := ops
  load := load
  checkLimit
    | some n => if 0 < n then .ok n else .error ⟨[("max_depth", .greaterThan)]⟩
    | none => .error ⟨[("max_depth", .intType)]⟩
  canRead _ := true
  stackEnd? _ _ := none

end Host

end Reckoner.CommandLine
