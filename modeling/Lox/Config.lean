/-!
# Settings

The settings that the stages share, with their defaults and the check that they make sense.
-/

namespace Lox

structure Config where
  /-- How deep groupings, branches and prefix operators may nest. -/
  maxNestingDepth : Int := 48
  /-- How deep an evaluation may nest. -/
  maxEvalDepth : Int := 200
  /-- Whether an ordering of anything but numbers is a fault; otherwise it is false. -/
  strictComparisons : Bool := false
  /-- What an interactive session shows before each line. -/
  prompt : String := "lox > "
  /-- Seconds between two looks at the quit flag of a session. -/
  pollInterval : Float := 0.05
deriving DecidableEq

inductive ConfigError
  | nestingDepth | evalDepth | pollInterval
deriving DecidableEq, Repr

def ConfigError.message : ConfigError → String
  | nestingDepth => "max_nesting_depth must be at least 1"
  | evalDepth => "max_eval_depth must be at least 1"
  | pollInterval => "poll_interval must be positive"

/-- The settings, if they make sense, or the first that does not. -/
def Config.check (c : Config) : Except ConfigError Config :=
  if c.maxNestingDepth < 1 then .error .nestingDepth
  else if c.maxEvalDepth < 1 then .error .evalDepth
  else if c.pollInterval ≤ 0 then .error .pollInterval
  else .ok c

end Lox
