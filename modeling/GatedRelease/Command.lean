import GatedRelease.Text.Blank
import GatedRelease.Text.Lines

/-! Commands handed to a runner, what they answer, and the end of their output, which is all that a
failure report shows. -/
namespace GatedRelease

/-- A command to run. -/
structure Command where
  /-- Names the command in reports. -/
  label : String
  /-- The program and its arguments. -/
  argv : List String
  workingDir : String
  /-- Seconds the command may take; 0 sets no limit. -/
  timeoutSecs : Nat
deriving DecidableEq

/-- What a command left when it ended. -/
structure Output where
  /-- 0 stands for success, -1 for an end by a signal. -/
  exitCode : Int
  stdout : String
  stderr : String
  success : Bool
deriving DecidableEq

/-- Why a command has no exit status. -/
inductive RunFailure
  | emptyArgv (label : String)
  | notStarted (label reason : String)
  | timedOut (label : String) (seconds : Nat)
deriving DecidableEq

/-- The argv with spaces between the words. -/
def Command.display (c : Command) : String := String.intercalate " " c.argv

namespace Output

/-- The command succeeded, and its exit code says so too. -/
def passed (o : Output) : Bool := o.success && o.exitCode == 0

/-- The stream that tells about a failure: standard error unless that is blank. -/
def telling (o : Output) : String := if Text.isBlank o.stderr then o.stdout else o.stderr

/-- The last `count` lines of the telling stream. -/
def tail (o : Output) (count : Nat) : String := Text.lastLines count o.telling

end Output

/-- How many lines a failure report shows. -/
def failureLines : Nat := 40

/-- The failure in words. -/
def RunFailure.message : RunFailure → String
  | emptyArgv label => s!"command '{label}' has an empty argv"
  | notStarted label reason => s!"failed to spawn '{label}': {reason}"
  | timedOut label seconds => s!"command '{label}' timed out after {seconds} seconds"

end GatedRelease
