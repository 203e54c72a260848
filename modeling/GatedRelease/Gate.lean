import GatedRelease.Config.Basic
import GatedRelease.Stage.Basic

/-! Gates: one run of one suite against the checkout, with one verdict. Nothing is tried twice. -/
namespace GatedRelease

/-- What a gate says. -/
inductive Verdict
  | pass
  | fail (details : String)
deriving DecidableEq

/-- The release may go on. -/
def Verdict.passed : Verdict → Bool
  | pass => true
  | fail _ => false

namespace Gate

/-- The command that runs a suite in a checkout. -/
def command (s : Suite) (checkout : String) : Command :=
  ⟨"suite:" ++ s.name, s.invocation, PathText.join checkout s.workingDir, s.timeoutSecs⟩

/-- What the outcome of the command says. -/
def verdict : Except RunFailure Output → Verdict
  | .ok output =>
    if output.passed then .pass
    else .fail s!"exit code {output.exitCode}:\n{output.tail failureLines}"
  | .error failure => .fail failure.message

/-- Runs the suite. -/
def verify (s : Suite) (r : Repository) : Script Verdict := do
  return verdict (← Script.run (command s r.checkout))

/-- The gate as the work of a stage. -/
def action (s : Suite) (r : Repository) : Action where
  describe := String.intercalate " " s.invocation
  execute ctx := do
    match ← verify s r with
    | .pass => return (.ok (), ctx)
    | .fail details => return (.error (.testFailure s.name details), ctx)

end Gate
end GatedRelease
