import GatedRelease.Config.Basic
import GatedRelease.Stage.Basic

/-! Building the artifact: what an earlier build left is removed, the toolchain is run once, and it
has to leave a directory where the artifact is expected. -/
namespace GatedRelease

/-- Why there is no artifact. -/
inductive BuildFailure
  | staleOutput (path : String) (cause : Cause)
  | notRun (failure : RunFailure)
  | toolchain (exitCode : Int) (tail : String)
  | noOutput (path : String)
deriving DecidableEq

/-- The failure in words. -/
def BuildFailure.message : BuildFailure → String
  | staleOutput path cause => s!"cannot remove stale output {path}: {cause.message}"
  | notRun failure => failure.message
  | toolchain exitCode tail => s!"toolchain exited with code {exitCode}:\n{tail}"
  | noOutput path => s!"toolchain succeeded but expected output {path} is missing"

/-- The failure as an error of a release. -/
def BuildFailure.toError (f : BuildFailure) : ReleaseError := .buildFailure f.message

namespace Build

/-- Where the artifact is expected. -/
def outputPath (b : BuildSettings) : String := PathText.join b.workingDir b.outputDir

/-- The command that builds. -/
def command (b : BuildSettings) : Command :=
  ⟨"build", b.invocation, b.workingDir, b.timeoutSecs⟩

/-- Removes what an earlier build left. -/
def clearOutput (path : String) : FileStep BuildFailure Unit := do
  if (← get).pathExists path then
    (FileSystem.removeTree path).orElseSay (.staleOutput path)

/-- Builds the artifact, which belongs to `dest` in the checkout. -/
def build (b : BuildSettings) (dest : String) : Attempt BuildFailure Artifact := do
  Attempt.files (clearOutput (outputPath b))
  match ← Script.run (command b) with
  | .error failure => throw (.notRun failure)
  | .ok output =>
    if !output.passed then throw (.toolchain output.exitCode (output.tail failureLines))
    if ← Attempt.inspect (·.isDirectory (outputPath b)) then return ⟨outputPath b, dest⟩
    else throw (.noOutput (outputPath b))

/-- Building as the work of a stage. -/
def action (b : BuildSettings) (dest : String) : Action where
  describe := String.intercalate " " b.invocation
  execute ctx := do
    match ← (build b dest).run with
    | .ok artifact => return (.ok (), { ctx with artifact := some artifact })
    | .error failure => return (.error failure.toError, ctx)

end Build
end GatedRelease
