import GatedRelease.Release
import GatedRelease.Stage.Basic

/-! Running stages in order. Before each stage the run may be stopped, and what the stage depends on
must have succeeded; the first failure ends the run, later stages are not started, and earlier ones
are not undone. The report tells how far each stage came. -/
namespace GatedRelease

/-- Where a run ended. -/
structure Ending where
  stages : List Stage
  context : Context
  /-- The position at which the run failed, and why. -/
  failure : Option (Nat × ReleaseError)

/-- What a report says about a stage. -/
structure StageReport where
  name : String
  kind : StageKind
  status : StageStatus
  /-- Set at the stage that the run failed at. -/
  error : Option ReleaseError
deriving DecidableEq

/-- What a run reports. -/
structure RunReport where
  status : RunStatus
  release : Release
  stages : List StageReport
  failedStage : Option String
  published : Option Published
  error : Option ReleaseError
deriving DecidableEq

namespace RunReport

/-- The run succeeded. -/
def success (r : RunReport) : Bool := r.status == .succeeded

/-- How many stages are in a state. -/
def count (r : RunReport) (status : StageStatus) : Nat :=
  r.stages.countP fun s => s.status == status

/-- The first report with the name. -/
def stage? (r : RunReport) (name : String) : Option StageReport :=
  r.stages.find? fun s => s.name == name

end RunReport

namespace Run

/-- The first dependency of a stage that none of the stages before it has met. -/
def unmetDependency? (before : List Stage) (s : Stage) : Option String :=
  s.dependsOn.find? fun d => !before.any fun b => b.name == d && b.status == .succeeded

/-- Moves a stage on and writes that down. -/
def move (position : Nat) (s : Stage) (next : StageStatus) : Script Stage := do
  let (permitted, moved) := s.transition next
  Script.record (.moved position s.status next permitted)
  return moved

/-- Executes a stage that may start. -/
def execute (position : Nat) (s : Stage) (ctx : Context) :
    Script (Stage × Except ReleaseError Unit × Context) := do
  let running ← move position s .running
  Script.emit (.stageStarted s.name position)
  Script.record (.entered position ctx)
  let (result, ctx') ← s.action.execute ctx
  let success := result.isOk
  let ended ← move position running (if success then .succeeded else .failed)
  Script.emit (.stageFinished s.name success)
  return (ended, result, ctx')

/-- Goes through the stages in order; those in `before` have succeeded. -/
def advance (before : List Stage) (ctx : Context) : List Stage → Script Ending
  | [] => return ⟨before, ctx, none⟩
  | s :: later => do
    let position := before.length
    if ← Script.isCancelled then
      return ⟨before ++ s :: later, ctx, some (position, .cancelled s.name)⟩
    match unmetDependency? before s with
    | some dependency =>
      let failed ← move position s .failed
      return ⟨before ++ failed :: later, ctx,
        some (position, .dependencyNotSatisfied s.name dependency)⟩
    | none =>
      let (ended, result, ctx') ← execute position s ctx
      match result with
      | .ok () => advance (before ++ [ended]) ctx' later
      | .error e => return ⟨before ++ ended :: later, ctx', some (position, e)⟩

/-- Why stages are skipped. -/
def skipReason : String := "halted after earlier stage failure"

/-- Tells which stages are not started. -/
def announceSkipped : List Stage → Script Unit
  | [] => return ()
  | s :: later => do
    Script.emit (.stageSkipped s.name skipReason)
    announceSkipped later

/-- The name of the stage at which the run failed. -/
def failedStage? (e : Ending) : Option String :=
  e.failure.bind fun (position, _) => e.stages[position]?.map (·.name)

/-- What to report of a stage. -/
def reportStage (failure : Option (Nat × ReleaseError)) (position : Nat) (s : Stage) :
    StageReport where
  name := s.name
  kind := s.kind
  status := s.status
  error := failure.bind fun (failed, e) => if failed = position then some e else none

/-- What to report of a run. -/
def report (release : Release) (e : Ending) : RunReport where
  status := if e.failure.isNone then .succeeded else .failed
  release := release
  stages := e.stages.mapIdx (reportStage e.failure)
  failedStage := failedStage? e
  published := e.context.published
  error := e.failure.map (·.2)

/-- Runs the stages for a release. -/
def run (release : Release) (stages : List Stage) : Script RunReport := do
  Script.emit (.runStarted release.tag stages.length)
  let ending ← advance [] (.start release.tag) stages
  match ending.failure with
  | some (position, _) => announceSkipped (ending.stages.drop (position + 1))
  | none => pure ()
  let r := report release ending
  Script.emit (.runFinished r.success (r.failedStage.getD "-"))
  return r

end Run
end GatedRelease
