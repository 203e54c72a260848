import GatedRelease.Build
import GatedRelease.Gate
import GatedRelease.Publish
import GatedRelease.Run
import GatedRelease.Staging

/-! The stages of a release: build, stage, one gate for each suite, publish, each after the one
before it. -/
namespace GatedRelease

/-- Staging as the work of a stage. -/
def Staging.action (r : Repository) : Action where
  describe :=
    s!"clone {r.remoteUrl} ({r.branch}) into {r.checkout} and replace artifact"
  execute ctx := do
    match ctx.artifact with
    | none => return (.error StagingFailure.noArtifact.toError, ctx)
    | some artifact =>
      match ← (Staging.checkoutAndStage artifact r).run with
      | .ok staged => return (.ok (), { ctx with staged := some staged })
      | .error failure => return (.error failure.toError, ctx)

namespace Plan

/-- The name of the stage that runs a suite. -/
def gateName (suite : String) : String := s!"test_gate({suite})"

/-- The publisher that is configured. -/
def publisher (c : Config) (provider : CredentialProvider) : Publisher where
  repository := c.repository
  settings := {
    commitMessage := c.target.commitMessage
    identity := ⟨c.target.committerName, c.target.committerEmail⟩
    rejectExistingTag := c.pipeline.rejectExistingTag }
  provider := provider

/-- The source of the secret that is configured. -/
def provider (c : Config) : CredentialProvider := .environment c.credential.envVar

/-- The gate of a suite. -/
def gate (c : Config) (s : Suite) : Stage :=
  Stage.new (gateName s.name) .testGate (Gate.action s c.repository)

/-- The stages of a release. -/
def stages (c : Config) (provider : CredentialProvider) : List Stage :=
  Stage.linear (
    [Stage.new StageKind.build.text .build (Build.action c.build c.target.artifactPath),
      Stage.new StageKind.stage.text .stage (Staging.action c.repository)] ++
    c.suites.map (gate c) ++
    [Stage.new StageKind.publish.text .publish (publisher c provider).action])

/-- The names of the stages, in order. -/
def stageNames (stages : List Stage) : List String := stages.map (·.name)

/-- Finds out what is released and runs the stages for it. -/
def carryOut (c : Config) (tag : String) (provider : CredentialProvider) : Script RunReport := do
  let list := stages c provider
  let release ← Release.identify tag c.build.workingDir (stageNames list)
  Run.run release list

end Plan
end GatedRelease
