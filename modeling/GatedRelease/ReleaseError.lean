/-! What a release can fail with. Each error has a kind, a short word for reports, and a text for
people (`message`). -/
namespace GatedRelease

/-- The part of publishing that failed; each has a different cause outside. -/
inductive PublishStep
  /-- Collecting the changes or committing them. -/
  | commit
  /-- Naming the commit, or a name that is taken. -/
  | tag
  /-- Sending commit and tag to the remote. -/
  | push
deriving DecidableEq

/-- The word for a step. -/
def PublishStep.text : PublishStep → String
  | commit => "commit"
  | tag => "tag"
  | push => "push"

/-- A failed release, or a failed part of one. -/
inductive ReleaseError
  | buildFailure (reason : String)
  | stagingFailure (reason : String)
  | testFailure (suite details : String)
  | publishFailure (step : PublishStep) (reason : String)
  | credentialMissing (name : String)
  | dependencyNotSatisfied (stage dependency : String)
  | cancelled (stage : String)
  | git (reason : String)
  | config (reason : String)
  | io (reason : String)
deriving DecidableEq

namespace ReleaseError

/-- The word for the kind of an error. -/
def kind : ReleaseError → String
  | buildFailure _ => "build_failure"
  | stagingFailure _ => "staging_failure"
  | testFailure .. => "test_failure"
  | publishFailure .. => "publish_failure"
  | credentialMissing _ => "credential_missing"
  | dependencyNotSatisfied .. => "dependency_not_satisfied"
  | cancelled _ => "cancelled"
  | git _ => "git"
  | config _ => "config"
  | io _ => "io"

/-- The error in words. -/
def message : ReleaseError → String
  | buildFailure reason => s!"build failed: {reason}"
  | stagingFailure reason => s!"staging failed: {reason}"
  | testFailure suite details => s!"test suite '{suite}' failed: {details}"
  | publishFailure step reason => s!"publish failed at {step.text}: {reason}"
  | credentialMissing name => s!"credential missing: environment variable {name} is not set"
  | dependencyNotSatisfied stage dependency =>
    s!"stage '{stage}' not started: dependency '{dependency}' has not succeeded"
  | cancelled stage => s!"run cancelled before stage '{stage}'"
  | git reason => s!"git error: {reason}"
  | config reason => s!"invalid configuration: {reason}"
  | io reason => s!"io error: {reason}"

/-- The error under this one, where it only passes on what the system said. -/
def inner? : ReleaseError → Option String
  | io reason => some reason
  | _ => none

end ReleaseError
end GatedRelease
