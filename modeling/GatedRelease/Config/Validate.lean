import GatedRelease.Config.Basic
import GatedRelease.FileSystem.PathText
import GatedRelease.Text.Blank

/-! What a configuration has to say before anything runs. The first thing that is missing, in a
fixed order, is the one reported. -/
namespace GatedRelease

/-- What is wrong with a configuration. -/
inductive ConfigDefect
  | noBuildCommand
  | noOutputDir
  | noRemoteUrl
  | noBranch
  | artifactOutside
  | noCommitMessage
  | noCredentialVariable
  | noSuites
  | unnamedSuite
  | repeatedSuite (name : String)
  | noSuiteCommand (name : String)
deriving DecidableEq

/-- The defect in words. -/
def ConfigDefect.message : ConfigDefect → String
  | noBuildCommand => "build.command must be a non-empty array"
  | noOutputDir => "build.output_dir must be set"
  | noRemoteUrl => "target.remote_url must be set"
  | noBranch => "target.branch must be set"
  | artifactOutside => "target.artifact_path must be a relative path inside the checkout"
  | noCommitMessage => "target.commit_message must be set"
  | noCredentialVariable => "credential.env_var must be set"
  | noSuites => "at least one [[suites]] entry is required"
  | unnamedSuite => "every suite needs a name"
  | repeatedSuite name => s!"duplicate suite name '{name}'"
  | noSuiteCommand name => s!"suite '{name}' command must be a non-empty array"

/-- The defect as an error of a release. -/
def ConfigDefect.toError (d : ConfigDefect) : ReleaseError := .config d.message

namespace Config

/-- No program is named. -/
def lacksProgram : List String → Bool
  | [] => true
  | program :: _ => Text.isBlank program

/-- The first defect among suites, where the names in `seen` are taken. -/
def suitesDefect? (seen : List String) : List Suite → Option ConfigDefect
  | [] => none
  | s :: rest =>
    if Text.isBlank s.name then some .unnamedSuite
    else if s.name ∈ seen then some (.repeatedSuite s.name)
    else if lacksProgram s.command then some (.noSuiteCommand s.name)
    else suitesDefect? (s.name :: seen) rest

/-- The first defect. -/
def defect? (c : Config) : Option ConfigDefect :=
  if lacksProgram c.build.command then some .noBuildCommand
  else if c.build.outputDir = "" then some .noOutputDir
  else if Text.isBlank c.target.remoteUrl then some .noRemoteUrl
  else if Text.isBlank c.target.branch then some .noBranch
  else if c.target.artifactPath = "" ∨ PathText.isAbsolute c.target.artifactPath then
    some .artifactOutside
  else if Text.isBlank c.target.commitMessage then some .noCommitMessage
  else if Text.isBlank c.credential.envVar then some .noCredentialVariable
  else if c.suites = [] then some .noSuites
  else suitesDefect? [] c.suites

/-- Nothing is missing. -/
def validate (c : Config) : Except ConfigDefect Unit :=
  match c.defect? with
  | some d => .error d
  | none => .ok ()

end Config
end GatedRelease
