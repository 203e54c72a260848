import GatedRelease.Artifact

/-! The configuration of a release: how the artifact is built, where the package repository is, who
publishes, and which suites gate the release. Every setting has a default. -/
namespace GatedRelease

/-- The flavour of a build. -/
inductive BuildProfile
  | release
  | debug
deriving DecidableEq

/-- All flavours. -/
def BuildProfile.all : List BuildProfile := [.release, .debug]

/-- The word for a flavour. -/
def BuildProfile.text : BuildProfile → String
  | release => "release"
  | debug => "debug"

/-- How the artifact is built. -/
structure BuildSettings where
  /-- The toolchain and its first arguments. -/
  command : List String
  /-- The directory that the toolchain starts in. -/
  workingDir : String
  profile : BuildProfile
  /-- The flag that asks for a release build. -/
  releaseFlag : String
  features : List String
  noDefaultFeatures : Bool
  /-- The directory that the toolchain writes, relative to the working directory. -/
  outputDir : String
  /-- Seconds the build may take; 0 sets no limit. -/
  timeoutSecs : Nat
deriving DecidableEq

/-- The build settings where nothing is said. -/
def BuildSettings.default : BuildSettings where
  command := ["cargo", "run", "--bin", "gen-bindings"]
  workingDir := "."
  profile := .release
  releaseFlag := "--release"
  features := []
  noDefaultFeatures := false
  outputDir := "build/Bindings"
  timeoutSecs := 3600

/-- The argv of the build: the command, then the flags that profile and features ask for. -/
def BuildSettings.invocation (b : BuildSettings) : List String :=
  b.command ++
    (if b.profile = .release ∧ b.releaseFlag ≠ "" then [b.releaseFlag] else []) ++
    (if b.noDefaultFeatures then ["--no-default-features"] else []) ++
    (if b.features = [] then [] else ["--features", String.intercalate "," b.features])

/-- Where the release goes. -/
structure TargetSettings where
  remoteUrl : String
  checkoutDir : String
  branch : String
  /-- The place of the artifact, relative to the checkout. -/
  artifactPath : String
  commitMessage : String
  committerName : String
  committerEmail : String
deriving DecidableEq

/-- The target settings where nothing is said. -/
def TargetSettings.default : TargetSettings where
  remoteUrl := ""
  checkoutDir := "target-repo"
  branch := "main"
  artifactPath := "Sources/Bindings"
  commitMessage := "Automatically update generated bindings"
  committerName := "bindship-bot"
  committerEmail := "bindship-bot@users.noreply.github.com"

/-- Where the secret for publishing comes from. -/
structure CredentialSettings where
  /-- The environment variable that holds the secret. -/
  envVar : String
deriving DecidableEq

/-- The credential settings where nothing is said. -/
def CredentialSettings.default : CredentialSettings := ⟨"PACKAGE_REPO_TOKEN"⟩

/-- How the release behaves as a whole. -/
structure PipelineSettings where
  /-- A tag that the remote has already is refused. -/
  rejectExistingTag : Bool
deriving DecidableEq

/-- The pipeline settings where nothing is said. -/
def PipelineSettings.default : PipelineSettings := ⟨true⟩

/-- What a suite tests. -/
inductive SuiteKind
  /-- The package itself. -/
  | library
  /-- An application that uses the package. -/
  | integration
deriving DecidableEq

/-- All kinds of suites. -/
def SuiteKind.all : List SuiteKind := [.library, .integration]

/-- The word for a kind of suites. -/
def SuiteKind.text : SuiteKind → String
  | library => "library"
  | integration => "integration"

/-- A run of a test runner against the checkout. -/
structure Suite where
  name : String
  kind : SuiteKind
  /-- The runner and its first arguments. -/
  command : List String
  /-- The directory that the runner starts in, relative to the checkout. -/
  workingDir : String
  /-- Where the tests are executed. -/
  destination : Option String
  destinationFlag : String
  /-- Cases that are left out. -/
  skip : List String
  /-- What stands before each case that is left out. -/
  skipFlag : String
  /-- Seconds the suite may take; 0 sets no limit. -/
  timeoutSecs : Nat
deriving DecidableEq

namespace Suite

/-- The settings of a suite where nothing is said. -/
def default : Suite where
  name := ""
  kind := .library
  command := []
  workingDir := "."
  destination := none
  destinationFlag := "-destination"
  skip := []
  skipFlag := "-skip-testing:"
  timeoutSecs := 3600

/-- A suite with a name, a kind and a command. -/
def named (name : String) (kind : SuiteKind) (command : List String) : Suite :=
  { default with name := name, kind := kind, command := command }

/-- The suite, executed elsewhere. -/
def withDestination (s : Suite) (destination : String) : Suite :=
  { s with destination := some destination }

/-- The suite without one more case. -/
def withSkip (s : Suite) (case : String) : Suite := { s with skip := s.skip ++ [case] }

/-- The argv of the suite: the command, the destination, then a flag for each case left out. -/
def invocation (s : Suite) : List String :=
  s.command ++
    (match s.destination with
      | some d => [s.destinationFlag, d]
      | none => []) ++
    s.skip.map fun case => s.skipFlag ++ case

end Suite

/-- All that a release is told. -/
structure Config where
  build : BuildSettings
  target : TargetSettings
  credential : CredentialSettings
  pipeline : PipelineSettings
  /-- The suites, in the order in which they gate the release. -/
  suites : List Suite
deriving DecidableEq

namespace Config

/-- Where the suites are executed if nothing is said about suites. -/
def defaultDestination : String := "platform=iOS Simulator,name=iPhone 15,OS=latest"

/-- The suites if nothing is said about suites. -/
def defaultSuites : List Suite := [
  (Suite.named "library" .library
    ["xcodebuild", "test", "-scheme", "BindingsPackage"]).withDestination defaultDestination,
  { (Suite.named "integration" .integration
      ["xcodebuild", "test", "-project", "Example.xcodeproj", "-scheme",
        "Example"]).withDestination defaultDestination with
    workingDir := "Example" }]

/-- The configuration if nothing is said. -/
def default : Config where
  build := .default
  target := .default
  credential := .default
  pipeline := .default
  suites := defaultSuites

/-- The file that holds the configuration if no other is named. -/
def defaultFile : String := "bindship.toml"

/-- The package repository that is configured. -/
def repository (c : Config) : Repository :=
  ⟨c.target.remoteUrl, c.target.checkoutDir, c.target.branch⟩

end Config
end GatedRelease
