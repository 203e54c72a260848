import GatedRelease.ReleaseError

/-! What a release carries from stage to stage: the built artifact, what became of it in the
checkout, and what was published in the end. -/
namespace GatedRelease

/-- A directory tree that the build leaves and the release puts into the checkout. -/
structure Artifact where
  /-- Where the build left it. -/
  source : String
  /-- Where it belongs, relative to the checkout. -/
  dest : String
deriving DecidableEq

/-- An artifact in its place. -/
structure StagedArtifact where
  /-- The path of its place, starting as the path of the checkout does. -/
  destination : String
  /-- The digest of the tree at both ends. -/
  digest : String
  /-- How many regular files were copied. -/
  files : Nat
deriving DecidableEq

/-- A published release. -/
structure Published where
  tag : String
  commitSha : String
  branch : String
  /-- Commit and tag were there already; only the push was made. -/
  resumed : Bool
deriving DecidableEq

/-- The package repository and its checkout. -/
structure Repository where
  remoteUrl : String
  checkout : String
  branch : String
deriving DecidableEq

/-- Who commits and tags. -/
structure Identity where
  name : String
  email : String
deriving DecidableEq

/-- What stages hand to later stages in one run. -/
structure Context where
  tag : String
  artifact : Option Artifact
  staged : Option StagedArtifact
  published : Option Published
deriving DecidableEq

/-- The context that a run starts with: nothing but the tag. -/
def Context.start (tag : String) : Context := ⟨tag, none, none, none⟩

end GatedRelease
