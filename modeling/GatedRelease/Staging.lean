import GatedRelease.Digest
import GatedRelease.FileSystem.Operations
import GatedRelease.Git.Checkout

/-! Putting the artifact into the checkout. What was in its place is removed, the artifact is
copied beside the place under a name of its own, the copy is checked by its digest, and then it is
moved into the place as a whole. When anything fails after the removal, the copy and whatever is in
the place are removed too. -/
namespace GatedRelease

/-- Why the copy did not get into the place. -/
inductive PopulateFailure
  | file (cause : Cause)
  | digest (failure : DigestFailure)
  | mismatch (copied expected : String)
deriving DecidableEq

/-- The failure as an error of a release. -/
def PopulateFailure.toError : PopulateFailure → ReleaseError
  | file cause => .io cause.message
  | digest failure => failure.toError
  | mismatch copied expected =>
    .stagingFailure s!"copied tree digest {copied} does not match source digest {expected}"

/-- Why an artifact was not staged. -/
inductive StagingFailure
  | outsideCheckout (dest : String)
  | checkoutRoot
  | sourceMissing (source : String)
  | sourceUnreadable (failure : DigestFailure)
  | notRemoved (destination : String) (cause : Cause)
  | notPopulated (destination : String) (failure : PopulateFailure)
  | noArtifact
  | noCheckout (failure : CheckoutFailure)
deriving DecidableEq

/-- The failure in words. -/
def StagingFailure.message : StagingFailure → String
  | outsideCheckout dest =>
    s!"artifact destination {dest} must be a relative path inside the checkout"
  | checkoutRoot => "artifact destination must not be the checkout root"
  | sourceMissing source => s!"artifact source {source} is not a directory"
  | sourceUnreadable failure => s!"cannot read artifact source: {failure.toError.message}"
  | notRemoved destination cause =>
    s!"failed to remove previous artifact at {destination}: {cause.message}"
  | notPopulated destination failure =>
    s!"{failure.toError.message}; destination {destination} left empty"
  | noArtifact => "no artifact was produced by the build stage"
  | noCheckout failure => s!"preparing target checkout: {failure.toError.message}"

/-- The failure as an error of a release. -/
def StagingFailure.toError (f : StagingFailure) : ReleaseError := .stagingFailure f.message

namespace Staging

/-- Every step of the path goes down or stays. -/
def staysInside (dest : String) : Bool :=
  (PathText.components dest).all fun
    | .name _ | .current => true
    | .root | .parent => false

/-- A step of the path goes down. -/
def goesDown (dest : String) : Bool :=
  (PathText.components dest).any fun
    | .name _ => true
    | _ => false

/-- The place for an artifact in a checkout, judged by the written path alone. -/
def destination (dest checkout : String) : Except StagingFailure String :=
  if !staysInside dest then .error (.outsideCheckout dest)
  else if !goesDown dest then .error .checkoutRoot
  else .ok (PathText.join checkout dest)

/-- The path of the copy before it is moved into its place. -/
def temporaryPath (destination suffix : String) : String :=
  let name := (PathText.fileName? destination).getD "artifact"
  PathText.join ((PathText.parent? destination).getD "") s!".{name}.staging-{suffix}"

/-- The entry is a regular file. -/
def isFile : Entry → Bool
  | .file .. => true
  | _ => false

/-- Copies entries, parents before children, and counts the files among them. The paths at either
end must not be too long. -/
def copyEntries (source target : String) (place : Location) :
    List (Location × Entry) → FileStep Cause Nat
  | [] => return 0
  | (l, e) :: rest => do
    if FileSystem.pathLimit ≤ (PathText.join source l.render).utf8ByteSize ∨
        FileSystem.pathLimit ≤ (PathText.join target l.render).utf8ByteSize then
      throw .nameTooLong
    modify fun fs => { fs with tree := fs.tree.put (place ++ l) e }
    let count ← copyEntries source target place rest
    return if isFile e then count + 1 else count

/-- Copies a tree to a new place and counts its files. A copy into the tree itself would go on
until paths are too long, and fails as such. -/
def copyTree (source target : String) : FileStep Cause Nat := do
  FileSystem.makeDirectories target
  let from' ← FileStep.look (·.canonical source)
  let place ← FileStep.look (·.canonical target)
  if (from'.within place).isSome then throw .nameTooLong
  copyEntries source target place (((← get).tree.below from').entries)

/-- Copies the tree, checks the copy, and moves it into its place. -/
def copyChecked (source temporary destination expected : String) :
    FileStep PopulateFailure Nat := do
  let count ← (copyTree source temporary).orElseSay .file
  let copied ← (FileStep.look (·.treeDigest temporary)).orElseSay .digest
  if copied ≠ expected then throw (.mismatch copied expected)
  (FileSystem.rename temporary destination).orElseSay .file
  return count

/-- The step; if it fails, `path` is cleared away by `clear`, as well as that goes. -/
def clearingOnFailure {ε α : Type} (step : FileStep ε α) (path : String)
    (clear : String → FileStep Cause Unit) : FileStep ε α := do
  match ← step.attempt with
  | .ok a => return a
  | .error e =>
    if (← get).pathExists path then
      let _ ← (clear path).attempt
    throw e

/-- Fills the place with a copy of the source, or leaves no copy behind. -/
def populate (source destination expected suffix : String) : FileStep PopulateFailure Nat := do
  (FileSystem.makeDirectories ((PathText.parent? destination).getD "")).orElseSay .file
  let temporary := temporaryPath destination suffix
  clearingOnFailure (copyChecked source temporary destination expected) temporary
    FileSystem.removeTree

/-- Replaces what is in the place by the artifact. `suffix` makes the name of the copy. -/
def replace (artifact : Artifact) (checkout suffix : String) :
    FileStep StagingFailure StagedArtifact := do
  let destination ← FileStep.look fun _ => destination artifact.dest checkout
  if !(← get).isDirectory artifact.source then throw (.sourceMissing artifact.source)
  let digest ← (FileStep.look (·.treeDigest artifact.source)).orElseSay .sourceUnreadable
  if (← get).pathExists destination then
    (FileSystem.removeAny destination).orElseSay (.notRemoved destination)
  let count ← (clearingOnFailure (populate artifact.source destination digest suffix) destination
    FileSystem.removeAny).orElseSay (.notPopulated destination)
  return ⟨destination, digest, count⟩

/-- Puts an artifact into a checkout. -/
def stage (artifact : Artifact) (r : Repository) : Attempt StagingFailure StagedArtifact := do
  let suffix ← Script.freshSuffix
  Attempt.files (replace artifact r.checkout suffix)

/-- Gets a checkout and puts the artifact into it. -/
def checkoutAndStage (artifact : Artifact) (r : Repository) :
    Attempt StagingFailure StagedArtifact := do
  let _ ← (r.ensureCheckout).orElseSay .noCheckout
  stage artifact r

end Staging
end GatedRelease
