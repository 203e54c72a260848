import GatedRelease.Git.Repository
import GatedRelease.Stage.Basic

/-! Publishing the checkout: commit, tag, and one push that sends both or neither. A failed push
leaves commit and tag in place, and a later publish goes on from there; a failed tag takes the
commit back, so that no commit is left without its tag. -/
namespace GatedRelease

/-- What publishing is told. -/
structure PublishSettings where
  commitMessage : String
  identity : Identity
  /-- A tag that the remote has already is refused. -/
  rejectExistingTag : Bool
deriving DecidableEq

/-- Why nothing was published. -/
inductive PublishFailure
  | credential (error : ReleaseError)
  | badTagName (tag : String)
  /-- Git failed at a step. -/
  | git (step : PublishStep) (failure : Git.Failure)
  | tagElsewhere (tag target : String)
  | tagWithChanges (tag : String)
  | remoteUnknown (failure : Git.Failure)
  | tagOnRemote (tag : String)
  | noChanges
  | push (branch tag : String) (failure : Git.Failure)
  | noTag (tag : String)
  | tagNotAtHead (tag target : String)
deriving DecidableEq

namespace PublishFailure

/-- The step that failed, if it came to that. -/
def step? : PublishFailure → Option PublishStep
  | credential _ => none
  | git step _ => some step
  | noChanges => some .commit
  | remoteUnknown _ | push .. => some .push
  | badTagName _ | tagElsewhere .. | tagWithChanges _ | tagOnRemote _ | noTag _
  | tagNotAtHead .. => some .tag

/-- The failure in words. -/
def reason : PublishFailure → String
  | credential error => error.message
  | badTagName tag => s!"'{tag}' is not a valid tag name"
  | git _ failure => failure.toError.message
  | tagElsewhere tag target => s!"tag '{tag}' already exists locally at {target}, not at HEAD"
  | tagWithChanges tag =>
    s!"tag '{tag}' already exists locally but the checkout has new changes; " ++
      "use `bindship publish` to push the existing release commit"
  | remoteUnknown failure => s!"could not query remote tags: {failure.toError.message}"
  | tagOnRemote tag => s!"tag '{tag}' already exists on the remote"
  | noChanges => "staged checkout has no changes to commit"
  | push branch tag failure =>
    s!"pushing '{branch}' and tag '{tag}': {failure.toError.message}"
  | noTag tag => s!"no local tag '{tag}' to resume; run the full pipeline"
  | tagNotAtHead tag target =>
    s!"tag '{tag}' points at {target}, not at HEAD; nothing to resume"

/-- The failure as an error of a release. -/
def toError (f : PublishFailure) : ReleaseError :=
  match f with
  | credential error => error
  | f => .publishFailure (f.step?.getD .commit) f.reason

end PublishFailure

/-- All that publishing works with. -/
structure Publisher where
  repository : Repository
  settings : PublishSettings
  provider : CredentialProvider

namespace Publisher

/-- Insists that git takes the name for a tag. -/
def checkTagName (p : Publisher) (tag : String) : Attempt PublishFailure Unit := do
  if !(← (p.repository.isValidTagName tag).orElseSay (.git .tag)) then throw (.badTagName tag)

/-- The commit that is checked out. -/
def head (p : Publisher) : Attempt PublishFailure String :=
  p.repository.head.orElseSay (.git .commit)

/-- Insists that the remote does not have the tag, if that is asked for. -/
def checkRemoteTag (p : Publisher) (tag : String) (c : Credential) :
    Attempt PublishFailure Unit := do
  if p.settings.rejectExistingTag then
    if ← (p.repository.remoteHasTag tag c).orElseSay .remoteUnknown then throw (.tagOnRemote tag)

/-- Whether an earlier attempt left the tag to go on from. -/
def checkLocalTag (p : Publisher) (tag : String) (hasChanges : Bool) :
    Attempt PublishFailure Bool := do
  match ← (p.repository.tagTarget tag).orElseSay (.git .tag) with
  | none => return false
  | some target =>
    if target ≠ (← p.head) then throw (.tagElsewhere tag target)
    if hasChanges then throw (.tagWithChanges tag)
    return true

/-- Sends commit and tag to the remote. -/
def push (p : Publisher) (tag : String) (c : Credential) : Attempt PublishFailure Unit := do
  (p.repository.push tag c).orElseSay (.push p.repository.branch tag)
  Script.emit (.publishStep .push tag)

/-- Commits the changes and names the commit; gets the commit. -/
def commitAndTag (p : Publisher) (tag : String) : Attempt PublishFailure String := do
  let sha ← (p.repository.commit p.settings.commitMessage p.settings.identity).orElseSay
    (.git .commit)
  Script.emit (.publishStep .commit sha)
  match ← (p.repository.createTag tag p.settings.identity).run with
  | .error failure =>
    let _ ← p.repository.undoCommit.run
    throw (.git .tag failure)
  | .ok () =>
    Script.emit (.publishStep .tag tag)
    return sha

/-- Publishes what the checkout holds, with a credential. -/
def publishWith (p : Publisher) (tag : String) (c : Credential) :
    Attempt PublishFailure Published := do
  p.checkTagName tag
  p.repository.addAll.orElseSay (.git .commit)
  let hasChanges ← p.repository.hasChanges.orElseSay (.git .commit)
  let resumed ← p.checkLocalTag tag hasChanges
  p.checkRemoteTag tag c
  let sha ←
    if resumed then p.head
    else if hasChanges then p.commitAndTag tag
    else throw .noChanges
  p.push tag c
  return ⟨tag, sha, p.repository.branch, resumed⟩

/-- Pushes the commit and the tag that an earlier attempt left, with a credential. -/
def resumeWith (p : Publisher) (tag : String) (c : Credential) :
    Attempt PublishFailure Published := do
  p.checkTagName tag
  match ← (p.repository.tagTarget tag).orElseSay (.git .tag) with
  | none => throw (.noTag tag)
  | some target =>
    let head ← p.head
    if target ≠ head then throw (.tagNotAtHead tag target)
    p.checkRemoteTag tag c
    p.push tag c
    return ⟨tag, head, p.repository.branch, true⟩

/-- The credential, before anything else is done. -/
def credential (p : Publisher) : Attempt PublishFailure Credential :=
  p.provider.resolve.orElseSay .credential

/-- Publishes what the checkout holds. -/
def publish (p : Publisher) (tag : String) : Attempt PublishFailure Published := do
  p.publishWith tag (← p.credential)

/-- Pushes the commit and the tag that an earlier attempt left. -/
def resume (p : Publisher) (tag : String) : Attempt PublishFailure Published := do
  p.resumeWith tag (← p.credential)

/-- Publishing as the work of a stage. -/
def action (p : Publisher) : Action where
  describe := s!"commit + tag + push to {p.repository.remoteUrl} ({p.repository.branch})"
  execute ctx := do
    match ← (p.publish ctx.tag).run with
    | .ok published => return (.ok (), { ctx with published := some published })
    | .error failure => return (.error failure.toError, ctx)

end Publisher
end GatedRelease
