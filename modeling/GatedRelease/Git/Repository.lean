import GatedRelease.Credential

/-! Work in a checkout through git. Each operation calls git once or twice and reads the exit code
and the output; what git says on failure goes into the error. -/
namespace GatedRelease

namespace Git

/-- Why an operation failed. -/
inductive Failure
  | notStarted (cause : Cause)
  /-- Git ended with an exit code of failure. -/
  | refused (title : String) (err : Bytes)
  /-- Git named no commit as checked out. -/
  | emptyHead
deriving DecidableEq

/-- The failure in words. -/
def Failure.message : Failure → String
  | notStarted cause => s!"failed to run git: {cause.message}"
  | refused title err => s!"{title} failed: {Text.trim (Text.ofUtf8Lossy err)}"
  | emptyHead => "git rev-parse HEAD returned empty output"

/-- The failure as an error of a release. -/
def Failure.toError (f : Failure) : ReleaseError := .git f.message

/-- What git printed, without blanks around it. -/
def Reply.text (r : Reply) : String := Text.trim (Text.ofUtf8Lossy r.out)

/-- Calls git and gets its answer, whatever the exit code. -/
def ask (call : Call) : Attempt Failure Reply := do
  match ← Script.callGit call with
  | .notStarted cause => throw (.notStarted cause)
  | .exited reply => return reply

/-- Calls git and insists on success. -/
def demand (call : Call) : Attempt Failure Reply := do
  let reply ← ask call
  if reply.success then return reply else throw (.refused call.action.title reply.err)

/-- The commit that is checked out in a directory. -/
def headOf (directory : String) : Attempt Failure String := do
  let reply ← demand ⟨.head, directory, none⟩
  if reply.text = "" then throw .emptyHead else return reply.text

/-- The directory is the top of a work tree: git names the directory itself. -/
def isWorkTreeTop (directory : String) : Script Bool := do
  match ← Script.callGit ⟨.topLevel, directory, none⟩ with
  | .notStarted _ => return false
  | .exited reply =>
    if reply.success then
      Script.inspect fun fs =>
        match fs.canonical reply.text, fs.canonical directory with
        | .ok top, .ok here => top = here
        | _, _ => false
    else return false

end Git

namespace Repository
open Git (Failure ask demand)

/-- A call of git in the checkout. -/
def call (r : Repository) (action : Git.Action) : Git.Call := ⟨action, r.checkout, none⟩

/-- A call of git in the checkout, with the secret in its environment. -/
def callWith (r : Repository) (c : Credential) (action : Git.Action) : Git.Call :=
  ⟨action, r.checkout, some c.secret⟩

/-- Collects all changes. -/
def addAll (r : Repository) : Attempt Failure Unit := do let _ ← demand (r.call .addAll)

/-- Whether changes are collected. -/
def hasChanges (r : Repository) : Attempt Failure Bool := do
  let reply ← ask (r.call .compareIndex)
  if reply.code = 0 then return false
  else if reply.code = 1 then return true
  else throw (.refused Git.Action.compareIndex.title reply.err)

/-- The commit that is checked out. -/
def head (r : Repository) : Attempt Failure String := Git.headOf r.checkout

/-- Commits what is collected and gets the new commit. -/
def commit (r : Repository) (text : String) (who : Identity) : Attempt Failure String := do
  let _ ← demand (r.call (.commit who text))
  r.head

/-- Names the commit that is checked out. -/
def createTag (r : Repository) (tag : String) (who : Identity) : Attempt Failure Unit := do
  let _ ← demand (r.call (.createTag who tag))

/-- The commit that a local tag names, if there is such a tag. -/
def tagTarget (r : Repository) (tag : String) : Attempt Failure (Option String) := do
  let reply ← ask (r.call (.tagTarget tag))
  return if reply.success then some reply.text else none

/-- Whether the remote has a tag. -/
def remoteHasTag (r : Repository) (tag : String) (c : Credential) : Attempt Failure Bool := do
  let reply ← demand (r.callWith c (.remoteTag tag))
  return !Text.isBlank (Text.ofUtf8Lossy reply.out)

/-- Sends the checked out commit and a tag to the remote. -/
def push (r : Repository) (tag : String) (c : Credential) : Attempt Failure Unit := do
  let _ ← demand (r.callWith c (.push r.branch tag))

/-- Whether git takes the name for a tag. -/
def isValidTagName (r : Repository) (tag : String) : Attempt Failure Bool := do
  return (← ask (r.call (.checkTagName tag))).success

/-- Takes the last commit back; its changes stay collected. -/
def undoCommit (r : Repository) : Attempt Failure Unit := do
  let _ ← demand (r.call .undoCommit)

end Repository
end GatedRelease
