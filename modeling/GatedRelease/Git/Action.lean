import GatedRelease.Artifact
import GatedRelease.FileSystem.Cause
import GatedRelease.Text.Utf8

/-! The git commands that a release needs, as data, and the one place that writes them out as
arguments. What users supply stands behind a fixed text, as the value of an option, or after the
double dash, so that it is never read as an option. -/
namespace GatedRelease.Git

/-- What git is asked to do. -/
inductive Action
  /-- Print the top directory of the work tree. -/
  | topLevel
  /-- Print the commit that is checked out. -/
  | head
  /-- Clone a branch into a path. -/
  | clone (branch url path : String)
  /-- Collect all changes for the next commit. -/
  | addAll
  /-- Tell by the exit code whether changes are collected. -/
  | compareIndex
  /-- Commit what is collected. -/
  | commit (who : Identity) (text : String)
  /-- Name the commit that is checked out. -/
  | createTag (who : Identity) (tag : String)
  /-- Print the commit that a local tag names. -/
  | tagTarget (tag : String)
  /-- Print the remote's tag of a name. -/
  | remoteTag (tag : String)
  /-- Send the checked out commit and a tag to the remote, both or neither. -/
  | push (branch tag : String)
  /-- Tell by the exit code whether a tag can have the name. -/
  | checkTagName (tag : String)
  /-- Take the last commit back and keep its changes collected. -/
  | undoCommit
deriving DecidableEq

/-- The variable that hands the secret to git. -/
def tokenVariable : String := "BINDSHIP_GIT_TOKEN"

/-- The remote that a clone comes from. -/
def remoteName : String := "origin"

/-- Answers git's question for a password with the secret, in git's own shell. -/
def credentialHelper : String :=
  "!f() \x7b echo username=x-access-token; echo \"password=$\x7bBINDSHIP_GIT_TOKEN\x7d\"; \x7d; f"

/-- The full name of a tag. -/
def tagRef (tag : String) : String := "refs/tags/" ++ tag

namespace Action

/-- The options that say who acts. -/
def identityOptions (who : Identity) : List String :=
  ["-c", "user.name=" ++ who.name, "-c", "user.email=" ++ who.email]

/-- The options that make git ask the credential helper and no other. -/
def credentialOptions : List String :=
  ["-c", "credential.helper=", "-c", "credential.helper=" ++ credentialHelper]

/-- The arguments of git. -/
def arguments : Action → List String
  | topLevel => ["rev-parse", "--show-toplevel"]
  | head => ["rev-parse", "HEAD"]
  | clone branch url path => ["clone", "--branch", branch, "--", url, path]
  | addAll => ["add", "-A"]
  | compareIndex => ["diff", "--cached", "--quiet"]
  | commit who text => identityOptions who ++ ["commit", "--no-verify", "-m", text]
  | createTag who tag => identityOptions who ++ ["tag", "--", tag]
  | tagTarget tag => ["rev-parse", "-q", "--verify", tagRef tag ++ "^\x7bcommit\x7d"]
  | remoteTag tag => credentialOptions ++ ["ls-remote", "--tags", remoteName, tagRef tag]
  | push branch tag =>
    credentialOptions ++ ["push", "--atomic", remoteName, "HEAD:refs/heads/" ++ branch, tagRef tag]
  | checkTagName tag => ["check-ref-format", tagRef tag]
  | undoCommit => ["reset", "--soft", "HEAD~1"]

/-- What the action is called when it fails. -/
def title : Action → String
  | topLevel => "git rev-parse --show-toplevel"
  | head => "git rev-parse HEAD"
  | clone .. => "git clone"
  | addAll => "git add"
  | compareIndex => "git diff --cached"
  | commit .. => "git commit"
  | createTag .. => "git tag"
  | tagTarget _ => "git rev-parse"
  | remoteTag _ => "git ls-remote"
  | push .. => "git push"
  | checkTagName _ => "git check-ref-format"
  | undoCommit => "git reset"

/-- Git is told not to ask on the terminal. The two questions about a directory leave this to the
user's settings. -/
def silencesPrompt : Action → Bool
  | topLevel | head => false
  | _ => true

/-- The action talks to the remote in the name of the user. -/
def needsToken : Action → Bool
  | remoteTag _ | push .. => true
  | _ => false

end Action

/-- A call of git. -/
structure Call where
  action : Action
  /-- The directory that git starts in. -/
  directory : String
  /-- The secret in git's environment. -/
  token : Option String
deriving DecidableEq

/-- What git answers. -/
structure Reply where
  code : Int
  out : Bytes
  err : Bytes
deriving DecidableEq

/-- What becomes of a call. -/
inductive Outcome
  | notStarted (cause : Cause)
  | exited (reply : Reply)
deriving DecidableEq

/-- The call ended well. -/
def Reply.success (r : Reply) : Bool := r.code == 0

/-- A part of the call holds a NUL, which no program can be started with. -/
def Call.holdsNul (c : Call) : Bool :=
  (c.directory :: c.token.toList ++ c.action.arguments).any (·.toList.contains (Char.ofNat 0))

end GatedRelease.Git
