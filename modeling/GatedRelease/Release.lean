import GatedRelease.Git.Repository
import GatedRelease.Hash.Sha256

/-! What one run releases: the tag, the source it is built from, and the stages, told apart by a
digest of their names. -/
namespace GatedRelease

/-- The identity of a release. -/
structure Release where
  tag : String
  /-- The directory that the artifact is built in. -/
  sourceDir : String
  /-- The commit of the source, if the directory is the top of a work tree. -/
  sourceSha : Option String
  stagesDigest : String
deriving DecidableEq

namespace Release

/-- A list of stage names in bytes: each with a NUL after it. -/
def stagesEncoding (names : List String) : Bytes := names.flatMap fun n => Text.utf8 n ++ [0]

/-- The hash of the list of stage names. -/
def digestOfStages (names : List String) : String := Sha256.hexDigest (stagesEncoding names)

/-- The commit of a source directory. -/
def sourceCommit (directory : String) : Script (Option String) := do
  if ← Git.isWorkTreeTop directory then
    return (← (Git.headOf directory).run).toOption
  else return none

/-- Finds out what is released. -/
def identify (tag directory : String) (stageNames : List String) : Script Release := do
  return ⟨tag, directory, ← sourceCommit directory, digestOfStages stageNames⟩

/-- The first twelve bytes of the digest, or all of a shorter one. There are none if the cut falls
inside a character, which no hexadecimal digest has. -/
def shortDigest? (r : Release) : Option String :=
  Text.ofUtf8? ((Text.utf8 r.stagesDigest).take 12)

end Release
end GatedRelease
