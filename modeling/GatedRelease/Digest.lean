import GatedRelease.FileSystem.Resolve
import GatedRelease.Hash.Sha256
import GatedRelease.ReleaseError

/-! The digest of a directory tree. The tree is written as one byte string, a record for each entry
in order, and the digest is the hash of that string. Where the tree stands is not part of it, and
neither are executable bits. -/
namespace GatedRelease

namespace Tree

/-- A length in eight bytes, the low one first. -/
def lengthBytes (n : Nat) : Bytes := (Sha256.bigEndian 8 n).reverse

/-- One entry in bytes: a letter for its kind, its location, what it holds, and a NUL. -/
def record : Location × Entry → Bytes
  | (l, .link target) =>
    Text.utf8 "l:" ++ Text.utf8 l.render ++ [0] ++ Text.utf8 target ++ [0]
  | (l, .directory) => Text.utf8 "d:" ++ Text.utf8 l.render ++ [0]
  | (l, .file bytes _) =>
    Text.utf8 "f:" ++ Text.utf8 l.render ++ [0] ++ lengthBytes bytes.length ++ bytes ++ [0]

/-- The tree in bytes. -/
def encoding (t : Tree) : Bytes := t.entries.flatMap record

/-- The hash of the tree in bytes. -/
def digest (t : Tree) : String := Sha256.hexDigest t.encoding

/-- Every entry can be reached by a path that starts with `root` and is not too long. -/
def withinReach (t : Tree) (root : String) : Bool :=
  t.entries.all fun x => (PathText.join root x.1.render).utf8ByteSize < FileSystem.pathLimit

end Tree

/-- Why a tree has no digest. -/
inductive DigestFailure
  | notDirectory (root : String)
  | file (cause : Cause)
deriving DecidableEq

/-- The failure as an error of a release. -/
def DigestFailure.toError : DigestFailure → ReleaseError
  | notDirectory root => .io s!"not a directory: {root}"
  | file cause => .io cause.message

/-- The tree below the directory that a path names, if all of it can be read. -/
def FileSystem.readTree (fs : FileSystem) (root : String) : Except DigestFailure Tree :=
  match fs.directoryAt root with
  | .error _ => .error (.notDirectory root)
  | .ok l =>
    if (fs.tree.below l).withinReach root then .ok (fs.tree.below l)
    else .error (.file .nameTooLong)

/-- The digest of the tree that a path names. -/
def FileSystem.treeDigest (fs : FileSystem) (root : String) : Except DigestFailure String :=
  (fs.readTree root).map (·.digest)

end GatedRelease
