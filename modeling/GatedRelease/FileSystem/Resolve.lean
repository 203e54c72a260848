import GatedRelease.FileSystem.Tree
import GatedRelease.FileSystem.Cause
import GatedRelease.FileSystem.PathText

/-! What a path names. A path is walked from the root or from the home directory, one name after
the other; a link on the way sends the walk along its target, at most 40 times in all. The walk
ends at a location that holds an entry, or at one that could. -/
namespace GatedRelease

/-- All files, and the directory that relative paths start from. -/
structure FileSystem where
  tree : Tree
  home : Location

/-- Where a walk ends. -/
inductive Spot
  /-- There is an entry. -/
  | present (l : Location)
  /-- There is none, but the directory for it exists. -/
  | absent (l : Location)
deriving DecidableEq

namespace FileSystem

/-- The longest path that is looked at, in bytes, plus one. -/
def pathLimit : Nat := 4096

/-- How many links a walk goes along. -/
def linkLimit : Nat := 40

/-- The directory in which the walk of a path starts. -/
def start (home : Location) (p : String) : Location :=
  if PathText.isAbsolute p then [] else home

/-- The names of a path; slashes between them count for nothing. -/
def names (p : String) : List String := (PathText.pieces p).filter (· != "")

/-- The steps of a walk. A slash at the end asks for a directory, as a dot would. -/
def steps (p : String) : List String :=
  if PathText.endsInSlash p then names p ++ ["."] else names p

/-- Walks along names from the location `here`. `follow` says whether a link at the very end is
gone along as well, and `along` goes on from there with what the link and the path still ask for. -/
def walkNames (t : Tree) (follow : Bool) (along : Location → List String → Except Cause Spot)
    (here : Location) : List String → Except Cause Spot
  | [] => .ok (.present here)
  | step :: rest =>
    if t.find? here ≠ some .directory then .error .notDirectory
    else if step = "." then walkNames t follow along here rest
    else if step = ".." then walkNames t follow along here.dropLast rest
    else match Name.ofString? step with
      | none => .error .nameTooLong
      | some n =>
        match t.find? (here ++ [n]) with
        | none => if rest = [] then .ok (.absent (here ++ [n])) else .error .notFound
        | some (.link target) =>
          if rest ≠ [] ∨ follow = true then along (start here target) (steps target ++ rest)
          else .ok (.present (here ++ [n]))
        | some _ => walkNames t follow along (here ++ [n]) rest

/-- Walks along names, with so many links left. -/
def walk (t : Tree) (follow : Bool) : Nat → Location → List String → Except Cause Spot
  | 0 => walkNames t follow fun _ _ => .error .tooManyLinks
  | links + 1 => walkNames t follow (walk t follow links)

theorem walk_nil (t : Tree) (follow : Bool) (links : Nat) (here : Location) :
    walk t follow links here [] = .ok (.present here) := by
  cases links <;> rfl

theorem walk_cons (t : Tree) (follow : Bool) (links : Nat) (here : Location) (step : String)
    (rest : List String) : walk t follow links here (step :: rest) =
      if t.find? here ≠ some .directory then .error .notDirectory
      else if step = "." then walk t follow links here rest
      else if step = ".." then walk t follow links here.dropLast rest
      else match Name.ofString? step with
        | none => .error .nameTooLong
        | some n =>
          match t.find? (here ++ [n]) with
          | none => if rest = [] then .ok (.absent (here ++ [n])) else .error .notFound
          | some (.link target) =>
            if rest ≠ [] ∨ follow = true then
              match links with
              | 0 => .error .tooManyLinks
              | links + 1 => walk t follow links (start here target) (steps target ++ rest)
            else .ok (.present (here ++ [n]))
          | some _ => walk t follow links (here ++ [n]) rest := by
  cases links <;> rfl

/-- Refuses what no path can be. -/
def checkText (p : String) : Except Cause Unit :=
  if p.toList.contains (Char.ofNat 0) then .error .nulInPath
  else if p == "" then .error .notFound
  else if pathLimit ≤ p.utf8ByteSize then .error .nameTooLong
  else .ok ()

/-- Where the steps of a path lead. -/
def spot (fs : FileSystem) (follow : Bool) (p : String) (path : List String) :
    Except Cause Spot := do
  checkText p
  walk fs.tree follow linkLimit (start fs.home p) path

/-- The location of the entry that a path names; `follow` as in `walkNames`. -/
def locate (fs : FileSystem) (follow : Bool) (p : String) : Except Cause Location := do
  match ← fs.spot follow p (steps p) with
  | .present l => .ok l
  | .absent _ => .error .notFound

/-- The entry that a path names, a link at the end taken for itself. -/
def entryAt (fs : FileSystem) (p : String) : Except Cause Entry := do
  match fs.tree.find? (← fs.locate false p) with
  | some e => .ok e
  | none => .error .notFound

/-- The location of the entry behind all links. -/
def canonical (fs : FileSystem) (p : String) : Except Cause Location := fs.locate true p

/-- The path names an entry, links gone along. -/
def pathExists (fs : FileSystem) (p : String) : Bool :=
  match fs.canonical p with
  | .ok _ => true
  | .error _ => false

/-- The location of the directory that a path names. -/
def directoryAt (fs : FileSystem) (p : String) : Except Cause Location := do
  let l ← fs.canonical p
  if fs.tree.find? l = some .directory then .ok l else .error .notDirectory

/-- The path names a directory, links gone along. -/
def isDirectory (fs : FileSystem) (p : String) : Bool :=
  match fs.directoryAt p with
  | .ok _ => true
  | .error _ => false

/-- The bytes of the file that a path names. -/
def readFile (fs : FileSystem) (p : String) : Except Cause Bytes := do
  match fs.tree.find? (← fs.canonical p) with
  | some (.file bytes _) => .ok bytes
  | some .directory => .error .isDirectory
  | _ => .error .notFound

end FileSystem
end GatedRelease
