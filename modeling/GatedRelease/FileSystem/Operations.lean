import GatedRelease.FileSystem.Resolve

/-! Changes to the files. A change may fail half way and leave what it did, so a step yields its
answer and the files after it, whether it succeeds or not.

A change is refused for what is there and for what its path leads to, and for nothing else. Owners
and permissions are left out, but for whether a file can be executed: whoever changes the files may
read and write all of them. Left out, too, is a device that fails or is full: a directory that is
removed is emptied at one stroke, and no read, write or removal stops half way for a reason that the
files do not show. -/
namespace GatedRelease

/-- A step on the files that can fail for a reason in `ε`. -/
abbrev FileStep (ε α : Type) := ExceptT ε (StateM FileSystem) α

namespace FileStep
variable {ε α : Type}

/-- A step that only looks. -/
def look (f : FileSystem → Except ε α) : FileStep ε α := fun fs => (f fs, fs)

/-- A step that changes everything it has to, or nothing. -/
def atOnce (f : FileSystem → Except ε FileSystem) : FileStep ε Unit := fun fs =>
  match f fs with
  | .ok fs' => (.ok (), fs')
  | .error e => (.error e, fs)

/-- The step, its failure in other words. -/
def orElseSay {δ : Type} (step : FileStep ε α) (say : ε → δ) : FileStep δ α := fun fs =>
  match step fs with
  | (.ok a, fs') => (.ok a, fs')
  | (.error e, fs') => (.error (say e), fs')

/-- The step, and whether it succeeded. -/
def attempt {δ : Type} (step : FileStep ε α) : FileStep δ (Except ε α) := fun fs =>
  match step fs with
  | (r, fs') => (.ok r, fs')

end FileStep

namespace FileSystem

/-- The last name of a path, slashes at the end left out. -/
def lastName (p : String) : Option String := (names p).getLast?

/-- The files with a new directory. -/
def makeDirectory (p : String) : FileStep Cause Unit := FileStep.atOnce fun fs => do
  match ← fs.spot false p (names p) with
  | .present _ => .error .alreadyExists
  | .absent l => .ok { fs with tree := fs.tree.put l .directory }

/-- Makes the first of `paths`, and before it, if its place is missing, those after it. -/
def makeDirectoriesFrom : String → List String → FileStep Cause Unit
  | p, above => do
    if p == "" then return
    match ← (makeDirectory p).attempt with
    | .ok () => return
    | .error .notFound =>
      match above with
      | [] => throw .notFound
      | parent :: above =>
        makeDirectoriesFrom parent above
        match ← (makeDirectory p).attempt with
        | .ok () => return
        | .error e => if (← get).isDirectory p then return else throw e
    | .error e => if (← get).isDirectory p then return else throw e

/-- Makes a directory and those above it that are missing. It is no failure if it is there. -/
def makeDirectories (p : String) : FileStep Cause Unit :=
  makeDirectoriesFrom p (PathText.ancestors p)

/-- The files with a new link. -/
def makeLink (target p : String) : FileStep Cause Unit := FileStep.atOnce fun fs => do
  if target.toList.contains (Char.ofNat 0) then .error .nulInPath
  else if target == "" then .error .notFound
  else if pathLimit ≤ target.utf8ByteSize then .error .nameTooLong
  else match ← fs.spot false p (steps p) with
    | .present _ => .error .alreadyExists
    | .absent l => .ok { fs with tree := fs.tree.put l (.link target) }

/-- Writes a file, along links. A new file is executable only if `executable` says so; one that is
there keeps its mode, unless `executable` is given. -/
def writeFile (p : String) (bytes : Bytes) (executable : Option Bool) : FileStep Cause Unit :=
  FileStep.atOnce fun fs => do
    match ← fs.spot true p (steps p) with
    | .absent l =>
      .ok { fs with tree := fs.tree.put l (.file bytes (executable.getD false)) }
    | .present l =>
      match fs.tree.find? l with
      | some (.file _ mode) =>
        .ok { fs with tree := fs.tree.put l (.file bytes (executable.getD mode)) }
      | _ => .error .isDirectory

/-- Removes what is not a directory. A link is removed, not its target. -/
def removeFile (p : String) : FileStep Cause Unit := FileStep.atOnce fun fs => do
  match ← fs.spot false p (names p) with
  | .absent _ => .error .notFound
  | .present l =>
    if lastName p = none ∨ lastName p = some "." ∨ lastName p = some ".." then
      .error .isDirectory
    else if fs.tree.find? l = some .directory then .error .isDirectory
    else if PathText.endsInSlash p then .error .notDirectory
    else .ok { fs with tree := fs.tree.prune l }

/-- Removes an empty directory. -/
def removeDirectory (p : String) : FileStep Cause Unit := FileStep.atOnce fun fs => do
  match ← fs.spot false p (names p) with
  | .absent _ => .error .notFound
  | .present l =>
    if lastName p = none then .error .busy
    else if lastName p = some "." then .error .invalidArgument
    else if lastName p = some ".." then .error .notEmpty
    else if fs.tree.find? l ≠ some .directory then .error .notDirectory
    else if fs.tree.isEmptyDirectory l then .ok { fs with tree := fs.tree.prune l }
    else .error .notEmpty

/-- Removes all that is below a directory. -/
def clearDirectory (l : Location) : FileStep Cause Unit := FileStep.atOnce fun fs =>
  .ok { fs with tree := (fs.tree.prune l).put l .directory }

/-- Removes a directory with all that is below it, or a link. A file is refused. A path that leads
through the directory itself may name nothing once it is empty; then the empty directory stays. -/
def removeTree (p : String) : FileStep Cause Unit := do
  match ← FileStep.look (·.entryAt p) with
  | .link _ => removeFile p
  | .file .. => throw .notDirectory
  | .directory =>
    clearDirectory (← FileStep.look (·.locate false p))
    match ← (removeDirectory p).attempt with
    | .ok () | .error .notFound => return
    | .error e => throw e

/-- Removes whatever the path names, a link taken for itself. -/
def removeAny (p : String) : FileStep Cause Unit := do
  match ← FileStep.look (·.entryAt p) with
  | .directory => removeTree p
  | _ => removeFile p

/-- The last name of a path that a move can start from or end at. -/
def hasPlainEnd (p : String) : Bool :=
  match lastName p with
  | none => false
  | some n => n != "." && n != ".."

/-- The directory that holds what the path names. -/
def holder (fs : FileSystem) (p : String) : Except Cause Location := do
  match ← fs.spot true p (names p).dropLast with
  | .absent _ => .error .notFound
  | .present l =>
    if fs.tree.find? l = some .directory then .ok l else .error .notDirectory

/-- Moves an entry with all below it. A directory takes the place of an empty directory only, any
other entry that of any but a directory. -/
def rename (source target : String) : FileStep Cause Unit := FileStep.atOnce fun fs => do
  let _ ← fs.holder source
  let _ ← fs.holder target
  if !hasPlainEnd source || !hasPlainEnd target then .error .busy
  else match ← fs.spot false source (names source) with
    | .absent _ => .error .notFound
    | .present from' =>
      let isDir := fs.tree.find? from' = some .directory
      let found ← fs.spot false target (names target)
      if !isDir && (PathText.endsInSlash source || PathText.endsInSlash target) then
        .error .notDirectory
      else match found with
        | .absent place =>
          if (Location.within from' place).isSome then .error .invalidArgument
          else .ok { fs with tree := fs.tree.move from' place }
        | .present place =>
          if place = from' then .ok fs
          else if (Location.within from' place).isSome then .error .invalidArgument
          else if (Location.within place from').isSome then .error .notEmpty
          else if isDir then
            if fs.tree.find? place ≠ some .directory then .error .notDirectory
            else if fs.tree.isEmptyDirectory place then
              .ok { fs with tree := fs.tree.move from' place }
            else .error .notEmpty
          else if fs.tree.find? place = some .directory then .error .isDirectory
          else .ok { fs with tree := fs.tree.move from' place }

end FileSystem
end GatedRelease
