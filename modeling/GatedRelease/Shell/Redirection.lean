import GatedRelease.Shell.Expansion

/-! Redirections. Their targets are found out first, then they are opened one after the other; what
stood under the same numbers before comes back after the command. -/
namespace GatedRelease.Shell.Redirection

/-- What a redirection leads to. -/
inductive Target
  | path (p : String)
  /-- Another open file. -/
  | copy (number : Nat)
  /-- Nothing any more. -/
  | closed
  | document (w : Word)

/-- A redirection whose target is known. -/
abbrev Aim := Redirect Target

/-- The open file that a word asks for. -/
def copied (text : String) : Action Target := do
  match text.toList with
  | ['-'] => return .closed
  | [c] => if c.isDigit then return .copy (c.toNat - 48)
  | _ => pure ()
  Action.fail "Syntax error: Bad fd number"

/-- Finds out what a redirection leads to. -/
def aim (run : Expansion.Substitute) (r : Redirect Word) : Action Aim := do
  let target ← match r.opening with
    | .document => pure (Target.document r.target)
    | .copy =>
      match ← Expansion.toTexts run r.target with
      | text :: _ => copied text
      | [] => Action.fail "redir error"
    | _ => pure (Target.path (← Expansion.toText run .first r.target))
  return ⟨r.descriptor, r.opening, target⟩

/-- Finds out what redirections lead to. -/
def aims (run : Expansion.Substitute) : List (Redirect Word) → Action (List Aim)
  | [] => return []
  | r :: rest => do
    let a ← aim run r
    return a :: (← aims run rest)

/-- What is said of a file that cannot be opened. -/
def refusal (fresh : Bool) (path : String) (c : Cause) : String :=
  let (verb, missing) :=
    if fresh then ("create", "Directory nonexistent") else ("open", "No such file")
  let why := if c = .notFound || c = .notDirectory then missing else c.words
  s!"cannot {verb} {path}: {why}"

/-- Opens a file, which may be a new one, and tells why it cannot. -/
def openFor (s : State) (fresh : Bool) (path : String) (mode : OpenMode) :
    Except String Handle × State :=
  match s.openPath path mode with
  | (.ok h, s) => (.ok h, s)
  | (.error c, s) => (.error (refusal fresh path c), s)

/-- What is not to be overwritten is at a path, or something else, or nothing. -/
def spares? (files : FileSystem) (path : String) : Option Bool :=
  match files.canonical (Octets.decode path) with
  | .error _ => if (files.entryAt (Octets.decode path)).toOption.isSome then some true else none
  | .ok l => some (match System.device? l, files.tree.find? l with
    | none, some (.file ..) => true
    | _, _ => false)

/-- Opens a file as a redirection asks for it. -/
def openFile (s : State) (opening : Opening) (path : String) : Except String Handle × State :=
  match opening with
  | .output =>
    if s.isOn .noclobber then
      match spares? s.files path with
      | some true => (.error (refusal true path .alreadyExists), s)
      | some false => openFor s false path ⟨false, true, false, false, false, false⟩
      | none => openFor s true path ⟨false, true, false, true, false, true⟩
    else openFor s true path .writing
  | .clobbering => openFor s true path .writing
  | .appending => openFor s true path ⟨false, true, true, true, false, false⟩
  | .both => openFor s true path ⟨true, true, false, true, false, false⟩
  | _ => openFor s false path .reading

/-- Opens what a redirection leads to. `kept` says that what stood under its number is put aside,
and so is closed by the time a copy fails. -/
def establish (run : Expansion.Substitute) (kept : Bool) (a : Aim) : Action Unit := do
  match a.target with
  | .closed => modify (·.close a.descriptor)
  | .copy n =>
    if n != a.descriptor then
      match (← get).descriptors.lookup n with
      | some h => modify (·.aim a.descriptor h)
      | none =>
        if kept then modify (·.close a.descriptor)
        Action.fail s!"{n}: Bad file descriptor"
  | .document w =>
    let text ← Expansion.toText run .nowhere w
    modify fun s =>
      let (s, reading, writing) := s.pipe
      ((s.writeBy writing (Octets.toBytes text)).1).aim a.descriptor reading
  | .path p =>
    let (opened, s) := openFile (← get) a.opening p
    set s
    match opened with
    | .ok h => modify (·.aim a.descriptor h)
    | .error message => Action.fail message

/-- Opens what redirections lead to, one after the other. -/
def establishAll (run : Expansion.Substitute) (kept : Bool) : List Aim → Action Unit
  | [] => return
  | a :: rest => do
    establish run kept a
    establishAll run kept rest

/-- The redirection changes what stands under its number. -/
def changes (a : Aim) : Bool :=
  match a.target with
  | .copy n => n != a.descriptor
  | _ => true

/-- The state in which the numbers of redirections stand for what they stood for before. What nobody
has a hold on any more goes away. -/
def restore (aims : List Aim) (before s : State) : State :=
  let s := (aims.filter changes).foldl (fun s a =>
    match before.descriptors.lookup a.descriptor with
    | some h => s.aim a.descriptor h
    | none => s.close a.descriptor) s
  if s.descriptors.all fun d => d.2.stream < before.streams.size then
    { s with streams := s.streams.extract 0 before.streams.size }
  else s

/-- Carries out something with redirections; `refused` comes in its place if they fail. -/
def around {α : Type} (run : Expansion.Substitute) (aims : List Aim) (refused action : Action α) :
    Action α := do
  let before ← get
  Action.finally' (do
    match ← (establishAll run true aims).attempt with
    | .ok () => action
    | .error .failed => refused
    | .error flow => throw flow) (restore aims before)

end GatedRelease.Shell.Redirection
