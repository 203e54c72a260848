import GatedRelease.Script.Basic
import GatedRelease.Hash.Hex

/-! Running a script. The surroundings are the files, the environment and everything outside the
release: a git and a runner, which may be anything (`Outside`). A run yields the answer, what the
world looks like then, and the notes taken on the way; running one script after another joins
their notes (`run_bind`). -/
namespace GatedRelease

/-- What a runner does with a command. -/
structure CommandEffect (σ : Type) where
  result : Except RunFailure Output
  files : FileSystem
  /-- The run was asked to stop meanwhile. -/
  raised : Bool
  state : σ

/-- **A git and a runner**, of any behaviour, with a state of their own. -/
structure Outside (σ : Type) where
  /-- What git answers to a call in a directory, and what it does to the files. -/
  git : Git.Call → Location → FileSystem → σ → Git.Reply × FileSystem × σ
  /-- What becomes of a command. -/
  command : Command → FileSystem → σ → CommandEffect σ

/-- All that a script acts on. -/
structure World (σ : Type) where
  files : FileSystem
  vars : List (String × Bytes)
  cancelled : Bool
  /-- The number behind the next fresh text. -/
  nonce : Nat
  outside : σ

/-- What a run leaves. -/
structure Played (σ α : Type) where
  value : α
  world : World σ
  /-- What happened, in order. -/
  notes : List Note

/-- The directory that a program starts in. -/
def FileSystem.workplace (fs : FileSystem) (directory : String) : Except Cause Location :=
  fs.directoryAt directory

/-- The value of a variable. No variable has an empty name, or one with an equals sign or a NUL. -/
def lookUpVariable (vars : List (String × Bytes)) (name : String) : Option Bytes :=
  if name == "" || name.toList.contains '=' || name.toList.contains (Char.ofNat 0) then none
  else vars.lookup name

/-- The text for a number: 32 hexadecimal digits. -/
def suffixText (nonce : Nat) : String := String.ofList (Hex.digits 32 nonce)

namespace World
variable {σ : Type}

/-- What comes of a call of git. Git does not start with a NUL in what it is given, nor in a
directory that is none. -/
def callGit (o : Outside σ) (w : World σ) (call : Git.Call) :
    Git.Outcome × Option Location × World σ :=
  if call.holdsNul then (.notStarted .nulInData, none, w)
  else match w.files.workplace call.directory with
    | .error cause => (.notStarted cause, none, w)
    | .ok place =>
      match o.git call place w.files w.outside with
      | (reply, files, state) =>
        (.exited reply, some place, { w with files := files, outside := state })

/-- What comes of a command. -/
def runCommand (o : Outside σ) (w : World σ) (c : Command) :
    Except RunFailure Output × World σ :=
  let effect := o.command c w.files w.outside
  (effect.result,
    { w with
      files := effect.files
      cancelled := w.cancelled || effect.raised
      outside := effect.state })

end World

namespace Played
variable {σ α : Type}

/-- The same, with a note before all others. -/
def after (n : Note) (p : Played σ α) : Played σ α := { p with notes := n :: p.notes }

end Played

namespace Script
variable {σ α β : Type}

/-- Runs a script. -/
def play (o : Outside σ) : Script α → World σ → Played σ α
  | done a, w => ⟨a, w, []⟩
  | look next, w => (next w.files).play o w
  | store fs next, w => next.play o { w with files := fs }
  | git call next, w =>
    match w.callGit o call with
    | (outcome, place, w') => ((next outcome).play o w').after (.git call place outcome)
  | command c next, w =>
    match w.runCommand o c with
    | (result, w') => ((next result).play o w').after (.command c result)
  | environment name next, w => (next (lookUpVariable w.vars name)).play o w
  | cancelled next, w => (next w.cancelled).play o w
  | raise next, w => next.play o { w with cancelled := true }
  | suffix next, w => (next (suffixText w.nonce)).play o { w with nonce := w.nonce + 1 }
  | note n next, w => (next.play o w).after n

/-- **One script after another**: the second starts in the world that the first leaves, and its
notes follow. -/
theorem play_bind (o : Outside σ) (s : Script α) (f : α → Script β) (w : World σ) :
    (s.bind f).play o w =
      let first := s.play o w
      let second := (f first.value).play o first.world
      ⟨second.value, second.world, first.notes ++ second.notes⟩ := by
  induction s generalizing w <;>
    simp only [bind, play, Played.after, List.nil_append, List.cons_append, *]

end Script
end GatedRelease
