import GatedRelease.Artifact
import GatedRelease.Command
import GatedRelease.FileSystem.Operations
import GatedRelease.Git.Action
import GatedRelease.Stage.Status

/-! A release as a script: a tree of requests to its surroundings, each with a continuation for
every answer. What a release does with every possible git and every possible runner is then a
statement about one value. Scripts form a lawful monad. -/
namespace GatedRelease

/-- What a release tells those who watch it. -/
inductive Event
  | runStarted (tag : String) (stages : Nat)
  | stageStarted (stage : String) (position : Nat)
  | stageFinished (stage : String) (success : Bool)
  | stageSkipped (stage reason : String)
  | runFinished (success : Bool) (failedStage : String)
  | publishStep (step : PublishStep) (detail : String)
deriving DecidableEq

/-- One thing that happened while a script was run. -/
inductive Note
  /-- Git was called, in a directory that is known if git started. -/
  | git (call : Git.Call) (place : Option Location) (outcome : Git.Outcome)
  /-- A command was handed to the runner. -/
  | command (command : Command) (result : Except RunFailure Output)
  | event (event : Event)
  /-- The action of a stage began, with this context. -/
  | entered (position : Nat) (context : Context)
  /-- A stage was told to move on. -/
  | moved (position : Nat) (before after : StageStatus) (permitted : Bool)

/-- A tree of requests that ends in an answer. -/
inductive Script (α : Type) : Type
  | done (a : α)
  /-- Looks at the files. -/
  | look (next : FileSystem → Script α)
  /-- Leaves other files. -/
  | store (files : FileSystem) (next : Script α)
  /-- Calls git. -/
  | git (call : Git.Call) (next : Git.Outcome → Script α)
  /-- Has the runner run a command. -/
  | command (command : Command) (next : Except RunFailure Output → Script α)
  /-- Reads an environment variable. -/
  | environment (name : String) (next : Option Bytes → Script α)
  /-- Asks whether the run is to stop. -/
  | cancelled (next : Bool → Script α)
  /-- Asks the run to stop. -/
  | raise (next : Script α)
  /-- Asks for a text that no file name holds yet. -/
  | suffix (next : String → Script α)
  /-- Writes down what happened. -/
  | note (note : Note) (next : Script α)

namespace Script
variable {α β γ ε : Type}

/-- Goes on with `f` where the script ends. -/
def bind (s : Script α) (f : α → Script β) : Script β :=
  match s with
  | done a => f a
  | look next => .look fun fs => (next fs).bind f
  | store fs next => .store fs (next.bind f)
  | git call next => .git call fun r => (next r).bind f
  | command c next => .command c fun r => (next r).bind f
  | environment name next => .environment name fun v => (next v).bind f
  | cancelled next => .cancelled fun b => (next b).bind f
  | raise next => .raise (next.bind f)
  | suffix next => .suffix fun t => (next t).bind f
  | note n next => .note n (next.bind f)

instance : Monad Script where
  pure := done
  bind := bind

@[simp] theorem pure_eq (a : α) : (pure a : Script α) = done a := rfl

@[simp] theorem bind_eq (s : Script α) (f : α → Script β) : s >>= f = s.bind f := rfl

theorem bind_done (s : Script α) : s.bind done = s := by
  induction s <;> simp only [bind, *]

theorem bind_assoc (s : Script α) (f : α → Script β) (g : β → Script γ) :
    (s.bind f).bind g = s.bind fun a => (f a).bind g := by
  induction s <;> simp only [bind, *]

instance : LawfulMonad Script :=
  LawfulMonad.mk' Script (fun s => bind_done s) (fun _ _ => rfl) bind_assoc

/-- Takes a step on the files. -/
def files (step : FileStep ε α) : Script (Except ε α) :=
  .look fun fs => .store (step fs).2 (.done (step fs).1)

/-- Looks something up in the files. -/
def inspect (f : FileSystem → α) : Script α := .look fun fs => .done (f fs)

/-- Calls git. -/
def callGit (call : Git.Call) : Script Git.Outcome := .git call .done

/-- Has the runner run a command. -/
def run (c : Command) : Script (Except RunFailure Output) := .command c .done

/-- Reads an environment variable. -/
def readVariable (name : String) : Script (Option Bytes) := .environment name .done

/-- Whether the run is to stop. -/
def isCancelled : Script Bool := .cancelled .done

/-- Asks the run to stop. -/
def cancel : Script Unit := .raise (.done ())

/-- A text that no file name holds yet. -/
def freshSuffix : Script String := .suffix .done

/-- Writes down what happened. -/
def record (n : Note) : Script Unit := .note n (.done ())

/-- Tells those who watch. -/
def emit (e : Event) : Script Unit := record (.event e)

end Script

/-- A script that can fail for a reason in `ε`. -/
abbrev Attempt (ε α : Type) := ExceptT ε Script α

namespace Attempt
variable {α ε δ : Type}

/-- The attempt, its failure in other words. -/
def orElseSay (attempt : Attempt ε α) (say : ε → δ) : Attempt δ α :=
  ExceptT.mk do
    match ← attempt.run with
    | .ok a => pure (.ok a)
    | .error e => pure (.error (say e))

/-- A step on the files as an attempt. -/
def files (step : FileStep ε α) : Attempt ε α := ExceptT.mk (Script.files step)

/-- Looks something up in the files. -/
def inspect (f : FileSystem → α) : Attempt ε α := ExceptT.lift (Script.inspect f)

/-- Goes on with an answer, or fails. -/
def ofExcept (r : Except ε α) : Attempt ε α := ExceptT.mk (pure r)

end Attempt
end GatedRelease
