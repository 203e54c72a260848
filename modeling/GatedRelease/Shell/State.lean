import GatedRelease.Shell.Numeral
import GatedRelease.Shell.Program
import GatedRelease.Shell.Setting
import GatedRelease.Shell.Source
import GatedRelease.Shell.System
import GatedRelease.Text.Octets

/-! What a shell works on: the files, with its own directory as their home, its open files, and its
variables and arguments. Texts are octet texts. -/
namespace GatedRelease.Shell

/-- How a program ended. -/
inductive Outcome
  | exited (status : Nat)
  | killed (signal : Nat)
deriving DecidableEq

/-- The status that a shell sees of a program that ended. -/
def Outcome.status : Outcome → Nat
  | exited n => n
  | killed n => 128 + n

/-- A command that the shell did not wait for when it began it. -/
structure Job where
  /-- Its place among the jobs, counted from one. -/
  place : Nat
  /-- The number of its last program. -/
  number : Nat
  /-- How many programs it is beside the last. -/
  others : Nat
  outcome : Outcome
  /-- Somebody has waited for it. -/
  waited : Bool

/-- How far the arguments have been searched for options. -/
structure OptionPlace where
  /-- The argument that comes next, counted from one. -/
  index : Nat
  /-- How much of the argument before it has been read, if it may hold more options. -/
  offset : Option Nat

/-- The place before all arguments. -/
def OptionPlace.start : OptionPlace := ⟨1, none⟩

/-- What a function has taken for itself, as it was before. -/
inductive Shadow
  | variable (name : String) (value : Option String) (exported constant : Bool)
  | settings (settings : List Setting)

/-- The state of a shell. -/
structure State where
  files : FileSystem
  /-- Everything that was opened. -/
  streams : Array Stream
  /-- The open files by number. -/
  descriptors : List (Nat × Handle)
  /-- The path of the directory, as it was gone to. -/
  directory : String
  /-- The permissions that new files do not get. -/
  mask : Nat
  vars : List (String × String)
  /-- The variables that other programs get. -/
  exported : List String
  /-- The variables that keep their value. -/
  constants : List String
  /-- What the shell calls itself. -/
  title : String
  arguments : List String
  optionPlace : OptionPlace
  status : Nat
  /-- The status of the last program whose output was put into a word. -/
  substituted : Nat
  /-- The number by which the system knows the shell, the one of the first shell that is around it,
  and the one for the next program. -/
  number : Nat
  firstNumber : Nat
  nextNumber : Nat
  /-- This is a part of a shell, which runs by itself but goes by the number of the whole. -/
  isPart : Bool
  /-- Signals that were sent, each with the number of the shell that they were sent to. -/
  sent : List (Nat × Nat)
  /-- The number of the last command that nobody waited for. -/
  beside : Option Nat
  /-- The jobs, the last one first. -/
  jobs : List Job
  settings : List Setting
  functions : List (String × Command)
  aliases : Parser.Aliases
  /-- The paths of programs that have been looked for, and whether the directory is another one
  since then. -/
  found : List (String × String × Bool)
  /-- What to do at the end, and on signals. -/
  traps : List (Nat × String)
  /-- The signals to which the shell has been deaf from the start. -/
  deaf : List Nat
  /-- The status before a trap. -/
  saved : Option Nat
  /-- The loops that are running. -/
  loops : Nat
  /-- The functions that are running. -/
  calls : Nat
  /-- In a function, what it has taken for itself. -/
  shadowed : Option (List Shadow)
  /-- The line that is carried out. -/
  line : Nat
  /-- The command that complains, if it is one of the shell's own. -/
  within : Option String
  /-- What the running command of the shell's own has written, the last piece first. -/
  output : List Bytes

/-- How a command fails or leaves what is around it. -/
inductive Flow
  /-- The shell ends. -/
  | stop
  /-- The shell ends because something is wrong. -/
  | failed
  /-- The function or file ends. -/
  | back
  /-- So many loops are left. -/
  | leave (loops : Nat)
  /-- So many loops less one are left, and the last begins its next round. -/
  | again (loops : Nat)
  /-- The shell is killed by a signal. -/
  | killed (signal : Nat)
  /-- The shell has become another program, which has ended. -/
  | replaced (o : Outcome)
deriving DecidableEq

/-- Something that is carried out in a shell. -/
abbrev Action (α : Type) := ExceptT Flow (StateM State) α

namespace State

/-- The value of a variable. -/
def value? (s : State) (name : String) : Option String := s.vars.lookup name

/-- A setting is on. -/
def isOn (s : State) (x : Setting) : Bool := s.settings.contains x

/-- The variables that other programs get. -/
def environment (s : State) : List (String × String) :=
  s.vars.filter fun v => s.exported.contains v.1

/-- The state with another status. -/
def withStatus (s : State) (status : Nat) : State := { s with status := status }

/-- The names of a list with one more, or without one. -/
def mark (on : Bool) (name : String) (names : List String) : List String :=
  if on then name :: names.filter (· != name) else names.filter (· != name)

/-- The state with another value of a variable, be that a constant or not. Where programs are looked
for decides where they have been found. -/
def put (s : State) (name value : String) : State :=
  { s with
    vars := (name, value) :: s.vars.filter fun v => v.1 != name
    exported := if s.isOn .allexport then mark true name s.exported else s.exported
    found := if name == "PATH" then [] else s.found }

/-- The state without a variable. -/
def drop (s : State) (name : String) : State :=
  { s with
    vars := s.vars.filter fun v => v.1 != name
    exported := mark false name s.exported
    found := if name == "PATH" then [] else s.found }

/-- The state with a variable that other programs get. -/
def exporting (s : State) (name : String) : State :=
  { s with exported := mark true name s.exported }

/-- A variable as it is. -/
def shadowOf (s : State) (name : String) : Shadow :=
  .variable name (s.value? name) (s.exported.contains name) (s.constants.contains name)

/-- The state in which something is as it was before. -/
def unshadow (s : State) : Shadow → State
  | .settings settings => { s with settings := settings }
  | .variable name value exported constant =>
    let s := match value with
      | some v => s.put name v
      | none => s.drop name
    { s with
      exported := mark exported name s.exported
      constants := mark constant name s.constants }

/-- The stream of an open file. -/
def stream? (s : State) (h : Handle) : Option Stream := s.streams[h.stream]?

/-- What can be read from an open file. -/
def available (s : State) (descriptor : Nat) : Except Cause Bytes :=
  match s.descriptors.lookup descriptor with
  | none => .error .badDescriptor
  | some h =>
    if h.reads then
      match s.stream? h with
      | some x => x.available s.files
      | none => .error .badDescriptor
    else .error .badDescriptor

/-- The state after so many bytes have been read from an open file. -/
def skip (s : State) (descriptor count : Nat) : State :=
  match s.descriptors.lookup descriptor with
  | none => s
  | some h => { s with streams := s.streams.modify h.stream (·.skip count) }

/-- What can be read from an open file, and the state after all of it has been. -/
def readAll (s : State) (descriptor : Nat) : Except Cause Bytes × State :=
  match s.available descriptor with
  | .error c => (.error c, s)
  | .ok bytes => (.ok bytes, s.skip descriptor bytes.length)

/-- The state after bytes are written by a handle, and why they could not be. -/
def writeBy (s : State) (h : Handle) (bytes : Bytes) : State × Option Cause :=
  if h.writes then
    match s.stream? h with
    | none => (s, some .badDescriptor)
    | some x =>
      match x.write s.files h.appends bytes with
      | .error c => (s, some c)
      | .ok (x, files) => ({ s with files := files, streams := s.streams.set! h.stream x }, none)
  else (s, some .badDescriptor)

/-- The state after bytes are written to an open file, and why they could not be. -/
def write (s : State) (descriptor : Nat) (bytes : Bytes) : State × Option Cause :=
  match s.descriptors.lookup descriptor with
  | none => (s, some .badDescriptor)
  | some h => s.writeBy h bytes

/-- The state with a line of octets on standard error; it does not matter if that is closed. -/
def warn (s : State) (text : String) : State := (s.write 2 (Octets.toBytes (text ++ "\n"))).1

/-- How messages begin. -/
def place (s : State) : String :=
  match s.within with
  | none => s!"{s.title}: {s.line}"
  | some name => s!"{s.title}: {s.line}: {name}"

/-- The state with a message of the shell on standard error. -/
def complain (s : State) (message : String) : State := s.warn s!"{s.place}: {message}"

/-- The state in which the running command has written bytes. -/
def print (s : State) (bytes : Bytes) : State := { s with output := bytes :: s.output }

/-- The state in which the running command has written a line of octets. -/
def say (s : State) (text : String) : State := s.print (Octets.toBytes (text ++ "\n"))

/-- The state in which all that the running command has written is on standard output, and whether
it could be. -/
def flush (s : State) : State × Bool :=
  let bytes := s.output.reverse.flatten
  let s := { s with output := [] }
  if bytes.isEmpty then (s, true)
  else
    let (s, cause) := s.write 1 bytes
    (s, cause.isNone)

/-- The state with another open file under a number. -/
def aim (s : State) (descriptor : Nat) (h : Handle) : State :=
  { s with descriptors := (descriptor, h) :: s.descriptors.filter fun d => d.1 != descriptor }

/-- The state with a number under which no file is open. -/
def close (s : State) (descriptor : Nat) : State :=
  { s with descriptors := s.descriptors.filter fun d => d.1 != descriptor }

/-- The state with one more stream, and its number. -/
def opening (s : State) (x : Stream) : State × Nat :=
  ({ s with streams := s.streams.push x }, s.streams.size)

/-- Takes hold of a stream. -/
def hold (s : State) (x : Stream) (mode : OpenMode) : Handle × State :=
  let (s, n) := s.opening x
  (⟨n, mode.reads, mode.writes, mode.appends⟩, s)

/-- Opens what is at a location. -/
def openAt (s : State) (l : Location) (mode : OpenMode) : Except Cause Handle × State :=
  match s.files.tree.find? l with
  | some (.file _ x) =>
    if mode.fresh then (.error .alreadyExists, s)
    else
      let s := if mode.empties then
          { s with files := { s.files with tree := s.files.tree.put l (.file [] x) } }
        else s
      let (h, s) := s.hold (.file l 0) mode
      (.ok h, s)
  | some .directory =>
    if mode.writes then (.error .isDirectory, s)
    else
      let (h, s) := s.hold .directory mode
      (.ok h, s)
  | _ => (.error .notFound, s)

/-- Opens a device. What stands for an open file is opened once more, from its start if it has one.
-/
def openDevice (s : State) (mode : OpenMode) : Device → Except Cause Handle × State
  | .descriptor n =>
    match s.descriptors.lookup n with
    | none => (.error .notFound, s)
    | some h =>
      match s.stream? h with
      | some (.file l _) => s.openAt l mode
      | some .directory => s.openAt [] mode
      | _ => (.ok ⟨h.stream, mode.reads, mode.writes, mode.appends⟩, s)
  | d =>
    let (h, s) := s.hold (.device d) mode
    (.ok h, s)

/-- Opens the file that a path names. -/
def openPath (s : State) (path : String) (mode : OpenMode) : Except Cause Handle × State :=
  let p := Octets.decode path
  if mode.creates && PathText.endsInSlash p then
    match s.files.holder p with
    | .error c => (.error c, s)
    | .ok _ => (.error .isDirectory, s)
  else match s.files.spot true p (FileSystem.steps p) with
    | .error c => (.error c, s)
    | .ok (.absent l) =>
      if mode.creates then
        ({ s with files := { s.files with tree := s.files.tree.put l (.file [] false) } }).openAt l
          { mode with fresh := false }
      else (.error .notFound, s)
    | .ok (.present l) =>
      match System.device? l with
      | some d => s.openDevice mode d
      | none => s.openAt l mode

/-- The state with a new pipe, and its handles to read and to write. -/
def pipe (s : State) : State × Handle × Handle :=
  let (s, n) := s.opening (.pipe [] [])
  (s, ⟨n, true, false, false⟩, ⟨n, false, true, false⟩)

/-- The first place for another job; one that somebody has waited for gives its place away. -/
def freePlace (s : State) : Nat :=
  ((List.range' 1 (s.jobs.length + 1)).find? fun n =>
    !s.jobs.any fun j => j.place = n && !j.waited).getD 1

/-- The state when another program begins, which may take the place of a job. -/
def forking (s : State) : State :=
  let n := s.freePlace
  { s with jobs := s.jobs.filter (·.place != n) }

/-- The state after another program has run: what it did to files and streams stays, but what it
opened itself is gone. -/
def after (s inner : State) : State :=
  { s with
    files := { inner.files with home := s.files.home }
    streams := inner.streams.extract 0 s.streams.size
    nextNumber := inner.nextNumber
    sent := inner.sent }

end State

namespace Action

/-- Fails with a message of the shell. What has been written so far comes out. -/
def fail {α : Type} (message : String) : Action α := do
  modify fun s => ((s.complain message).flush.1).withStatus 2
  throw .failed

/-- Gives a variable a value, unless it is a constant. The one that tells where options are searched
takes numbers only, and the search goes on from there. -/
def assign (name value : String) : Action Unit := do
  if (← get).constants.contains name then fail s!"{name}: is read only"
  modify fun s => s.put name value
  if name == "OPTIND" then
    match Numeral.count? value with
    | some n => modify fun s => { s with optionPlace := ⟨max n 1, none⟩ }
    | none => fail s!"Illegal number: {value}"

/-- Takes a variable away, unless it is a constant. -/
def unset (name : String) : Action Unit := do
  if (← get).constants.contains name then fail s!"{name}: is read only"
  modify fun s => s.drop name

/-- Carries out something that may fail, and tells how it went. -/
def attempt {α : Type} (action : Action α) : Action (Except Flow α) := fun s =>
  let (result, s) := action.run s
  (.ok result, s)

/-- Carries out something, and something else after it, however it goes on. -/
def finally' {α : Type} (action : Action α) (after : State → State) : Action α := fun s =>
  let (result, s) := action.run s
  (result, after s)

end Action
end GatedRelease.Shell
