import GatedRelease.Shell.Parser
import GatedRelease.Shell.Trap

/-! Shells while they run: the text of a program is read and carried out one line after the other,
signals are taken in between, parts of a program run by themselves, and at the end a shell does what
was asked for. How a command is carried out is a parameter here. -/
namespace GatedRelease.Shell

/-- How a command is carried out. -/
structure Manner where
  /-- A failure decides about something here, and so does not end the shell. -/
  tested : Bool
  /-- Nothing comes after the command. -/
  final : Bool

/-- Something that carries out commands. -/
abbrev Step := Manner → Command → Action Unit

namespace Process

/-- Carries out a text that starts on a line, and gives the status of its last command; `shown` says
that its lines are shown where that is asked for. The number bounds its lines. -/
def lines (step : Step) (tested shown : Bool) : Nat → Nat → List Char → Nat → Action Nat
  | 0, _, _, status => return status
  | fuel + 1, line, text, status => do
    let s ← get
    match Reading.next s.aliases line text with
    | .finished => return status
    | .broken line message =>
      modify fun s => { s with line := line }
      Action.fail message
    | .commands c line rest =>
      if shown && s.isOn .verbose then
        let read := text.take (text.length - rest.length)
        modify fun s => (s.write 2 (Octets.toBytes (String.ofList read))).1
      match c with
      | .nothing => lines step tested shown fuel line rest status
      | c =>
        step ⟨tested, false⟩ c
        lines step tested shown fuel line rest (← get).status

/-- Carries out a text, and gives the status of its last command. -/
def text (step : Step) (tested shown : Bool) (program : String) : Action Nat :=
  lines step tested shown (program.length + 2) 1 program.toList 0

/-- Does what was asked for on a signal. It does not matter for the status. -/
def react (step : Step) (action : String) : Action Unit := do
  let before ← get
  let status := before.saved.getD before.status
  modify fun s => { s with saved := some status }
  let _ ← text step false false action
  modify fun s => { s with status := status, saved := before.saved }

/-- Takes signals that were sent to the shell, one after the other. -/
def takeAll (step : Step) : List Nat → Action Unit
  | [] => return
  | n :: rest => do
    match (← get).traps.lookup n with
    | none => Trap.strike n
    | some action => if n = Signal.kill then Trap.strike n else react step action
    takeAll step rest

/-- Takes the signals that were sent to the shell; a part of a shell gets none. -/
def takeSignals (step : Step) : Action Unit := do
  let s ← get
  if !s.isPart then
    let own := (List.range Signal.bound).filter fun n => s.sent.contains (s.number, n)
    if !own.isEmpty then
      modify fun s => { s with sent := s.sent.filter fun x => x.1 != s.number }
      takeAll step own

/-- Does what was asked for at the end of a shell; gives how the shell ends. -/
def conclude (step : Step) (result : Except Flow Unit) (s : State) : Outcome × State :=
  let exited (s : State) : Outcome × State := (.exited (s.status % 256), s)
  match result with
  | .error (.replaced o) => (o, s)
  | .error (.killed n) => (.killed n, s)
  | _ =>
    match s.traps.lookup 0 with
    | none => exited s
    | some action =>
      let start := { s with
        traps := s.traps.filter fun t => t.1 != 0
        saved := some s.status
        loops := 0 }
      match (text step false false action).run start with
      | (.error (.replaced o), s) => (o, s)
      | (.error (.killed n), s) => (.killed n, s)
      | (.error .stop, s) | (.error .failed, s) => exited s
      | (_, after) => exited (after.withStatus s.status)

/-- The state of a part of a shell, which runs by itself. -/
def part (s : State) : State :=
  { Trap.reset s with isPart := true, loops := 0, saved := none, jobs := [] }

/-- Runs something by itself, with a state that is another one in some way. -/
def apart (step : Step) (change : State → State) (action : Action Unit) (s : State) :
    Outcome × State :=
  let (result, inner) := action.run (change (part s))
  let (outcome, inner) := conclude step result inner
  (outcome, s.after inner)

/-- The state after a program has ended that was waited for. -/
def reap (o : Outcome) (s : State) : State :=
  let s := match o with
    | .exited _ => s
    | .killed n =>
      let farewell := Signal.farewell n
      if farewell == "" then s else s.warn farewell
  s.withStatus o.status

/-- Runs a command by itself, and gets its output. -/
def substitute (step : Step) : Expansion.Substitute := fun c s =>
  let (piped, reading, writing) := s.forking.pipe
  let (outcome, after) := apart step (·.aim 1 writing) (step ⟨false, true⟩ c) piped
  let bytes := match after.stream? reading with
    | some x => (x.available after.files).toOption.getD []
    | none => []
  let after := { after with streams := after.streams.extract 0 s.streams.size }
  (bytes, { (reap outcome after).withStatus s.status with substituted := outcome.status })

end Process
end GatedRelease.Shell
