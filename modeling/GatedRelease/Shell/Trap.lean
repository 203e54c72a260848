import GatedRelease.Shell.Job
import GatedRelease.Shell.Variable

/-! Signals between shells: what to do when one comes in, and sending them. A signal to the shell
itself is taken at once, unless there is something to do on it; then it waits until the present
command is done. -/
namespace GatedRelease.Shell.Trap

/-- Aims an action at signals, up to a word that names none. -/
def aim (action : Option String) : List String → Action Nat
  | [] => return 0
  | word :: rest => do
    match Signal.number? 0 word with
    | none =>
      modify (·.warn s!"trap: {word}: bad trap")
      return 1
    | some n =>
      modify fun s =>
        let others := s.traps.filter fun t => t.1 != n
        { s with traps := match action with
          | some a => (n, a) :: others
          | none => others }
      aim action rest

/-- The line that sets a trap. -/
def line (t : Nat × String) : String :=
  s!"trap -- {Variable.quote t.2} {Signal.name t.1}"

/-- Says what to do on signals; a dash, or a number in place of an action, takes that back. Without
words, tells what is done on which signal. -/
def trap (args : List String) : Action Nat := do
  let t ← Options.ofCommand "" "" args
  match t.operands with
  | [] =>
    modify fun s =>
      (s.traps.mergeSort fun a b => a.1 ≤ b.1).foldl (fun s t => s.say (line t)) s
    return 0
  | [signal] => aim none [signal]
  | first :: signals =>
    if first != "" && first.toList.all Char.isDigit && (Signal.number? 0 first).isSome then
      aim none (first :: signals)
    else aim (if first == "-" then none else some first) signals

/-- What has to be done on signals is taken back, but they stay ignored where they were. -/
def reset (s : State) : State := { s with traps := s.traps.filter fun t => t.2 == "" }

/-- There is something to do on a signal or at the end. -/
def isSet (s : State) : Bool := s.traps.any fun t => t.2 != ""

/-- The signals that other programs will ignore. -/
def ignored (s : State) : List Nat :=
  s.deaf ++ (s.traps.filter fun t => t.2 == "" && t.1 != 0).map (·.1)

/-- Lets a signal come in that nobody is to be asked about. -/
def strike (n : Nat) : Action Unit := do
  let s ← get
  if n = Signal.kill || (Signal.isFatal n && !(ignored s).contains n) then throw (.killed n)

/-- Sends a signal to a number; tells whether there is anybody who gets it. -/
def send (n target : Nat) : Action Bool := do
  let s ← get
  if target = s.number && !s.isPart then
    let trapped := match s.traps.lookup n with
      | some action => action != ""
      | none => false
    if trapped && n != Signal.kill && !s.deaf.contains n then
      modify fun s => { s with sent := (s.number, n) :: s.sent }
    else if n != 0 then strike n
    return true
  else if target ≤ s.number && s.firstNumber ≤ target then
    if n != 0 then modify fun s => { s with sent := (target, n) :: s.sent }
    return true
  else return target = 1 || s.jobs.any fun j => j.number = target

/-- Sends a signal to what a word names; tells whether there is anybody who gets it. A job is no
group of its own. -/
def sendTo (n : Nat) (w : String) : Action Bool := do
  let number (digits : String) : Action Nat :=
    match Numeral.count? digits with
    | some target => return target
    | none => Action.fail s!"Illegal number: {digits}"
  match w.toList with
  | '%' :: _ =>
    let _ ← Job.named w
    return false
  | '-' :: cs =>
    let _ ← number (String.ofList cs)
    send n 0
  | _ => send n (← number w)

/-- Sends a signal to processes, one after the other. -/
def sendAll (n : Nat) : List String → Action Nat
  | [] => return 0
  | w :: rest => do
    let arrived ← sendTo n w
    if !arrived then modify (·.complain "No such process\n")
    let status ← sendAll n rest
    return if arrived then status else 1

/-- How signals are sent. -/
def usage : String :=
  "Usage: kill [-s sigspec | -signum | -sigspec] [pid | job]... or\nkill -l [exitstatus]"

/-- Tells the names of signals. -/
def names (words : List String) : Action Nat := do
  match words with
  | [] =>
    modify fun s => ("0" :: (List.range' 1 Signal.last).map Signal.name).foldl State.say s
    return 0
  | w :: _ =>
    match Numeral.count? w with
    | none => Action.fail s!"Illegal number: {w}"
    | some n =>
      let n := if 128 < n then n - 128 else n
      if 0 < n && n < Signal.bound then
        modify (·.say (Signal.name n))
        return 0
      else Action.fail s!"invalid signal number or exit status: {w}"

/-- Sends signals, or tells their names. -/
def kill (args : List String) : Action Nat := do
  let direct : Option Nat := match args with
    | a :: _ =>
      match a.toList with
      | '-' :: cs => Signal.number? 1 (String.ofList cs)
      | _ => none
    | [] => none
  match direct with
  | some n => if args.length ≤ 1 then Action.fail usage else sendAll n (args.drop 1)
  | none =>
    if args.isEmpty then Action.fail usage
    let t ← Options.ofCommand "l" "s" args
    if t.has 'l' then names t.operands
    else
      let n ← match t.options.getLast? with
        | none => pure Signal.terminate
        | some (_, word) =>
          match Signal.number? 1 word with
          | some n => pure n
          | none => Action.fail s!"invalid signal number or name: {word}"
      if t.operands.isEmpty then Action.fail usage else sendAll n t.operands

end GatedRelease.Shell.Trap
