import GatedRelease.Shell.Condition
import GatedRelease.Shell.Format
import GatedRelease.Shell.Lookup
import GatedRelease.Shell.Trap

/-! Commands that a shell carries out itself, and for which it needs nothing but its own state. Each
gets its arguments and gives a status, or leaves what is around it. -/
namespace GatedRelease.Shell.Builtin

/-- The number that an argument is. -/
def count (word : String) : Action Nat :=
  match Numeral.count? word with
  | some n => return n
  | none => Action.fail s!"Illegal number: {word}"

/-- Ends the shell. In a trap the status is, unless another is given, the one before. -/
def exit (args : List String) : Action Nat := do
  let s ← get
  let status ← match args with
    | [] => pure (s.saved.getD s.status)
    | a :: _ => count a
  set (s.withStatus status)
  throw .stop

/-- Ends a function or a file. -/
def back (args : List String) : Action Nat := do
  let s ← get
  let status ← match args with
    | [] => pure s.status
    | a :: _ => count a
  set (s.withStatus status)
  throw .back

/-- Leaves loops, or begins another round of one; without loops it does nothing. -/
def leave (flow : Nat → Flow) (args : List String) : Action Nat := do
  let n ← match args with
    | [] => pure 1
    | a :: _ => do
      let n ← count a
      if n = 0 then Action.fail s!"Illegal number: {a}"
      pure n
  let s ← get
  let n := min n s.loops
  if n = 0 then return 0
  else
    set (s.withStatus 0)
    throw (flow n)

/-- Takes arguments away from the front. -/
def shift (args : List String) : Action Nat := do
  let n ← match args with
    | [] => pure 1
    | a :: _ => count a
  let s ← get
  if s.arguments.length < n then Action.fail "can't shift that many"
  set { s with arguments := s.arguments.drop n, optionPlace := .start }
  return 0

/-- Writes its arguments. -/
def echo (args : List String) : Action Nat := do
  modify (·.print (Octets.toBytes (String.ofList (Format.echo args))))
  return 0

/-- Writes by a format. -/
def printf (args : List String) : Action Nat := do
  let t ← Options.ofCommand "" "" args
  match t.operands with
  | [] => Action.fail "usage: printf format [arg ...]"
  | format :: args =>
    let w := Format.write format args
    modify fun s => (w.complaints.foldl State.complain s).print
      (Octets.toBytes (String.ofList w.text))
    match w.failure with
    | some message => Action.fail message
    | none => return if w.complaints.isEmpty then 0 else 1

/-- Tells whether a condition holds; with `bracketed` set it stands in brackets. -/
def test (bracketed : Bool) (args : List String) : Action Nat := do
  if bracketed && args.getLast? != some "]" then Action.fail "missing ]"
  match Condition.holds (← get).files (if bracketed then args.dropLast else args) with
  | .ok holds => return if holds then 0 else 1
  | .error message => Action.fail message

/-- Shows or sets settings, and sets arguments. -/
def set (args : List String) : Action Nat :=
  if args.isEmpty then Variable.listAll else Options.set args

/-- Shows or sets bounds on what programs may use; none is ever reached. -/
def ulimit (args : List String) : Action Nat := do
  let t ← Options.ofCommand "HSatfdscmlpnvwr" "" args
  if t.operands.isEmpty then modify (·.say "unlimited")
  return 0

/-- Shows the time that has been used. -/
def times : Action Nat := do
  let line := "0m0.000000s 0m0.000000s"
  modify fun s => (s.say line).say line
  return 0

/-- The command that has a name. -/
def find? (name : String) : Option (List String → Action Nat) :=
  match name with
  | ":" | "true" => some fun _ => return 0
  | "false" => some fun _ => return 1
  | "[" => some (test true)
  | "test" => some (test false)
  | "alias" => some Lookup.aliasNames
  | "bg" | "fg" => some Job.resume
  | "break" => some (leave .leave)
  | "cd" | "chdir" => some Directory.cd
  | "continue" => some (leave .again)
  | "echo" => some echo
  | "exit" => some exit
  | "export" => some Variable.export
  | "getopts" => some Options.getopts
  | "hash" => some Lookup.hash
  | "jobs" => some Job.list
  | "kill" => some Trap.kill
  | "local" => some Variable.local
  | "printf" => some printf
  | "pwd" => some Directory.pwd
  | "read" => some Variable.read
  | "readonly" => some Variable.readonly
  | "return" => some back
  | "set" => some set
  | "shift" => some shift
  | "times" => some fun _ => times
  | "trap" => some Trap.trap
  | "type" => some Lookup.type
  | "ulimit" => some ulimit
  | "umask" => some Directory.umask
  | "unalias" => some Lookup.unaliasNames
  | "unset" => some Variable.unset
  | "wait" => some Job.wait
  | _ => none

end GatedRelease.Shell.Builtin
