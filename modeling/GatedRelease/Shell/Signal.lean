/-! Signals, by name and by number. -/
namespace GatedRelease.Shell.Signal

/-- The names of signals in the order of their numbers, from one on, each with what it does to a
program; nothing stands where it ends no program. -/
def table : List (String × Option String) := [
  ("HUP", some "Hangup"), ("INT", some "Interrupt"), ("QUIT", some "Quit"),
  ("ILL", some "Illegal instruction"), ("TRAP", some "Trace/breakpoint trap"),
  ("ABRT", some "Aborted"), ("BUS", some "Bus error"), ("FPE", some "Floating point exception"),
  ("KILL", some "Killed"), ("USR1", some "User defined signal 1"),
  ("SEGV", some "Segmentation fault"), ("USR2", some "User defined signal 2"),
  ("PIPE", some "Broken pipe"), ("ALRM", some "Alarm clock"), ("TERM", some "Terminated"),
  ("16", some "Stack fault"),
  ("CHLD", none), ("CONT", none), ("STOP", none), ("TSTP", none), ("TTIN", none), ("TTOU", none),
  ("URG", none), ("XCPU", some "CPU time limit exceeded"),
  ("XFSZ", some "File size limit exceeded"), ("VTALRM", some "Virtual timer expired"),
  ("PROF", some "Profiling timer expired"), ("WINCH", none), ("IO", some "I/O possible"),
  ("PWR", some "Power failure"), ("SYS", some "Bad system call")]

/-- The number above those of all signals. -/
def bound : Nat := 65

/-- The first of the signals that are numbered through, and the last; the second half of those
between them is counted from the last. -/
def firstNumbered : Nat := 34

/-- The last signal. -/
def last : Nat := bound - 1

/-- The name of a signal, where zero is the end of a shell. -/
def name (n : Nat) : String :=
  if n = 0 then "EXIT"
  else if n < firstNumbered then ((table[n - 1]?).map (·.1)).getD (toString n)
  else if n = firstNumbered then "RTMIN"
  else if n < 50 then s!"RTMIN+{n - firstNumbered}"
  else if n < last then s!"RTMAX-{last - n}"
  else "RTMAX"

/-- The signal that a word names, by its number or its name; the names are those from `least` on. -/
def number? (least : Nat) (word : String) : Option Nat :=
  if word != "" && word.toList.all Char.isDigit then
    let n := word.toList.foldl (fun n c => 10 * n + (c.toNat - 48)) 0
    if n < bound then some n else none
  else (List.range bound).find? fun n => least ≤ n && name n == word.toUpper

/-- What a signal does to a program, in words. -/
def description (n : Nat) : String :=
  if n < firstNumbered then
    match table[n - 1]? with
    | some (_, some text) => text
    | _ => ""
  else s!"Real-time signal {n - firstNumbered}"

/-- What is said of a program that a signal ended; of an interrupt and a broken pipe nothing is. -/
def farewell (n : Nat) : String := if n = 2 || n = 13 then "" else description n

/-- The signal ends a program that does not expect it. -/
def isFatal (n : Nat) : Bool :=
  match table[n - 1]? with
  | some (_, text) => n != 0 && text.isSome
  | none => n != 0

/-- The signal of a computation that no machine can do. -/
def arithmetic : Nat := 8

/-- No program can expect this signal. -/
def kill : Nat := 9

/-- The signal of those that only ask. -/
def terminate : Nat := 15

end GatedRelease.Shell.Signal
