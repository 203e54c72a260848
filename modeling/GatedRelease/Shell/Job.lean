import GatedRelease.Shell.Options
import GatedRelease.Shell.Signal

/-! Commands that a shell did not wait for when it began them. It keeps in mind how they ended until
somebody asks. -/
namespace GatedRelease.Shell.Job

/-- The job that a word names. -/
def named (word : String) : Action Job := do
  let jobs := (← get).jobs
  let orFail (job : Option Job) (message : String) : Action Job :=
    match job with
    | some j => return j
    | none => Action.fail message
  let noSuch := s!"No such job: {word}"
  match word.toList with
  | ['%'] | ['%', '+'] | ['%', '%'] => orFail jobs.head? "No current job"
  | ['%', '-'] => orFail jobs[1]? "No previous job"
  | '%' :: place =>
    orFail ((Numeral.count? (String.ofList place)).bind fun n => jobs.find? (·.place = n)) noSuch
  | _ => Action.fail noSuch

/-- How a job ended, in words. -/
def ending : Outcome → String
  | .exited 0 => "Done"
  | .exited n => s!"Done({n})"
  | .killed n => Signal.description n

/-- The column behind how a job ended. -/
def column : Nat := 33

/-- The line that tells about a job, with its number if asked to; the first two of all jobs have a
mark. -/
def line (jobs : List Job) (withNumber : Bool) (j : Job) : String :=
  let mark := if jobs.head?.map (·.place) = some j.place then "+"
    else if jobs[1]?.map (·.place) = some j.place then "-" else " "
  let number := if withNumber then s!"{j.number} " else ""
  let front := s!"[{j.place}] {mark} {number}{ending j.outcome}"
  front ++ "".pushn ' ' (max 1 (column - front.length)) ++
    String.join (List.replicate j.others " | ")

/-- Tells about a job, which is then forgotten, or tells its number only. -/
def show' (onlyNumber withNumber : Bool) (j : Job) : Action Unit := modify fun s =>
  if onlyNumber then s.say (toString j.number)
  else { s.say (line s.jobs withNumber j) with jobs := s.jobs.filter (·.place != j.place) }

/-- Tells about jobs. -/
def list (args : List String) : Action Nat := do
  let t ← Options.ofCommand "lp" "" args
  let mode := t.options.getLast?.map (·.1)
  let tell := show' (mode == some 'p') (mode == some 'l')
  if t.operands.isEmpty then
    for j in (← get).jobs do tell j
  else
    for w in t.operands do tell (← named w)
  return 0

/-- Refuses to go on with a job, which has ended by itself. -/
def resume (args : List String) : Action Nat := do
  let t ← Options.ofCommand "" "" args
  let _ ← named (t.operands.headD "%")
  let word := t.operands.headD "(null)"
  Action.fail s!"job {word} not created under job control"

/-- The status of a job that somebody waits for. -/
def await (j : Job) : Action Nat := do
  let s ← get
  let farewell := match j.outcome with
    | .killed signal => Signal.farewell signal
    | .exited _ => ""
  let s := if farewell == "" || j.waited then s else s.warn farewell
  let waited (k : Job) : Job := if k.place = j.place then { k with waited := true } else k
  set { s with jobs := s.jobs.map waited }
  return j.outcome.status

/-- The status of the last of the jobs that can be waited for. -/
def awaitAll (status : Nat) : List String → Action Nat
  | [] => return status
  | w :: rest => do
    if w.toList.head? == some '%' then awaitAll (← await (← named w)) rest
    else match Numeral.count? w with
      | none => Action.fail s!"Illegal number: {w}"
      | some n =>
        match (← get).jobs.find? (·.number = n) with
        | none => awaitAll status rest
        | some j => awaitAll (← await j) rest

/-- Waits for jobs. -/
def wait (args : List String) : Action Nat := do
  let t ← Options.ofCommand "" "" args
  if t.operands.isEmpty then
    modify fun s => { s with jobs := s.jobs.map fun j => { j with waited := true } }
    return 0
  else awaitAll 127 t.operands

end GatedRelease.Shell.Job
