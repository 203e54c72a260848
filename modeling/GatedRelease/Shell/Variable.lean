import GatedRelease.Shell.Expansion
import GatedRelease.Shell.Options

/-! Commands on variables: handing them to other programs, making constants of them, taking them
away, keeping them to a function, listing them, and reading them from input. -/
namespace GatedRelease.Shell.Variable

/-- A text in quotation marks, from which it can be read again; a single mark in it stands in double
ones. The number bounds the runs of marks. -/
def quoteRuns : Nat → List Char → List Char
  | 0, _ => []
  | fuel + 1, cs =>
    let plain := cs.takeWhile (· != '\'')
    let rest := cs.drop plain.length
    let marks := rest.takeWhile (· == '\'')
    let after := rest.drop marks.length
    let quoted := '\'' :: plain ++ ['\'']
    if marks.isEmpty then quoted
    else
      let both := quoted ++ '"' :: marks ++ ['"']
      if after.isEmpty then both else both ++ quoteRuns fuel after

/-- A text in quotation marks. -/
def quote (s : String) : String := String.ofList (quoteRuns (s.length + 1) s.toList)

/-- The parts of a word around its first equals sign. -/
def split (w : String) : String × Option String :=
  let name := w.toList.takeWhile (· != '=')
  match w.toList.drop name.length with
  | _ :: value => (String.ofList name, some (String.ofList value))
  | [] => (String.ofList name, none)

/-- Refuses what cannot be the name of a variable. -/
def check (name : String) : Action Unit := do
  if !Parser.isName name then Action.fail s!"{name}: bad variable name"

/-- Names in order, each once. -/
def sorted (names : List String) : List String :=
  (names.foldl (fun seen n => if seen.contains n then seen else n :: seen) []).mergeSort
    fun a b => !(b < a)

/-- The line for a variable, behind a word. -/
def line (s : State) (word name : String) : String :=
  let front := if word == "" then name else s!"{word} {name}"
  match s.value? name with
  | some value => front ++ "=" ++ quote value
  | none => front

/-- Shows variables, each behind a word. -/
def list (word : String) (names : List String) : Action Nat := do
  modify fun s => (sorted names).foldl (fun s n => s.say (line s word n)) s
  return 0

/-- Shows all variables that have a value. -/
def listAll : Action Nat := do list "" ((← get).vars.map (·.1))

/-- Gives names the values that they come with, and marks each. -/
def declare (mark : String → State → State) : List String → Action Unit
  | [] => return
  | w :: rest => do
    let (name, value) := split w
    check name
    match value with
    | some v => Action.assign name v
    | none => pure ()
    modify (mark name)
    declare mark rest

/-- Marks variables, or shows those that are marked. -/
def marking (word : String) (marked : State → List String) (mark : String → State → State)
    (args : List String) : Action Nat := do
  let t ← Options.ofCommand "p" "" args
  if t.has 'p' || t.operands.isEmpty then list word (marked (← get))
  else
    declare mark t.operands
    return 0

/-- Hands variables to other programs. -/
def «export» (args : List String) : Action Nat :=
  marking "export" State.exported (fun n s => s.exporting n) args

/-- Makes variables constants. -/
def readonly (args : List String) : Action Nat :=
  marking "readonly" State.constants
    (fun n s => { s with constants := State.mark true n s.constants }) args

/-- Takes away variables, one after the other. -/
def unsetAll : List String → Action Unit
  | [] => return
  | n :: rest => do
    check n
    Action.unset n
    unsetAll rest

/-- Takes away variables or functions. -/
def unset (args : List String) : Action Nat := do
  let t ← Options.ofCommand "vf" "" args
  if t.options.getLast?.map (·.1) == some 'f' then
    modify fun s =>
      { s with functions := s.functions.filter fun f => !t.operands.contains f.1 }
  else unsetAll t.operands
  return 0

/-- Keeps something to the running function, as long as that runs. -/
def keep (x : Shadow) : Action Unit := modify fun s =>
  { s with shadowed := s.shadowed.map (x :: ·) }

/-- Keeps variables to the running function, and gives them values. -/
def keepAll : List String → Action Unit
  | [] => return
  | w :: rest => do
    let s ← get
    if w == "-" then keep (.settings s.settings)
    else
      let (name, value) := split w
      check name
      keep (s.shadowOf name)
      match value with
      | some v => Action.assign name v
      | none => pure ()
    keepAll rest

/-- Gives a function variables of its own. -/
def «local» (args : List String) : Action Nat := do
  if (← get).shadowed.isNone then Action.fail "not in a function"
  keepAll args
  return 0

/-! ## Reading variables from input -/

/-- A line of bytes, how many they are, and whether the line has an end. Unless `raw` is set, a
backslash makes the next octet ordinary and takes away the end of a line. -/
def inputLine (raw : Bool) : Bytes → List Glyph × Nat × Bool
  | [] => ([], 0, false)
  | b :: rest =>
    let glyph (quoted : Bool) (b : UInt8) : Glyph := ⟨Char.ofNat b.toNat, quoted, true⟩
    if b == 10 then ([], 1, true)
    else if b == 92 && !raw then
      match rest with
      | [] => ([], 1, false)
      | e :: rest =>
        let (line, n, ended) := inputLine raw rest
        (if e == 10 || e == 0 then line else glyph true e :: line, n + 2, ended)
    else
      let (line, n, ended) := inputLine raw rest
      (if b == 0 then line else glyph false b :: line, n + 1, ended)

/-- Where the splitting of a line into fields is. -/
structure Splitting where
  /-- The fields, the last one first. -/
  fields : List (List Char)
  /-- The octets of the present field, the last one first. -/
  field : List Char
  /-- How long the field was where separators began that may fall away. -/
  kept : Option Nat
  /-- Blanks have ended a field, and a separator may follow. -/
  soft : Bool
  /-- How many fields are left; the last one takes all separators that are not at its end. -/
  left : Nat

/-- Goes on with an octet of the line. -/
def Splitting.next (separators : List Char) (p : Splitting) (g : Glyph) : Splitting :=
  let more : Splitting := { p with field := g.char :: p.field }
  if g.quoted then { more with soft := false }
  else
    let separates := separators.contains g.char
    let blank := separates && Expansion.isBlank g.char
    if p.left = 0 then
      if blank then { more with kept := p.kept.or (some p.field.length) }
      else { more with kept := if separates && p.soft then p.kept else none, soft := false }
    else if p.soft && separates then { p with soft := blank }
    else if !separates then { more with soft := false }
    else if blank && p.field.isEmpty then p
    else if p.left = 1 then
      { more with kept := some p.field.length, soft := blank, left := 0 }
    else
      { fields := p.field.reverse :: p.fields, field := [], kept := none, soft := blank,
        left := p.left - 1 }

/-- The fields of a line, so many at most. -/
def fields (separators : List Char) (count : Nat) (line : List Glyph) : List String :=
  let p := line.foldl (Splitting.next separators) ⟨[], [], none, false, count⟩
  let last := match p.kept with
    | some n => p.field.reverse.take n
    | none => p.field.reverse
  ((if last.isEmpty then p.fields else last :: p.fields).reverse).map String.ofList

/-- Gives fields to names; a name that is left gets nothing. -/
def share : List String → List String → Action Unit
  | [], _ => return
  | n :: names, fields => do
    check n
    Action.assign n (fields.headD "")
    share names (fields.drop 1)

/-- Reads a line of input into variables. -/
def read (args : List String) : Action Nat := do
  let t ← Options.ofCommand "r" "p" args
  if t.operands.isEmpty then Action.fail "arg count"
  let s ← get
  let (line, count, ended) := inputLine (t.has 'r') ((s.available 0).toOption.getD [])
  set (s.skip 0 count)
  share t.operands (fields (Expansion.separators s) t.operands.length line)
  return if ended then 0 else 1

end GatedRelease.Shell.Variable
