import GatedRelease.Shell.Execution

/-! Carrying out commands. A command that stands too deep in others kills the shell, as a shell dies
that has no room left for one more: `fuel` bounds how deep. -/
namespace GatedRelease.Shell.Evaluation

/-! ## Words of a simple command -/

/-- Expands words until there is a text; gives also the words that are left. -/
def firstTexts (run : Expansion.Substitute) : List Word → Action (List String × List Word)
  | [] => return ([], [])
  | w :: rest => do
    let texts ← Expansion.toTexts run w
    if texts.isEmpty then firstTexts run rest else return (texts, rest)

/-- The texts of a command so far, and the words that are left. -/
structure Texts where
  texts : List String
  words : List Word

/-- Has a text at a place, if there are enough words. -/
def Texts.upTo (run : Expansion.Substitute) (t : Texts) (i : Nat) : Action Texts := do
  if i < t.texts.length then return t
  else
    let (more, words) ← firstTexts run t.words
    return ⟨t.texts ++ more, words⟩

/-- What stands in front of the name of a command. -/
structure Front where
  all : Texts
  /-- Where the name is. -/
  place : Nat
  /-- Functions are passed over. -/
  direct : Bool
  /-- Programs are looked for in the usual directories. -/
  usual : Bool

/-- Passes over what is in front of the name of a command, from `command` at a place on. Without a
name behind it, or with options that ask for something else, `command` itself is the name. The
number bounds the texts. -/
def behind (run : Expansion.Substitute) (start : Nat) :
    Nat → Nat → Bool → Texts → Action (Front × Bool)
  | 0, _, _, all => return (⟨all, start, false, false⟩, false)
  | fuel + 1, i, usual, all => do
    let all ← all.upTo run i
    let stay : Front × Bool := (⟨all, start, false, false⟩, false)
    match all.texts[i]? with
    | none => return stay
    | some text =>
      match text.toList with
      | ['-', '-'] =>
        let all ← all.upTo run (i + 1)
        if i + 1 < all.texts.length then return (⟨all, i + 1, true, usual⟩, true)
        else return (⟨all, start, false, false⟩, false)
      | '-' :: c :: cs =>
        if (c :: cs).all (· == 'p') then behind run start fuel (i + 1) true all
        else return stay
      | _ => return (⟨all, i, true, usual⟩, true)

/-- Finds the name of a command; the number bounds how often `command` stands in front of it. -/
def frontOf (run : Expansion.Substitute) : Nat → Front → Action Front
  | 0, f => return f
  | fuel + 1, f => do
    let s ← get
    match f.all.texts[f.place]? with
    | none => return f
    | some name =>
      match Lookup.meaning s (!f.direct) name with
      | .own =>
        if name == "command" then
          let (g, further) ← behind run f.place (f.all.words.length + f.all.texts.length + 2)
            (f.place + 1) f.usual f.all
          if further then frontOf run fuel g
          else return { f with all := g.all }
        else return f
      | _ => return f

/-- Expands the words behind the name of a command. -/
def restTexts (run : Expansion.Substitute) (declares : Bool) : List Word → Action (List String)
  | [] => return []
  | w :: rest => do
    let texts ← if declares && (Parser.Grammar.assignment? w).isSome then
        pure [← Expansion.toText run .declaration w]
      else Expansion.toTexts run w
    return texts ++ (← restTexts run declares rest)

/-! ## Assignments -/

/-- Assigns the values of words to names for good; they may be handed to other programs. -/
def assignAll (run : Expansion.Substitute) (exporting : Bool) :
    List (String × Word) → Action (List (String × String))
  | [] => return []
  | (n, w) :: rest => do
    let value ← Expansion.toText run .value w
    Action.assign n value
    if exporting then modify (·.exporting n)
    return (n, value) :: (← assignAll run exporting rest)

/-- The state with the values that variables had in another one. -/
def restore (before : State) (names : List String) (s : State) : State :=
  names.foldl (fun s n =>
    let s := s.unshadow (before.shadowOf n)
    if n == "OPTIND" then { s with optionPlace := before.optionPlace } else s) s

/-- Shows a command before it is carried out, on the standard error of the shell itself. -/
def trace (run : Expansion.Substitute) (before : State) (assigned : List (String × String))
    (texts : List String) : Action Unit := do
  let s ← get
  if s.isOn .xtrace then
    let front := (s.value? "PS4").getD ""
    let shown ← match Parser.quotedWord? front.toList with
      | none => pure front
      | some w =>
        modify fun s => { s with settings := Setting.turn false .xtrace s.settings }
        let text ← (Expansion.toText run .nowhere w).attempt
        modify fun s => { s with settings := Setting.turn true .xtrace s.settings }
        pure (text.toOption.getD front)
    let words := assigned.map (fun a => a.1 ++ "=" ++ a.2) ++ texts
    let line := Octets.toBytes (shown ++ String.intercalate " " words ++ "\n")
    match before.descriptors.lookup 2 with
    | some h => modify fun s => (s.writeBy h line).1
    | none => pure ()

/-! ## Commands by name -/

/-- Carries out a command of the shell's own; what it writes comes out at its end. -/
def own (name : String) (body : Action Nat) : Action Unit := do
  let outer := (← get).within
  modify fun s => { s with within := some name }
  match ← body.attempt with
  | .ok status =>
    let (s, written) := (← get).flush
    let s := if written then s else s.complain s!"{name}: I/O error"
    let status := if written then status else status ||| 1
    set { s.withStatus status with within := outer }
  | .error flow =>
    modify fun s => { s with within := outer, output := [] }
    throw flow

/-- How many functions may run in each other. -/
def callLimit : Nat := 1000

/-- Carries out the body of a function with arguments. What the function took for itself comes back,
unless the shell ends in it. -/
def call (step : Step) (tested : Bool) (body : Command) (args : List String) : Action Unit := do
  let before ← get
  if before.calls = callLimit then
    Action.fail s!"Maximum function recursion depth ({callLimit}) reached"
  modify fun s => { s with
    arguments := args
    optionPlace := .start
    shadowed := some []
    loops := 0
    calls := s.calls + 1 }
  let result ← (step ⟨tested, false⟩ body).attempt
  modify fun s => { s with
    arguments := before.arguments
    optionPlace := before.optionPlace
    loops := before.loops
    calls := before.calls }
  let home : Action Unit := modify fun s =>
    { (s.shadowed.getD []).foldl State.unshadow s with shadowed := before.shadowed }
  match result with
  | .ok () | .error .back => home
  | .error flow => throw flow

/-- The file that a name in `.` stands for. -/
def sourceOf (name : String) : Action String := do
  if name.toList.contains '/' then return name
  else
    let s ← get
    let regular (p : String) : Bool :=
      match (s.files.canonical (Octets.decode p)).toOption with
      | none => false
      | some l => match System.device? l, s.files.tree.find? l with
        | none, some (.file ..) => true
        | _, _ => false
    let directories := (s.value? "PATH").getD ""
    match (Directory.candidates directories name).find? regular with
    | some p => return p
    | none => Action.fail s!"{name}: not found"

/-- Reads a file as a part of the program. -/
def source (step : Step) (args : List String) : Action Nat := do
  let t ← Options.ofCommand "" "" args
  match t.operands with
  | [] => return 0
  | name :: _ =>
    let path ← sourceOf name
    let (opened, s) := Redirection.openFor (← get) false path .reading
    set s
    match opened with
    | .error message => Action.fail message
    | .ok h =>
      let bytes := (s.stream? h).map fun x => (x.available s.files).toOption.getD []
      modify fun s => { s with within := some path }
      match ← (Process.text step false true
          (Execution.programOf (bytes.getD []))).attempt with
      | .ok status => return status
      | .error .back => return (← get).status
      | .error flow => throw flow

/-- Carries out arguments as a program. -/
def eval (step : Step) (tested : Bool) (args : List String) : Action Nat :=
  Process.text step tested false (String.intercalate " " args)

/-- The shell becomes another program, if one is given. -/
def exec (step : Step) (args : List String) : Action Nat := do
  match args with
  | [] => return 0
  | name :: args =>
    let directories := (← get).value? "PATH"
    let paths := if name.toList.contains '/' then [name]
      else (directories.map fun d => Directory.candidates d name).getD []
    Execution.become step paths name args
    return 0

/-- Tells what a name stands for. -/
def tell (args : List String) : Action Nat := do
  let t ← Options.ofCommand "pvV" "" args
  if t.has 'v' || t.has 'V' then Lookup.find (t.has 'V') (t.has 'p') t.operands else return 0

/-- The command of the shell's own that has a name. -/
def bodyOf (step : Step) (tested : Bool) (name : String) (args : List String) : Action Nat :=
  match name with
  | "eval" => eval step tested args
  | "." => source step args
  | "exec" => exec step args
  | "command" => tell args
  | _ =>
    match Builtin.find? name with
    | some f => f args
    | none => return 127

/-- Runs a program, or says why there is none. -/
def program (step : Step) (m : Manner) (usual : Bool) (name : String) (args : List String) :
    Action Unit := do
  let s ← get
  let found : Except Cause (List String) :=
    if name.toList.contains '/' then .ok [name]
    else if usual then
      Lookup.firstOf s .notFound (Directory.candidates Lookup.usualDirectories name)
    else Lookup.paths s name
  if !usual && !name.toList.contains '/' then modify (Lookup.remember name)
  match found with
  | .error c =>
    let why := if Lookup.isMissing c then "not found" else c.words
    modify fun s => (s.complain s!"{name}: {why}").withStatus 127
  | .ok paths =>
    if m.final && !Trap.isSet s then Execution.become step paths name args
    else Execution.launchBeside step paths name args

/-! ## Simple commands -/

/-- Carries out a simple command. -/
def simple (step : Step) (m : Manner) (line : Nat) (assignments : List (String × Word))
    (words : List Word) (redirects : List (Redirect Word)) : Action Unit := do
  modify fun s => { s with line := line, substituted := 0 }
  let run := Process.substitute step
  let (texts, words) ← firstTexts run words
  let f ← frontOf run (texts.length + words.length + 2) ⟨⟨texts, words⟩, 0, false, false⟩
  let name := f.all.texts[f.place]?
  let s ← get
  let meaning := name.map (Lookup.meaning s (!f.direct))
  let isOwn := match meaning with
    | some .own => true
    | _ => false
  let declares := isOwn && Lookup.declaring.contains (name.getD "")
  let more ← restTexts run declares f.all.words
  let all := f.all.texts ++ more
  let args := all.drop (f.place + 1)
  let special := isOwn && f.place = 0 && Lookup.special.contains (name.getD "")
  let replaces := isOwn && name == some "exec"
  let aims ← Redirection.aims run redirects
  let before ← get
  let refused : Action Unit := if special then throw .failed else pure ()
  let lasting := special || name.isNone
  let body : Action Unit := do
    let assigned ← assignAll run (!lasting || (replaces && !args.isEmpty)) assignments
    trace run before assigned all
    match name, meaning with
    | some n, some (.function body) =>
      let _ := n
      call step m.tested body args
    | some n, some .own =>
      match ← (own n (bodyOf step m.tested n args)).attempt with
      | .ok () => pure ()
      | .error .failed => if special then throw .failed
      | .error flow => throw flow
    | some n, _ => program step m f.usual n args
    | none, _ => modify fun s => s.withStatus s.substituted
  if replaces then
    match ← (Redirection.establishAll run true aims).attempt with
    | .ok () => body
    | .error .failed => refused
    | .error flow => throw flow
  else Redirection.around run aims refused body
  if !lasting then modify (restore before (assignments.map (·.1)))

/-! ## Compound commands -/

/-- Ends the shell after a failure, if failures end it here. -/
def strictly (tested : Bool) : Action Unit := do
  let s ← get
  if s.isOn .errexit && !tested && s.status != 0 then throw .stop

/-- Makes a pipe between two commands after the other and carries them out, each by itself; `input`
is what the first reads from, if that is a pipe, too. -/
def pipe (step : Step) (tested : Bool) : Option Handle → List Command → Action Unit
  | _, [] => return
  | input, c :: rest => do
    let s ← get
    let (s, next) := if rest.isEmpty then (s, none)
      else
        let (s, reading, writing) := s.pipe
        (s, some (reading, writing))
    let change (s : State) : State :=
      let s := match input with
        | some h => s.aim 0 h
        | none => s
      match next with
      | some (_, writing) => s.aim 1 writing
      | none => s
    let (o, s) := Process.apart step change (step ⟨tested, true⟩ c) s
    set (Process.reap o s)
    pipe step tested (next.map (·.1)) rest

/-- Carries out something by itself, or in place of the shell if nothing comes after it. -/
def subshell (step : Step) (m : Manner) (action : Action Unit) : Action Unit := do
  if m.final && !Trap.isSet (← get) then
    action
    throw .stop
  else
    let (o, s) := Process.apart step id action (← get).forking
    set (Process.reap o s)

/-- Looks for the program of a command, before it runs by itself. -/
def anticipate (c : Command) : Action Unit := do
  match c with
  | .simple _ _ (w :: _) _ =>
    let name := (Word.plain? w).getD ""
    let s ← get
    match Lookup.meaning s true name with
    | .program => if Parser.isName name then set (Lookup.remember name s)
    | _ => pure ()
  | _ => pure ()

/-- Carries out a command by itself and does not wait for it. -/
def beside (step : Step) (c : Command) : Action Unit := do
  let s := (← get).forking
  let number := s.nextNumber
  let s := { s with nextNumber := number + 1 }
  let (s, nothing) := (s.hold (.device .null) .reading).swap
  let change (s : State) : State := { s.aim 0 nothing with deaf := [2, 3] ++ s.deaf }
  let (o, s) := Process.apart step change (step ⟨false, true⟩ c) s
  let others := match c with
    | .pipe commands => commands.length - 1
    | _ => 0
  set { s.withStatus 0 with
    beside := some number
    jobs := ⟨s.freePlace, number, others, o, false⟩ :: s.jobs }

/-- What a loop does after a part of a round: it goes on, or it is done. -/
def afterRound (result : Except Flow Unit) : Action Bool :=
  match result with
  | .ok () => return true
  | .error (.leave n) => if n ≤ 1 then return false else throw (.leave (n - 1))
  | .error (.again n) => if n ≤ 1 then return true else throw (.again (n - 1))
  | .error flow => throw flow

/-- Carries out the rounds of a loop with a test; `status` is that of the last round. The number
bounds the rounds. -/
def rounds (until' : Bool) (test body : Action Unit) : Nat → Nat → Action Unit
  | 0, _ => throw (.killed Signal.kill)
  | fuel + 1, status => do
    match ← test.attempt with
    | .ok () =>
      if ((← get).status == 0) == until' then modify (·.withStatus status)
      else
        if ← afterRound (← body.attempt) then rounds until' test body fuel (← get).status
    | .error (.leave n) =>
      modify (·.withStatus status)
      let _ ← afterRound (.error (.leave n))
    | result =>
      let _ ← afterRound result
      rounds until' test body fuel status

/-- Carries out the rounds of a loop over texts. -/
def roundsOver (name : String) (body : Action Unit) : List String → Action Unit
  | [] => return
  | w :: rest => do
    Action.assign name w
    if ← afterRound (← body.attempt) then roundsOver name body rest

/-- Carries out a loop. -/
def looping (loop : Action Unit) : Action Unit := do
  modify fun s => { s with loops := s.loops + 1 }
  Action.finally' loop fun s => { s with loops := s.loops - 1 }

/-- A text fits one of some patterns. -/
def fitsOne (run : Expansion.Substitute) (text : String) : List Word → Action Bool
  | [] => return false
  | w :: rest => do
    let pattern ← Expansion.toPattern run w
    if Pattern.fits pattern text.toList then return true else fitsOne run text rest

/-- The first command with a pattern that a text fits. -/
def choose (run : Expansion.Substitute) (text : String) :
    List (List Word × Command) → Action (Option Command)
  | [] => return none
  | (ws, c) :: rest => do
    if ← fitsOne run text ws then return some c else choose run text rest

/-- How many rounds a loop may have. -/
def roundLimit : Nat := 100000

/-- Carries out a command with steps for those in it. -/
def compound (step : Step) (m : Manner) (c : Command) : Action Unit := do
  let run := Process.substitute step
  let go (c : Command) : Action Unit := step ⟨m.tested, false⟩ c
  let last (c : Command) : Action Unit := step m c
  let test (c : Command) : Action Unit := step ⟨true, false⟩ c
  match c with
  | .nothing => modify (·.withStatus 0)
  | .simple line assignments words redirects =>
    simple step m line assignments words redirects
    strictly m.tested
  | .sequence first second =>
    go first
    last second
  | .andThen first second =>
    test first
    if (← get).status = 0 then last second
  | .orElse first second =>
    test first
    if (← get).status != 0 then last second
  | .negation c =>
    test c
    modify fun s => s.withStatus (if s.status = 0 then 1 else 0)
  | .pipe commands =>
    modify State.forking
    for c in commands do anticipate c
    let before := (← get).streams.size
    pipe step m.tested none commands
    modify fun s => { s with streams := s.streams.extract 0 before }
    strictly m.tested
  | .subshell c =>
    subshell step m (step ⟨m.tested, true⟩ c)
    strictly m.tested
  | .background c => beside step c
  | .redirected line (.subshell c) redirects =>
    modify fun s => { s with line := line }
    let aims ← Redirection.aims run redirects
    subshell step m do
      Redirection.establishAll run false aims
      step ⟨m.tested, true⟩ c
    strictly m.tested
  | .redirected line c redirects =>
    modify fun s => { s with line := line }
    let aims ← Redirection.aims run redirects
    Redirection.around run aims (strictly m.tested) (go c)
  | .cond t yes no =>
    test t
    last (if (← get).status = 0 then yes else no)
  | .whileLoop until' t body =>
    looping (rounds until' (test t) (go body) roundLimit 0)
  | .forLoop line name words body =>
    modify fun s => { s with line := line }
    let texts ← match words with
      | none => pure (← get).arguments
      | some ws => Expansion.allTexts run ws
    if texts.isEmpty then modify (·.withStatus 0)
    looping (roundsOver name (go body) texts)
  | .select line word branches =>
    modify fun s => { s with line := line }
    let text ← Expansion.toText run .first word
    match ← choose run text branches with
    | none | some .nothing => modify (·.withStatus 0)
    | some c => last c
  | .define name body =>
    modify fun s =>
      { s with
        functions := (name, body) :: s.functions.filter fun f => f.1 != name
        found := s.found.filter fun f => f.1 != name
        status := 0 }

/-- Carries out a command. Signals are taken before and after it. -/
def command : Nat → Step
  | 0, _, _ => throw (.killed 11)
  | fuel + 1, m, c => do
    if !(← get).isOn .noexec then
      Process.takeSignals (command fuel)
      compound (command fuel) m c
      Process.takeSignals (command fuel)

/-- How deep commands may stand in each other. -/
def depthLimit : Nat := 10000

end GatedRelease.Shell.Evaluation
