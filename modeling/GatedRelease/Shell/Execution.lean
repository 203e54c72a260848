import GatedRelease.Shell.Builtin
import GatedRelease.Shell.Loading
import GatedRelease.Shell.Process
import GatedRelease.Shell.Redirection
import GatedRelease.Shell.Utility

/-! Running programs that are files: other shells, programs of the system, and one that runs another
with other variables. -/
namespace GatedRelease.Shell.Execution

/-! ## Another shell -/

/-- The shell that scripts without a first line of their own are handed to. -/
def usualShell : String := "/bin/sh"

/-- The variables that every shell has, where nobody else gives them. -/
def usualVariables : List (String × String) := [("PATH", Lookup.usualDirectories), ("PPID", "1"),
  ("PS1", "# "), ("PS2", "> "), ("PS4", "+ ")]

/-- The variables that every shell starts with, whatever it is given. -/
def fixedVariables : List (String × String) := [("IFS", " \t\n"), ("OPTIND", "1")]

/-- The path of the directory, as it is handed over if that is right. -/
def directoryOf (s : State) : String :=
  let real := Directory.physical s.files.home
  match s.environment.lookup "PWD" with
  | none => real
  | some p =>
    if PathText.isAbsolute p && (s.files.directoryAt (Octets.decode p)).toOption = some s.files.home
    then p
    else real

/-- The state of a shell that is started. -/
def fresh (s : State) (title : String) : State :=
  let given := s.environment.filter fun v => Parser.isName v.1
  let directory := directoryOf s
  let named := fixedVariables ++ [("PWD", directory)]
  let own := given.filter fun v => (named.lookup v.1).isNone
  let usual := usualVariables.filter fun v => (given.lookup v.1).isNone
  { s with
    directory := directory
    vars := own ++ named ++ usual
    exported := State.mark true "PWD" (given.map (·.1))
    constants := []
    title := title
    arguments := []
    optionPlace := .start
    status := 0
    substituted := 0
    number := s.nextNumber
    nextNumber := s.nextNumber + 1
    isPart := false
    beside := none
    jobs := []
    settings := []
    functions := []
    aliases := []
    found := []
    traps := []
    deaf := Trap.ignored s
    saved := none
    loops := 0
    calls := 0
    shadowed := none
    line := 0
    within := none
    output := [] }

/-- A text without what no text can hold. -/
def programOf (bytes : Bytes) : String := Octets.ofBytes (bytes.filter (· != 0))

/-- Carries out what can be read from standard input. -/
def fromInput (step : Step) : Action Unit := do
  let (bytes, s) := (← get).readAll 0
  set s
  let _ ← Process.text step false true (programOf (bytes.toOption.getD []))

/-- Carries out the file that the arguments name. -/
def fromFile (step : Step) (file : String) (arguments : List String) : Action Unit := do
  let (opened, s) := Redirection.openFor (← get) false file .reading
  set s
  match opened with
  | .error message => Action.fail message
  | .ok h =>
    let bytes := (s.stream? h).map fun x => (x.available s.files).toOption.getD []
    set { s with title := file, arguments := arguments }
    let _ ← Process.text step false true (programOf (bytes.getD []))

/-- The settings that the arguments of a shell show: all count as on that they have not turned off.
-/
def undecided (args : List String) : List Setting :=
  match Options.turn true (args.length + 1) args ⟨Setting.all, [], none, false⟩ with
  | .ok t => t.settings
  | .error _ => Setting.all

/-- Carries out what the arguments of a shell ask for. -/
def fromArguments (step : Step) (args : List String) : Action Unit := do
  match Options.turn true (args.length + 1) args ⟨[], [], none, false⟩ with
  | .error message => Action.fail message
  | .ok t =>
    let operands := t.arguments.getD []
    modify fun s => t.listings.foldl (fun s asCommands =>
      (Setting.listing asCommands (undecided args)).foldl State.say s) s
    modify (·.flush.1)
    if t.given && operands.isEmpty then Action.fail "-c requires an argument"
    let controls := t.settings.contains .monitor || t.settings.contains .interactive
    if controls then modify (·.complain "can't access tty; job control turned off")
    let settings := Setting.turn false .monitor t.settings
    let reads := settings.contains .stdin || operands.isEmpty
    modify fun s => { s with
      settings := if reads then Setting.turn true .stdin settings else settings }
    match t.given, operands with
    | true, program :: more =>
      match more with
      | title :: arguments => modify fun s => { s with title := title, arguments := arguments }
      | [] => pure ()
      let _ ← Process.text step false false program
      if reads then fromInput step
    | _, operands =>
      match operands with
      | file :: arguments =>
        if reads then
          modify fun s => { s with arguments := file :: arguments }
          fromInput step
        else fromFile step file arguments
      | [] => fromInput step

/-- Runs another shell to its end. -/
def shell (step : Step) (argv : List String) (s : State) : Outcome × State :=
  let (result, inner) := (fromArguments step (argv.drop 1)).run (fresh s (argv.headD "sh"))
  Process.conclude step result inner

/-! ## Finding and starting programs -/

/-- How many bytes of a file show whether it is a text. -/
def sampleSize : Nat := 128

/-- A byte that no text has. -/
def isForeign (b : UInt8) : Bool := b < 9 || (16 ≤ b && b < 32 && b != 27) || b == 127

/-- The file at a path does not start like a text. -/
def isForeignFile (files : FileSystem) (path : String) : Bool :=
  match files.readFile (Octets.decode path) with
  | .ok bytes => ((bytes.take sampleSize).takeWhile (· != 10)).any isForeign
  | .error _ => false

/-- What starts when the first program that can be started is, out of those at paths. A file that is
none is a script, unless it is looked at (`looks`) and does not start like a text. If nothing can be
started, the reason counts that is not just that there is none. -/
def imageOf (files : FileSystem) (looks : Bool) (argv : List String) :
    Option Cause → List String → Except Cause Loading.Image
  | why, [] => .error (why.getD .notFound)
  | why, p :: rest =>
    let tryNext (c : Cause) : Except Cause Loading.Image :=
      imageOf files looks argv (if Lookup.isMissing c then why.or (some c) else some c) rest
    match Loading.load files p argv with
    | .ok image => .ok image
    | .error .badFormat =>
      if looks && isForeignFile files p then tryNext .badFormat
      else Loading.load files usualShell (usualShell :: p :: argv.drop 1)
    | .error c => tryNext c

/-- A program that was not started has this status. -/
def refusalStatus (c : Cause) : Nat :=
  if Lookup.isMissing c || c = .tooManyLinks || c = .nameTooLong then 127 else 126

/-! ## Other variables for a program -/

/-- What the arguments of a change of variables ask for. -/
structure Change where
  /-- No variables are handed over. -/
  cleared : Bool
  /-- Names to be taken away. -/
  removed : List String
  settings : List (String × String)
  /-- The program and its arguments. -/
  command : List String

/-- Words between blanks. -/
def wordsOf (text : String) : List String :=
  ((text.toList.splitBy fun a b => Loading.isBlank a == Loading.isBlank b).filter
    fun w => !w.any Loading.isBlank).map String.ofList

/-- The settings at the front of words, and the command behind them. -/
def settingsOf : List String → List (String × String) × List String
  | [] => ([], [])
  | w :: rest =>
    match Variable.split w with
    | (name, some value) =>
      let (settings, command) := settingsOf rest
      ((name, value) :: settings, command)
    | (_, none) => ([], w :: rest)

/-- Reads the arguments of a change of variables; the number bounds them. -/
def changeOf : Nat → List String → Change → Except String Change
  | 0, args, c => .ok { c with command := args }
  | fuel + 1, args, c =>
    let finish (words : List String) : Except String Change :=
      let (settings, command) := settingsOf words
      .ok { c with settings := settings, command := command }
    match args with
    | [] => .ok c
    | "-" :: rest => changeOf fuel rest { c with cleared := true }
    | "-i" :: rest => changeOf fuel rest { c with cleared := true }
    | "--" :: rest => finish rest
    | "-u" :: name :: rest => changeOf fuel rest { c with removed := name :: c.removed }
    | "-S" :: text :: rest => changeOf fuel (wordsOf text ++ rest) c
    | a :: rest =>
      match a.toList with
      | '-' :: 'S' :: text => changeOf fuel (wordsOf (String.ofList text) ++ rest) c
      | '-' :: 'i' :: ' ' :: _ =>
        .error "invalid option -- ' '\nenv: use -[v]S to pass options in shebang lines"
      | '-' :: l :: _ => .error s!"invalid option -- '{l}'"
      | _ => finish (a :: rest)

/-- The state in which other variables are handed over. -/
def changed (c : Change) (s : State) : State :=
  let s := if c.cleared then { s with exported := [] } else s
  let s := { s with exported := s.exported.filter fun n => !c.removed.contains n }
  c.settings.foldl (fun s v => (s.put v.1 v.2).exporting v.1) s

/-- Runs a program with other variables, or shows them; `run` runs a program. -/
def withVariables (run : Loading.Image → State → Outcome × State) (argv : List String) (s : State) :
    Outcome × State :=
  let title := argv.headD "env"
  match changeOf (argv.length + 1000) (argv.drop 1) ⟨false, [], [], []⟩ with
  | .error message =>
    (.exited 125, (s.warn s!"{title}: {message}").warn
      s!"Try '{title} --help' for more information.")
  | .ok c =>
    let s := changed c s
    match c.command with
    | [] =>
      let lines := s.environment.map fun v => v.1 ++ "=" ++ v.2 ++ "\n"
      let (s, status) := Utility.finish title s (Octets.toBytes (String.join lines)) 0
      (.exited status, s)
    | name :: args =>
      let directories := (s.environment.lookup "PATH").getD "/bin:/usr/bin"
      let paths := if name.toList.contains '/' then [name]
        else Directory.candidates directories name
      match imageOf s.files false (name :: args) none paths with
      | .ok image => run image s
      | .error c =>
        let s := s.warn s!"{title}: '{name}': {c.words}"
        let s := if c = .notFound && name.toList.contains ' ' then
            s.warn s!"{title}: use -[v]S to pass options in shebang lines"
          else s
        (.exited (if c = .notFound then 127 else 126), s)

/-! ## Programs -/

/-- Runs what has been started to its end; the number bounds programs that run each other. -/
def run (step : Step) : Nat → Loading.Image → State → Outcome × State
  | 0, _, s => (.killed Signal.kill, s)
  | depth + 1, image, s =>
    if System.isShell image.program then shell step image.argv s
    else if image.program == "env" then withVariables (run step depth) image.argv s
    else
      let (s, status) := Utility.run image.program (image.argv.headD "") (image.argv.drop 1) s
      (.exited (status % 256), s)

/-- How deep programs may run each other. -/
def depthLimit : Nat := 1000

/-- Runs the first program at paths that can be started, or complains; `name` is what it is called.
-/
def launch (step : Step) (paths : List String) (name : String) (args : List String) (s : State) :
    Outcome × State :=
  match imageOf s.files true (name :: args) none paths with
  | .ok image => run step depthLimit image s
  | .error c =>
    let why := if Lookup.isMissing c then "not found" else c.words
    (.exited (refusalStatus c), s.complain s!"{name}: {why}")

/-- Runs the first program at paths that can be started while the shell waits for it. -/
def launchBeside (step : Step) (paths : List String) (name : String) (args : List String) :
    Action Unit := do
  let s := (← get).forking
  let (o, inner) := launch step paths name args s
  set (Process.reap o (s.after inner))

/-- The shell becomes the first program at paths that can be started. -/
def become (step : Step) (paths : List String) (name : String) (args : List String) :
    Action Unit := do
  let s ← get
  match imageOf s.files true (name :: args) none paths with
  | .ok image =>
    let (o, s) := run step depthLimit image s
    set s
    throw (.replaced o)
  | .error c =>
    let why := if Lookup.isMissing c then "not found" else c.words
    set ((s.complain s!"{name}: {why}").withStatus (refusalStatus c))
    throw .stop

end GatedRelease.Shell.Execution
