import GatedRelease.Rehearsal
import GatedRelease.Shell.Evaluation

/-! A machine that commands run on, with the command shell and the usual small programs. What a
command is and whether it can start are decided as an operating system does: by the directory it
starts in, by its name or path, and by the file behind the path. -/
namespace GatedRelease.Host
open Shell

/-- Where programs are looked for. -/
def searchPath : String := Lookup.usualDirectories

/-- The variables of programs, as octet texts. -/
def environment (vars : List (String × Bytes)) : List (String × String) :=
  vars.map (fun v => (Octets.encode v.1, Octets.ofBytes v.2)) ++ [("PATH", searchPath)]

/-- What is started when the first program at paths that can be is. If none can, one that may not be
started counts before one that is missing. -/
def imageOf (fs : FileSystem) (argv : List String) : Cause → List String →
    Except Cause Loading.Image
  | why, [] => .error why
  | why, p :: rest =>
    match Loading.load fs p argv with
    | .ok image => .ok image
    | .error .denied => imageOf fs argv .denied rest
    | .error c => if Lookup.isMissing c then imageOf fs argv why rest else .error c

/-- What is started under a name. -/
def find (fs : FileSystem) (name : String) (args : List String) : Except Cause Loading.Image :=
  let paths := if name == "" then []
    else if name.toList.contains '/' then [name]
    else Directory.candidates searchPath name
  let argv := name :: args
  match paths with
  | [path] => Loading.load fs path argv
  | paths => imageOf fs argv .notFound paths

/-- The number by which the system knows a program that is started. -/
def firstNumber : Nat := 4242

/-- The open file to read nothing from, and the pipes for what a program writes. -/
def streams : Array Stream := #[.device .null, .pipe [] [], .pipe [] []]

/-- The open files of a program that is started. -/
def descriptors : List (Nat × Handle) :=
  [(0, ⟨0, true, false, false⟩), (1, ⟨1, false, true, false⟩), (2, ⟨2, false, true, false⟩)]

/-- What surrounds a program that is started. -/
def surroundings (vars : List (String × String)) (files : FileSystem) : State where
  files := files
  streams := streams
  descriptors := descriptors
  directory := Directory.physical files.home
  mask := 18
  vars := vars
  exported := vars.map (·.1)
  constants := []
  title := ""
  arguments := []
  optionPlace := .start
  status := 0
  substituted := 0
  number := firstNumber
  firstNumber := firstNumber
  nextNumber := firstNumber
  isPart := false
  sent := []
  beside := none
  jobs := []
  settings := []
  functions := []
  aliases := []
  found := []
  traps := []
  deaf := []
  saved := none
  loops := 0
  calls := 0
  shadowed := none
  line := 0
  within := none
  output := []

/-- The text that has been written to a stream. -/
def written (s : State) (stream : Nat) : String :=
  Text.ofUtf8Lossy (((s.streams[stream]?.map fun x =>
    (x.available s.files).toOption.getD []).getD []))

/-- What a program left, as the runner reports it. -/
def outputOf (o : Outcome) (s : State) : Output where
  exitCode := match o with
    | .exited n => n
    | .killed _ => -1
  stdout := written s 1
  stderr := written s 2
  success := o = .exited 0

/-- Runs a program with arguments in a directory to its end. -/
def start (vars : List (String × String)) (program : String) (args : List String)
    (directory : String) (files : FileSystem) : Except Cause (Outcome × State) :=
  if (program :: directory :: args).any (·.toList.contains (Char.ofNat 0)) then .error .nulInData
  else do
    let system := System.around files
    let there := { system with home := ← system.workplace directory }
    let image ← find there (Octets.encode program) (args.map Octets.encode)
    return Execution.run (Evaluation.command Evaluation.depthLimit) Execution.depthLimit image
      (surroundings vars there)

/-- Runs a command: what the runner reports, and the files after it. -/
def run (vars : List (String × String)) (c : GatedRelease.Command) (fs : FileSystem) :
    Except RunFailure Output × FileSystem :=
  match c.argv with
  | [] => (.error (.emptyArgv c.label), fs)
  | program :: args =>
    match start vars program args c.workingDir fs with
    | .error cause => (.error (.notStarted c.label cause.message), fs)
    | .ok (outcome, s) => (.ok (outputOf outcome s), System.within s.files fs.home)

/-- The machine, with a git that goes by rules. -/
def outside (vars : List (String × String)) : Outside Rehearsal.Cast where
  git := Rehearsal.outside.git
  command c files cast :=
    let (result, files) := run vars c files
    ⟨result, files, false, cast⟩

end GatedRelease.Host
