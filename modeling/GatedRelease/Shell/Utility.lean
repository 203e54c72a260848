import GatedRelease.Shell.Cat
import GatedRelease.Shell.Condition
import GatedRelease.Shell.Format

/-! Programs of the system other than the shell: those that write, those that look at files, and
those that change them. Most get their arguments, the files and their input, and leave a result. -/
namespace GatedRelease.Shell

/-- What a program leaves. -/
structure Result where
  status : Nat
  out : Bytes
  err : Bytes
  files : FileSystem
  /-- The input that is left. -/
  input : Bytes

namespace Utility

/-- A program: arguments, files and input to a result. -/
abbrev Program := List String → FileSystem → Bytes → Result

/-- A program that only writes. -/
def writing (f : List String → Nat × Bytes) : Program := fun args fs input =>
  let (status, out) := f args
  ⟨status, out, [], fs, input⟩

/-- A line of text in bytes. -/
def line (s : String) : Bytes := Text.utf8 (s ++ "\n")

/-- The number that a text is, or zero. -/
def numberOf (s : String) : Nat := (Numeral.count? s).getD 0

/-- Takes one operand after the other, and joins what comes of them; after a failure the status
is 1. -/
def each (f : String → FileSystem → Except String Bytes × FileSystem) :
    List String → FileSystem → Nat × Bytes × Bytes × FileSystem
  | [], fs => (0, [], [], fs)
  | a :: rest, fs =>
    let (result, fs) := f a fs
    let (status, out, err, fs) := each f rest fs
    match result with
    | .ok bytes => (status, bytes ++ out, err, fs)
    | .error message => (1, out, line message ++ err, fs)

/-- A program that works on its operands one by one. -/
def operandwise (f : String → FileSystem → Except String Bytes × FileSystem)
    (operands : List String) (fs : FileSystem) (input : Bytes) : Result :=
  let (status, out, err, fs) := each f operands fs
  ⟨status, out, err, fs, input⟩

/-- The letters of options at the front, and the operands. -/
def options : List String → List Char × List String
  | [] => ([], [])
  | a :: rest =>
    if a == "--" then ([], rest)
    else match a.toList with
      | '-' :: c :: cs =>
        let (letters, operands) := options rest
        if c == '-' then (letters, operands) else (c :: cs ++ letters, operands)
      | _ =>
        let (letters, operands) := options rest
        (letters, a :: operands)

/-- A step on the files, its failure told as `message`. -/
def step (s : FileStep Cause Unit) (message : Cause → String) (fs : FileSystem) :
    Except String Bytes × FileSystem :=
  match s fs with
  | (.ok (), fs) => (.ok [], fs)
  | (.error c, fs) => (.error (message c), fs)

/-- Makes directories. -/
def mkdir : Program := fun args fs input =>
  let (letters, operands) := options args
  let make (p : String) : FileStep Cause Unit :=
    if letters.contains 'p' then FileSystem.makeDirectories p else FileSystem.makeDirectory p
  operandwise (fun p => step (make p) fun c =>
    s!"mkdir: cannot create directory '{p}': {c.words}") operands fs input

/-- Removes empty directories. -/
def rmdir : Program := fun args fs input =>
  operandwise (fun p => step (FileSystem.removeDirectory p) fun c =>
    s!"rmdir: failed to remove '{p}': {c.words}") (options args).2 fs input

/-- Removes files, and directories if asked to. -/
def rm : Program := fun args fs input =>
  let (letters, operands) := options args
  let deep := letters.contains 'r' || letters.contains 'R'
  operandwise (fun p fs =>
    match fs.entryAt p with
    | .error c =>
      if letters.contains 'f' then (.ok [], fs)
      else (.error s!"rm: cannot remove '{p}': {c.words}", fs)
    | .ok e =>
      if e = .directory ∧ !deep then (.error s!"rm: cannot remove '{p}': Is a directory", fs)
      else step (FileSystem.removeAny p) (fun c => s!"rm: cannot remove '{p}': {c.words}") fs)
    operands fs input

/-- Makes files that are missing. -/
def touch : Program := fun args fs input =>
  operandwise (fun p fs =>
    if fs.pathExists p then (.ok [], fs)
    else step (FileSystem.writeFile p [] none)
      (fun c => s!"touch: cannot touch '{p}': {c.words}") fs) (options args).2 fs input

/-- Where a copy of `source` goes: into `target` if that is a directory. -/
def placeIn (fs : FileSystem) (source target : String) : String :=
  if fs.isDirectory target then
    PathText.join target ((PathText.fileName? source).getD "")
  else target

/-- Copies a file, or a directory with all that is below it. -/
def copyOne (deep : Bool) (source target : String) (fs : FileSystem) :
    Except String Bytes × FileSystem :=
  let place := placeIn fs source target
  match fs.canonical source with
  | .error c => (.error s!"cp: cannot stat '{source}': {c.words}", fs)
  | .ok l =>
    match fs.tree.find? l with
    | some (.file bytes x) =>
      let mode := if fs.pathExists place then none else some x
      step (FileSystem.writeFile place bytes mode)
        (fun c => s!"cp: cannot create regular file '{place}': {c.words}") fs
    | some .directory =>
      if deep then
        let sub := fs.tree.below l
        match (FileSystem.makeDirectories place) fs with
        | (.error c, fs) => (.error s!"cp: cannot create directory '{place}': {c.words}", fs)
        | (.ok (), fs) =>
          match fs.canonical place with
          | .ok d => (.ok [], { fs with tree := fs.tree.graft d sub })
          | .error c => (.error s!"cp: cannot create directory '{place}': {c.words}", fs)
      else (.error s!"cp: -r not specified; omitting directory '{source}'", fs)
    | _ => (.error s!"cp: cannot stat '{source}': No such file or directory", fs)

/-- Takes all operands but the last there, one by one; several need a directory to go to. -/
def towards (title : String) (f : String → String → FileSystem → Except String Bytes × FileSystem)
    (operands : List String) (fs : FileSystem) (input : Bytes) : Result :=
  let refuse (reason : String) : Result := ⟨1, [], line s!"{title}: {reason}", fs, input⟩
  let help := s!"\nTry '{title} --help' for more information."
  match operands.getLast?, operands.dropLast with
  | none, _ => refuse s!"missing file operand{help}"
  | some only, [] => refuse s!"missing destination file operand after '{only}'{help}"
  | some target, [p] => operandwise (f target) [p] fs input
  | some target, ps =>
    match fs.directoryAt target with
    | .ok _ => operandwise (f target) ps fs input
    | .error c => refuse s!"target '{target}': {c.words}"

/-- Copies to the last operand. -/
def cp : Program := fun args fs input =>
  let (letters, operands) := options args
  let deep := letters.any fun c => c == 'r' || c == 'R' || c == 'a'
  towards "cp" (fun target p => copyOne deep p target) operands fs input

/-- Moves to the last operand. -/
def mv : Program := fun args fs input =>
  towards "mv" (fun target p fs =>
    match fs.entryAt p with
    | .error c => (.error s!"mv: cannot stat '{p}': {c.words}", fs)
    | .ok _ =>
      let place := placeIn fs p target
      step (FileSystem.rename p place)
        (fun c => s!"mv: cannot move '{p}' to '{place}': {c.words}") fs)
    (options args).2 fs input

/-- Makes symbolic links. -/
def ln : Program := fun args fs input =>
  let (letters, operands) := options args
  match operands with
  | [target, p] =>
    let place := placeIn fs target p
    let fs := if letters.contains 'f' then (FileSystem.removeFile place fs).2 else fs
    operandwise (fun _ => step (FileSystem.makeLink target place) fun c =>
      s!"ln: failed to create symbolic link '{place}': {c.words}") [p] fs input
  | _ => ⟨1, [], line "ln: missing file operand", fs, input⟩

/-- Sets or clears the executable bit. -/
def chmod : Program := fun args fs input =>
  match args with
  | mode :: operands =>
    let executable := mode.toList.contains 'x' && !mode.toList.contains '-' ||
      mode.toList.any fun c => c == '7' || c == '5'
    operandwise (fun p fs =>
      match fs.canonical p with
      | .error c => (.error s!"chmod: cannot access '{p}': {c.words}", fs)
      | .ok l =>
        match fs.tree.find? l with
        | some (.file bytes _) =>
          (.ok [], { fs with tree := fs.tree.put l (.file bytes executable) })
        | _ => (.ok [], fs)) operands fs input
  | [] => ⟨1, [], line "chmod: missing operand", fs, input⟩

/-- The names in a directory that are not hidden. -/
def listing (fs : FileSystem) (l : Location) (all : Bool) : Bytes :=
  (fs.tree.below l).entries.flatMap fun x =>
    match x.1 with
    | [n] => if all || n.text.toList.head? != some '.' then line n.text else []
    | _ => []

/-- Lists directories. -/
def ls : Program := fun args fs input =>
  let (letters, operands) := options args
  let all := letters.any fun c => c == 'a' || c == 'A'
  let operands := if operands.isEmpty then ["."] else operands
  let result := operandwise (fun p fs =>
    match fs.canonical p with
    | .error c => (.error s!"ls: cannot access '{p}': {c.words}", fs)
    | .ok l =>
      if fs.tree.find? l = some .directory ∧ !letters.contains 'd' then
        (.ok ((if letters.contains 'a' then line "." ++ line ".." else []) ++ listing fs l all), fs)
      else (.ok (line p), fs)) operands fs input
  { result with status := if result.status = 0 then 0 else 2 }

/-- The lines of bytes, with their ends. -/
def linesOf : Bytes → List Bytes
  | [] => []
  | b :: rest =>
    if b == 10 then [b] :: linesOf rest
    else match linesOf rest with
      | [] => [[b]]
      | l :: more => (b :: l) :: more

/-- How many lines or bytes are asked for, and the operands. -/
def amount : List String → (Bool × Nat) × List String
  | [] => ((false, 10), [])
  | "-n" :: n :: rest => ((false, numberOf n), rest)
  | "-c" :: n :: rest => ((true, numberOf n), rest)
  | a :: rest =>
    match a.toList with
    | '-' :: 'n' :: ds => ((false, numberOf (String.ofList ds)), rest)
    | '-' :: 'c' :: ds => ((true, numberOf (String.ofList ds)), rest)
    | '-' :: d :: ds =>
      if d.isDigit then ((false, numberOf (String.ofList (d :: ds))), rest)
      else ((false, 10), a :: rest)
    | _ => ((false, 10), a :: rest)

/-- Writes one end of files or of the input. -/
def oneEnd (title : String) (fromEnd : Bool) : Program := fun args fs input =>
  let ((inBytes, n), operands) := amount args
  let pick {α : Type} (xs : List α) : List α :=
    if fromEnd then xs.drop (xs.length - n) else xs.take n
  let cut (bytes : Bytes) : Bytes :=
    if inBytes then pick bytes else (pick (linesOf bytes)).flatten
  if operands.isEmpty then ⟨0, cut input, [], fs, []⟩
  else operandwise (fun p fs =>
    if p == "/dev/zero" && inBytes && !fromEnd then (.ok (List.replicate n 0), fs)
    else match fs.readFile p with
      | .ok bytes => (.ok (cut bytes), fs)
      | .error c => (.error s!"{title}: cannot open '{p}' for reading: {c.words}", fs))
    operands fs input

/-- Counts lines, words or bytes of files or of the input. -/
def wc : Program := fun args fs input =>
  let (letters, operands) := options args
  let count (bytes : Bytes) : Nat :=
    if letters.contains 'l' then bytes.countP (· == 10)
    else if letters.contains 'w' then
      ((Text.ofUtf8Lossy bytes).toList.splitBy
        (fun a b => a.isWhitespace == b.isWhitespace)).countP
        fun w => w.any fun c => !c.isWhitespace
    else bytes.length
  if operands.isEmpty then ⟨0, line (toString (count input)), [], fs, []⟩
  else operandwise (fun p fs =>
    match fs.readFile p with
    | .ok bytes => (.ok (line s!"{count bytes} {p}"), fs)
    | .error c => (.error s!"wc: {p}: {c.words}", fs)) operands fs input

/-- The numbers from `first`, `count` of them, `by'` apart. -/
def numbers (first by' : Int) : Nat → List Int
  | 0 => []
  | count + 1 => first :: numbers (first + by') by' count

/-- Writes numbers, one a line. -/
def seq : List String → Nat × Bytes := fun args =>
  let write (first by' last : Int) : Nat × Bytes :=
    let count := if by' > 0 then (last - first) / by' + 1
      else if by' < 0 then (first - last) / (-by') + 1 else 0
    (0, (numbers first by' count.toNat).flatMap fun n => line (toString n))
  match args.map fun a => (Numeral.whole? (some 10) a).getD 0 with
  | [last] => write 1 1 last
  | [first, last] => write first 1 last
  | [first, by', last] => write first by' last
  | _ => (1, [])

/-- The bytes sorted by lines. -/
def sort : Program := fun args fs input =>
  let (letters, operands) := options args
  let bytes := match operands with
    | [] => input
    | ps => ps.flatMap fun p => ((fs.readFile p).toOption).getD []
  let texts := (linesOf bytes).map fun l => Text.ofUtf8Lossy (l.filter (· != 10))
  let sorted := texts.mergeSort fun a b => a < b || a == b
  let sorted := if letters.contains 'r' then sorted.reverse else sorted
  ⟨0, sorted.flatMap line, [], fs, []⟩

/-- Writes the lines that contain a text. -/
def grep : Program := fun args fs input =>
  let (letters, operands) := options args
  let rec contains (pattern : List Char) : List Char → Bool
    | [] => pattern.isEmpty
    | c :: rest => pattern.isPrefixOf (c :: rest) || contains pattern rest
  match operands with
  | [] => ⟨2, [], line "Usage: grep [OPTION]... PATTERNS [FILE]...", fs, input⟩
  | pattern :: files =>
    let bytes := match files with
      | [] => input
      | ps => ps.flatMap fun p => ((fs.readFile p).toOption).getD []
    let found := (linesOf bytes).filter fun l =>
      contains pattern.toList (Text.ofUtf8Lossy l).toList != letters.contains 'v'
    let out := if letters.contains 'q' then [] else found.flatten
    ⟨if found.isEmpty then 1 else 0, out, [], fs, []⟩

/-- The last name of a path, without an ending. -/
def baseName (p ending : String) : String :=
  let name := (PathText.fileName? p).getD (if p == "" then "" else "/")
  if name != ending && name.endsWith ending then (name.dropEnd ending.length).toString else name

/-- The path of the home directory. -/
def here (fs : FileSystem) : String := "/" ++ fs.home.render

/-- The programs that leave a result, by name. -/
def find? (name : String) : Option Program :=
  match name with
  | "true" => some (writing fun _ => (0, []))
  | "false" => some (writing fun _ => (1, []))
  | "mkdir" => some mkdir
  | "rmdir" => some rmdir
  | "rm" => some rm
  | "touch" => some touch
  | "cp" => some cp
  | "mv" => some mv
  | "ln" => some ln
  | "chmod" => some chmod
  | "ls" => some ls
  | "head" => some (oneEnd "head" false)
  | "tail" => some (oneEnd "tail" true)
  | "wc" => some wc
  | "seq" => some (writing seq)
  | "sort" => some sort
  | "grep" => some grep
  | "sleep" => some (writing fun _ => (0, []))
  | "sync" => some (writing fun _ => (0, []))
  | "pwd" => some fun _ fs input => ⟨0, line (here fs), [], fs, input⟩
  | "basename" => some (writing fun args => (0, line (baseName (args.headD "") (args.getD 1 ""))))
  | "dirname" =>
    some (writing fun args =>
      let parent := (PathText.parent? (args.headD "")).getD "/"
      (0, line (if parent == "" then "." else parent)))
  | _ => none

/-! ## Programs on a state -/

/-- The state after a program has written all that it had to, and its status. -/
def finish (title : String) (s : State) (out : Bytes) (status : Nat) : State × Nat :=
  if out.isEmpty then (s, status)
  else match s.write 1 out with
    | (s, none) => (s, status)
    | (s, some c) => (s.warn s!"{title}: write error: {c.words}", max status 1)

/-- Runs a program that leaves a result. -/
def carryOut (p : Program) (title : String) (args : List String) (s : State) : State × Nat :=
  let input := (s.available 0).toOption.getD []
  let r := p (args.map Octets.decode) s.files input
  let s := { s with files := r.files }.skip 0 (input.length - r.input.length)
  let (s, status) := finish title s r.out r.status
  ((s.write 2 r.err).1, status)

/-- What an escape behind a backslash stands for, and the rest. -/
def echoEscape (c : Char) (more : List Char) : List Char × List Char :=
  if c == 'x' then
    match (more.take 2).takeWhile fun d => (Numeral.digit? 16 d).isSome with
    | [] => (['\\', 'x'], more)
    | ds =>
      let n := ds.foldl (fun n d => 16 * n + (Numeral.digit? 16 d).getD 0) 0
      ([Char.ofNat n], more.drop ds.length)
  else Format.escape true c more

/-- A text with escapes read, and whether one of them ends all output; the number bounds the octets.
-/
def echoText : Nat → List Char → List Char × Bool
  | 0, _ => ([], false)
  | _, [] => ([], false)
  | fuel + 1, '\\' :: c :: more =>
    if c == 'c' then ([], true)
    else
      let (text, rest) := echoEscape c more
      let (later, ended) := echoText fuel rest
      (text ++ later, ended)
  | fuel + 1, c :: more =>
    let (later, ended) := echoText fuel more
    (c :: later, ended)

/-- Whether escapes are read and a line feed is written, and the words behind these options. -/
def echoOptions (reads feeds : Bool) : List String → Bool × Bool × List String
  | [] => (reads, feeds, [])
  | a :: rest =>
    match a.toList with
    | '-' :: c :: cs =>
      if (c :: cs).all fun c => c == 'n' || c == 'e' || c == 'E' then
        let reads := match (c :: cs).filter (· != 'n') |>.getLast? with
          | some c => c == 'e'
          | none => reads
        echoOptions reads (feeds && !(c :: cs).contains 'n') rest
      else (reads, feeds, a :: rest)
    | _ => (reads, feeds, a :: rest)

/-- Writes its arguments. -/
def echo (title : String) (args : List String) (s : State) : State × Nat :=
  let (reads, feeds, words) := echoOptions false true args
  let text := (String.intercalate " " words).toList
  let (text, ended) := if reads then echoText (text.length + 1) text else (text, false)
  let text := if feeds && !ended then text ++ ['\n'] else text
  finish title s (Octets.toBytes (String.ofList text)) 0

/-- Writes by a format. -/
def printf (title : String) (args : List String) (s : State) : State × Nat :=
  match args with
  | [] => ((s.warn s!"{title}: missing operand").warn
      s!"Try '{title} --help' for more information.", 1)
  | format :: args =>
    let w := Format.write format args
    let s := (w.complaints ++ w.failure.toList).foldl (fun s c => s.warn s!"{title}: {c}") s
    finish title s (Octets.toBytes (String.ofList w.text))
      (if w.complaints.isEmpty && w.failure.isNone then 0 else 1)

/-- Tells whether a condition holds by its status; with `bracketed` set it stands in brackets. -/
def condition (bracketed : Bool) (title : String) (args : List String) (s : State) : State × Nat :=
  if bracketed && args.getLast? != some "]" then (s.warn s!"{title}: missing ']'", 2)
  else match Condition.holds s.files (if bracketed then args.dropLast else args) with
    | .ok holds => (s, if holds then 0 else 1)
    | .error message => (s.warn s!"{title}: {message}", 2)

/-- Runs the program of the system that has a name; it calls itself by its title. -/
def run (name title : String) (args : List String) (s : State) : State × Nat :=
  match name with
  | "cat" => Cat.run title args s
  | "echo" => echo title args s
  | "printf" => printf title args s
  | "test" => condition false title args s
  | "[" => condition true title args s
  | _ =>
    match find? name with
    | some p => carryOut p title args s
    | none => (s, 127)

end Utility
end GatedRelease.Shell
