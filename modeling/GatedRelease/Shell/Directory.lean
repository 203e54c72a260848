import GatedRelease.Shell.Options

/-! The directory that a shell works in, and the permissions that its new files do not get. The
shell keeps the path by which it has come to its directory: going up takes the last name away, even
where a link led down. -/
namespace GatedRelease.Shell.Directory

/-- The pieces of a text between colons. -/
def splitColons : List Char → List (List Char)
  | [] => [[]]
  | c :: rest =>
    if c == ':' then [] :: splitColons rest
    else match splitColons rest with
      | [] => [[c]]
      | piece :: more => (c :: piece) :: more

/-- The paths of a name in the directories of a list. -/
def candidates (directories name : String) : List String :=
  (splitColons directories.toList).map fun d =>
    if d.isEmpty then name else s!"{String.ofList d}/{name}"

/-- The path of a location. -/
def physical (l : Location) : String := Octets.encode ("/" ++ l.render)

/-- The names of a path after those before it, where two dots take one away. -/
def follow (before : List String) : List String → List String
  | [] => before
  | n :: rest =>
    if n == "" || n == "." then follow before rest
    else if n == ".." then follow before.dropLast rest
    else follow (before ++ [n]) rest

/-- The path to which a path leads from a directory. -/
def logical (here path : String) : String :=
  let double := path.toList.take 2 == ['/', '/'] && (path.toList.drop 2).head? != some '/'
  let front := if double then "//" else "/"
  let start := if PathText.isAbsolute path then [] else follow [] (PathText.pieces here)
  front ++ String.intercalate "/" (follow start (PathText.pieces path))

/-- The path leads to a directory. -/
def isDirectory (s : State) (path : String) : Bool := s.files.isDirectory (Octets.decode path)

/-- The last of two options that was given is the second one. -/
def asksPhysical (t : Options.Taken) : Bool := t.options.getLast?.map (·.1) == some 'P'

/-- Goes to a directory, if there is one, and keeps in mind the one before. -/
def go (inFact : Bool) (path : String) : Action Bool := do
  let s ← get
  let path' := if inFact then path else logical s.directory path
  match s.files.directoryAt (Octets.decode path') with
  | .error _ => return false
  | .ok l =>
    let directory := if inFact then physical l else path'
    Action.assign "OLDPWD" s.directory
    Action.assign "PWD" directory
    modify fun s =>
      { (s.exporting "OLDPWD").exporting "PWD" with
        files := { s.files with home := l }
        directory := directory
        found := s.found.map fun f => (f.1, f.2.1, true) }
    return true

/-- A path that no list of directories is looked at for. -/
def isFixed (path : String) : Bool :=
  match PathText.pieces path with
  | first :: _ :: _ => first == "" || first == "." || first == ".."
  | [only] => only == "." || only == ".."
  | [] => false

/-- Changes the directory. -/
def cd (args : List String) : Action Nat := do
  let t ← Options.ofCommand "LP" "" args
  let s ← get
  let value (name : String) : String := (s.value? name).getD ""
  let back := t.operands.head? == some "-"
  let target := match t.operands with
    | [] => value "HOME"
    | "-" :: _ => value "OLDPWD"
    | d :: _ => d
  let path := if target == "" then "." else target
  let found := match s.value? "CDPATH" with
    | none => none
    | some directories =>
      if isFixed target then none
      else (candidates directories path).find? (isDirectory s)
  let shown := back || (match found with
    | some p => p != path
    | none => false)
  if ← go (asksPhysical t) (found.getD path) then
    if shown then modify fun s => s.say s.directory
    return 0
  else Action.fail s!"can't cd to {target}"

/-- Shows the directory. -/
def pwd (args : List String) : Action Nat := do
  let t ← Options.ofCommand "LP" "" args
  modify fun s => s.say (if asksPhysical t then physical s.files.home else s.directory)
  return 0

/-! ## Permissions of new files -/

/-- Who is meant by a letter, as a number that spreads a digit over the digits of a mode. -/
def who (c : Char) : Nat :=
  match c with
  | 'u' => 0o100
  | 'g' => 0o10
  | 'o' => 0o1
  | _ => 0o111

/-- The permissions that a letter stands for, given all permissions. -/
def permission (mode : Nat) (c : Char) : Nat :=
  match c with
  | 'r' => 4
  | 'w' => 2
  | 'x' => 1
  | 'u' => mode / 64 % 8
  | 'g' => mode / 8 % 8
  | 'o' => mode % 8
  | 'X' => if mode &&& 0o111 != 0 then 1 else 0
  | _ => 0

/-- Changes permissions as clauses say; `start` are the permissions at first and `people` those that
a clause is about. The number bounds the steps. -/
def clauses (start : Nat) : Nat → Nat → Nat → List Char → Option Nat
  | 0, mode, _, _ => some mode
  | _, mode, _, [] => some mode
  | fuel + 1, mode, people, cs =>
    let named := cs.takeWhile fun c => c == 'a' || c == 'u' || c == 'g' || c == 'o'
    let people := named.foldl (fun p c => p ||| who c) people
    let people := if people = 0 then 0o111 else people
    match cs.drop named.length with
    | [] => some mode
    | operator :: more =>
      let letters := more.takeWhile fun c => "rwxugoXs".toList.contains c
      let value := (letters.foldl (fun n c => n ||| permission start c) 0) * people
      let mode' : Option Nat := match operator with
        | '+' => some (mode ||| value)
        | '-' => some (mode &&& (0o777 - value))
        | '=' => some (value ||| (mode &&& (0o777 - people * 7)))
        | _ => none
      match mode', more.drop letters.length with
      | none, _ => none
      | some mode, [] => some mode
      | some mode, c :: rest =>
        if c == ',' then clauses start fuel mode 0 rest
        else if c == '+' || c == '-' || c == '=' then clauses start fuel mode people (c :: rest)
        else none

/-- A number in base eight, with so many digits at least. -/
def octalText (width n : Nat) : String :=
  let ds := Nat.toDigits 8 n
  String.ofList (List.replicate (width - ds.length) '0' ++ ds)

/-- The permissions that are left, in letters. -/
def symbolic (mode : Nat) : String :=
  let digit (name : String) (n : Nat) : String :=
    let letters := [(4, "r"), (2, "w"), (1, "x")].map fun (bit, l) =>
      if n &&& bit != 0 then l else ""
    s!"{name}=" ++ String.join letters
  String.intercalate "," [digit "u" (mode / 64 % 8), digit "g" (mode / 8 % 8), digit "o" (mode % 8)]

/-- Shows or changes the permissions that new files do not get. -/
def umask (args : List String) : Action Nat := do
  let t ← Options.ofCommand "S" "" args
  let mask := (← get).mask
  let mode := 0o777 - mask
  match t.operands with
  | [] => modify fun s => s.say (if t.has 'S' then symbolic mode else octalText 4 mask)
  | word :: _ =>
    match word.toList with
    | [] => pure ()
    | c :: cs =>
      if c.isDigit then
        match Numeral.digits 8 (c :: cs) with
        | some (n, []) => modify fun s => { s with mask := n % 512 }
        | _ => Action.fail s!"Illegal number: {word}"
      else match clauses mode (word.length + 1) mode 0 (c :: cs) with
        | some mode => modify fun s => { s with mask := 0o777 - mode }
        | none => Action.fail s!"Illegal mode: {word}"
  return 0

end GatedRelease.Shell.Directory
