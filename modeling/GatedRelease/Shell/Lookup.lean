import GatedRelease.Shell.Directory
import GatedRelease.Shell.Parser
import GatedRelease.Shell.Variable

/-! What names stand for: texts, words of the grammar, functions, commands of the shell's own, and
programs, which are looked for in the directories of a list. Where a program has been found is kept
in mind. -/
namespace GatedRelease.Shell.Lookup

/-- The commands of the shell's own that a failure ends it in. -/
def special : List String := Parser.Grammar.special

/-- The other commands of the shell's own. -/
def regular : List String := ["[", "alias", "bg", "cd", "chdir", "command", "echo", "false", "fg",
  "getopts", "hash", "jobs", "kill", "printf", "pwd", "read", "test", "true", "type", "ulimit",
  "umask", "unalias", "wait"]

/-- The commands whose arguments may be assignments. -/
def declaring : List String := ["alias", "export", "local", "readonly"]

/-- The name is a command of the shell's own. -/
def isOwn (name : String) : Bool := special.contains name || regular.contains name

/-- Where programs are looked for if nothing else is said. -/
def usualDirectories : String := "/usr/local/sbin:/usr/local/bin:/usr/sbin:/usr/bin:/sbin:/bin"

/-- A path is that of a program, or why it is not. -/
def examine (s : State) (path : String) : Option Cause :=
  match s.files.canonical (Octets.decode path) with
  | .error c => some c
  | .ok l =>
    match System.device? l, s.files.tree.find? l with
    | none, some (.file _ true) => none
    | _, _ => some .denied

/-- The reason is that there is nothing at the path. -/
def isMissing (c : Cause) : Bool := c = .notFound || c = .notDirectory

/-- The first path of a program and those after it, or why there is none. -/
def firstOf (s : State) : Cause → List String → Except Cause (List String)
  | why, [] => .error why
  | why, p :: rest =>
    match examine s p with
    | none => .ok (p :: rest)
    | some c => firstOf s (if isMissing c then why else c) rest

/-- The path of a program and other paths to try after it. Where a program has been found before, it
is not looked for again, unless the directory is another one. -/
def paths (s : State) (name : String) : Except Cause (List String) :=
  let all := match s.value? "PATH" with
    | some directories => Directory.candidates directories name
    | none => []
  match s.found.lookup name with
  | some (path, false) => .ok (path :: (all.dropWhile (· != path)).drop 1)
  | _ => firstOf s .notFound all

/-- The state that keeps in mind where a program is, or that it is nowhere. -/
def remember (name : String) (s : State) : State :=
  if s.functions.any (·.1 == name) then s
  else match paths s name with
  | .ok (p :: _) =>
    if s.found.lookup name == some (p, false) then s
    else if s.found.any (·.1 == name) then
      { s with found := s.found.map fun f => if f.1 == name then (name, p, false) else f }
    else { s with found := s.found ++ [(name, p, false)] }
  | _ => { s with found := s.found.filter fun f => f.1 != name }

/-- What a name of a command stands for. -/
inductive Meaning
  | function (body : Command)
  | own
  | program

/-- What a name of a command stands for; functions may be passed over. -/
def meaning (s : State) (functions : Bool) (name : String) : Meaning :=
  match (if functions then s.functions.lookup name else none) with
  | some body => .function body
  | none => if isOwn name then .own else .program

/-! ## Telling what names stand for -/

/-- The line that gives a name its text. -/
def aliasLine (a : String × String) : String := a.1 ++ "=" ++ Variable.quote a.2

/-- What a name stands for, in words or as short as can be. `usual` says that programs are looked
for in the usual directories. -/
def describe (inWords usual : Bool) (name : String) (s : State) : Option String × State :=
  let say (words : String) : Option String := some (if inWords then name ++ words else name)
  if Parser.reserved.contains name then (say " is a shell keyword", s)
  else match s.aliases.lookup name with
    | some text =>
      (if inWords then some s!"{name} is an alias for {text}"
        else some s!"alias {aliasLine (name, text)}", s)
    | none =>
      match meaning s true name with
      | .function _ => (say " is a shell function", s)
      | .own =>
        (say (if special.contains name then " is a special shell builtin"
          else " is a shell builtin"), s)
      | .program =>
        if name.toList.contains '/' then
          (if s.files.pathExists (Octets.decode name) then say s!" is {name}" else none, s)
        else if usual then
          match firstOf s .notFound (Directory.candidates usualDirectories name) with
          | .ok (path :: _) => (some (if inWords then s!"{name} is {path}" else path), s)
          | _ => (none, s)
        else
          let known := s.found.lookup name
          let s' := if known.isSome then s else remember name s
          match known.orElse fun _ => s'.found.lookup name with
          | none => (none, s')
          | some (path, _) =>
            let tracked := if known.isSome then "a tracked alias for " else ""
            (some (if inWords then s!"{name} is {tracked}{path}" else path), s')

/-- Tells in words what names stand for. -/
def type (names : List String) : Action Nat := do
  match names with
  | [] => return 0
  | n :: rest =>
    let (text, s) := describe true false n (← get)
    set (s.say (text.getD s!"{n}: not found"))
    let status ← type rest
    return if text.isSome then status else 127

/-- Tells what a name stands for, as `command` does. -/
def find (inWords usual : Bool) (names : List String) : Action Nat := do
  match names with
  | [] => return 0
  | n :: _ =>
    match describe inWords usual n (← get) with
    | (some text, s) =>
      set (s.say text)
      return 0
    | (none, s) =>
      set (if inWords then s.say s!"{n}: not found" else s)
      return 127

/-! ## Programs that have been found -/

/-- The place of a name in a table, so many places long, by its first octet and the sum of all. -/
def slot (size : Nat) (name : String) : Nat :=
  let octets := name.toList.map Char.toNat
  (16 * octets.headD 0 + octets.foldl (· + ·) 0) % size

/-- Names in the order of a table, so many places long. -/
def inOrder {α : Type} (size : Nat) (names : List (String × α)) : List (String × α) :=
  names.mergeSort fun a b => slot size a.1 ≤ slot size b.1

/-- Looks for programs anew. -/
def seek : List String → Action Nat
  | [] => return 0
  | n :: rest => do
    modify fun s => { s with found := s.found.filter fun f => f.1 != n }
    let s ← get
    let failure ← match meaning s true n with
      | .program =>
        if n.toList.contains '/' then pure none
        else do
          modify (remember n)
          pure (match paths s n with
            | .ok _ => none
            | .error c => some (if isMissing c then "not found" else c.words))
      | _ => pure none
    match failure with
    | some why => modify (·.complain s!"{n}: {why}")
    | none => pure ()
    let status ← seek rest
    return if failure.isSome then 1 else status

/-- Shows where programs have been found, forgets it, or looks for programs. -/
def hash (args : List String) : Action Nat := do
  let t ← Options.ofCommand "r" "" args
  if t.has 'r' then
    modify fun s => { s with found := [] }
    return 0
  else if t.operands.isEmpty then
    modify fun s => (inOrder 31 s.found).foldl (fun s f =>
      s.say (if f.2.2 then f.2.1 ++ "*" else f.2.1)) s
    return 0
  else seek t.operands

/-! ## Names that stand for texts -/

/-- Shows what names stand for, or lets them stand for texts. -/
def aliasAll : List String → Action Nat
  | [] => return 0
  | w :: rest => do
    let name := w.toList.take 1 ++ (w.toList.drop 1).takeWhile (· != '=')
    let found ← match w.toList.drop name.length with
      | _ :: text => do
        let a := (String.ofList name, String.ofList text)
        modify fun s =>
          { s with aliases :=
              if s.aliases.any (·.1 == a.1) then
                s.aliases.map fun b => if b.1 == a.1 then a else b
              else s.aliases ++ [a] }
        pure true
      | [] => do
        let s ← get
        match s.aliases.lookup w with
        | some text =>
          set (s.say (aliasLine (w, text)))
          pure true
        | none =>
          set (s.warn s!"alias: {w} not found")
          pure false
    let status ← aliasAll rest
    return if found then status else 1

/-- Lets names stand for texts, or shows what they stand for. -/
def aliasNames (args : List String) : Action Nat := do
  if args.isEmpty then
    modify fun s => (inOrder 39 s.aliases).foldl (fun s a => s.say (aliasLine a)) s
    return 0
  else aliasAll args

/-- Lets names stand for themselves again. -/
def unaliasNames (args : List String) : Action Nat := do
  let t ← Options.ofCommand "a" "" args
  if t.has 'a' then
    modify fun s => { s with aliases := [] }
    return 0
  else
    let known := (← get).aliases
    let missing := t.operands.filter fun n => !known.any (·.1 == n)
    modify fun s =>
      let s := missing.foldl (fun s n => s.warn s!"unalias: {n} not found") s
      { s with aliases := s.aliases.filter fun a => !t.operands.contains a.1 }
    return if missing.isEmpty then 0 else 1

end GatedRelease.Shell.Lookup
