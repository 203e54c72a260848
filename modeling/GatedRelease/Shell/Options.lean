import GatedRelease.Shell.State

/-! Options in arguments: letters behind a dash. Commands take theirs from the front of their own
arguments; `getopts` hands a program one option of its arguments at a time; and `set` turns settings
of the shell on and off. -/
namespace GatedRelease.Shell.Options

/-- Options from the front of arguments, each with what belongs to it, and the other arguments. -/
structure Taken where
  options : List (Char × String)
  operands : List String

namespace Taken

/-- An option was given. -/
def has (t : Taken) (c : Char) : Bool := t.options.any fun o => o.1 == c

/-- The taken options with others before them. -/
def before (options : List (Char × String)) (t : Taken) : Taken :=
  { t with options := options ++ t.options }

end Taken

/-- The plain options in a word, and one with the rest of the word as what belongs to it. -/
def letters (plain valued : List Char) :
    List Char → Except String (List Char × Option (Char × String))
  | [] => .ok ([], none)
  | c :: more =>
    if plain.contains c then (letters plain valued more).map fun (cs, v) => (c :: cs, v)
    else if valued.contains c then .ok ([], some (c, String.ofList more))
    else .error s!"Illegal option -{c}"

/-- Takes options from the front of arguments: plain ones, and those that something belongs to. -/
def take (plain valued : List Char) : List String → Except String Taken
  | [] => .ok ⟨[], []⟩
  | a :: rest =>
    match a.toList with
    | ['-', '-'] => .ok ⟨[], rest⟩
    | '-' :: c :: cs => do
      let (found, value) ← letters plain valued (c :: cs)
      let found := found.map fun c => (c, "")
      match value, rest with
      | none, rest => return (← take plain valued rest).before found
      | some (c, text), rest =>
        if text != "" then return (← take plain valued rest).before (found ++ [(c, text)])
        else match rest with
          | [] => throw s!"No arg for -{c} option"
          | v :: rest => return (← take plain valued rest).before (found ++ [(c, v)])
    | _ => .ok ⟨[], a :: rest⟩

/-- Takes the options of a command. -/
def ofCommand (plain valued : String) (args : List String) : Action Taken := do
  match take plain.toList valued.toList args with
  | .ok t => return t
  | .error message => Action.fail message

/-! ## Options of a program, one at a time -/

/-- What comes next among arguments. -/
inductive Next
  | none
  /-- An option without anything, or with what belongs to it. -/
  | option (c : Char) (argument : String)
  | unknown (c : Char)
  | missing (c : Char)
deriving DecidableEq

/-- What belongs to a letter in a row of letters, each with a colon behind it if something does: the
outer `none` says that the letter is not among them. -/
def wants? (c : Char) : List Char → Option Bool
  | [] => Option.none
  | d :: rest =>
    if d == c then some (rest.head? == some ':')
    else match rest with
      | ':' :: more => wants? c more
      | rest => wants? c rest

/-- The next option of arguments, and the place behind it. -/
def next (allowed : List Char) (arguments : List String) (place : OptionPlace) :
    Next × OptionPlace :=
  let read (index : Nat) (offset : Nat) (cs : List Char) : Next × OptionPlace :=
    let within (offset : Nat) : OptionPlace := ⟨index, some offset⟩
    match cs with
    | [] => (.none, ⟨index, Option.none⟩)
    | c :: more =>
      match wants? c allowed with
      | Option.none => (.unknown c, within (offset + 1))
      | some false => (.option c "", within (offset + 1))
      | some true =>
        if !more.isEmpty then (.option c (String.ofList more), ⟨index, Option.none⟩)
        else match arguments[index - 1]? with
          | some argument => (.option c argument, ⟨index + 1, Option.none⟩)
          | Option.none => (.missing c, within (offset + 1))
  let fresh : Next × OptionPlace :=
    match arguments[place.index - 1]? with
    | Option.none => (.none, ⟨place.index, Option.none⟩)
    | some a =>
      match a.toList with
      | ['-', '-'] => (.none, ⟨place.index + 1, Option.none⟩)
      | '-' :: c :: cs => read (place.index + 1) 1 (c :: cs)
      | _ => (.none, ⟨place.index, Option.none⟩)
  match place.offset with
  | Option.none => fresh
  | some offset =>
    let open' := ((arguments[place.index - 2]?).getD "").toList.drop offset
    if place.index ≤ 1 || open'.isEmpty then fresh else read place.index offset open'

/-- Puts the next option of arguments into a variable. -/
def getopts (args : List String) : Action Nat := do
  match args with
  | allowed :: name :: given =>
    let s ← get
    let arguments := if given.isEmpty then s.arguments else given
    let place := if s.optionPlace.index ≤ arguments.length + 1 then s.optionPlace else .start
    let (found, place) := next allowed.toList arguments place
    let quiet := allowed.toList.head? == some ':'
    let report (c : Char) (message : String) : Action Unit := do
      if quiet then Action.assign "OPTARG" (String.singleton c)
      else
        modify (·.warn message)
        Action.unset "OPTARG"
    let letter ← match found with
      | .none => pure '?'
      | .option c argument => do
        Action.assign "OPTARG" argument
        pure c
      | .unknown c => do
        report c s!"Illegal option -{c}"
        pure '?'
      | .missing c => do
        report c s!"No arg for -{c} option"
        pure (if quiet then ':' else '?')
    Action.assign "OPTIND" (toString place.index)
    if !Parser.isName name then Action.fail s!"{name}: bad variable name"
    Action.assign name (String.singleton letter)
    modify fun s => { s with optionPlace := place }
    return if found = .none then 1 else 0
  | _ => Action.fail "Usage: getopts optstring var [arg...]"

/-! ## Settings -/

/-- What becomes of settings, and what arguments are left. -/
structure Turned where
  settings : List Setting
  /-- Ways in which the settings are to be shown: as commands, or not. -/
  listings : List Bool
  /-- The arguments that are left, if there are to be new ones. -/
  arguments : Option (List String)
  /-- A program is given in the arguments. -/
  given : Bool

/-- Turns settings on or off by the letters of a word; says also whether a name is to follow. -/
def turnLetters (start on : Bool) : List Char → Turned → Except String (Turned × Nat)
  | [], t => .ok (t, 0)
  | c :: more, t =>
    if c == 'o' then (turnLetters start on more t).map fun (t, n) => (t, n + 1)
    else if start && c == 'c' then turnLetters start on more { t with given := true }
    else if start && c == 'l' then turnLetters start on more t
    else match Setting.ofLetter? c with
      | some x => turnLetters start on more { t with settings := Setting.turn on x t.settings }
      | none => .error s!"Illegal option -{c}"

/-- Turns a setting on or off by its name. Without a name the settings are to be shown. -/
def turnName (on : Bool) (name : Option String) (t : Turned) : Except String Turned :=
  match name with
  | none => .ok { t with listings := t.listings ++ [!on] }
  | some n =>
    match Setting.ofName? n with
    | some x => .ok { t with settings := Setting.turn on x t.settings }
    | none => .error s!"Illegal option -o {n}"

/-- Turns settings on or off by names; the number says how many. -/
def turnNames (on : Bool) : Nat → List String → Turned → Except String (Turned × List String)
  | 0, args, t => .ok (t, args)
  | n + 1, args, t => do
    let t ← turnName on args.head? t
    turnNames on n (args.drop 1) t

/-- Turns settings on and off as arguments say; the number bounds them. `start` says that they are
those with which the shell itself was started. -/
def turn (start : Bool) : Nat → List String → Turned → Except String Turned
  | 0, args, t => .ok { t with arguments := some args }
  | _, [], t => .ok t
  | fuel + 1, a :: rest, t =>
    let go (on : Bool) (cs : List Char) : Except String Turned := do
      let (t, names) ← turnLetters start on cs t
      let (t, rest) ← turnNames on names rest t
      turn start fuel rest t
    match a.toList with
    | ['-'] =>
      let t := if start then t
        else
          let settings := Setting.turn false .verbose t.settings
          { t with settings := Setting.turn false .xtrace settings }
      .ok { t with arguments := if rest.isEmpty then none else some rest }
    | ['-', '-'] => .ok { t with arguments := if rest.isEmpty && start then none else some rest }
    | '-' :: cs => go true cs
    | '+' :: cs => go false cs
    | _ => .ok { t with arguments := some (a :: rest) }

/-- Turns settings of the shell on and off, and replaces its arguments. -/
def set (args : List String) : Action Nat := do
  let s ← get
  match turn false (args.length + 1) args ⟨s.settings, [], none, false⟩ with
  | .error message => Action.fail message
  | .ok t =>
    modify fun s =>
      let s := t.listings.foldl (fun s asCommands =>
        (Setting.listing asCommands t.settings).foldl State.say s) { s with settings := t.settings }
      match t.arguments with
      | some arguments => { s with arguments := arguments, optionPlace := .start }
      | none => s
    return 0

end GatedRelease.Shell.Options
