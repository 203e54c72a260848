import GatedRelease.Shell.Arithmetic
import GatedRelease.Shell.Pattern
import GatedRelease.Shell.Signal
import GatedRelease.Shell.State

/-! Expansion of words: parameters, results of commands and of arithmetic are put in; what came in
without quotes is split at separators; and patterns are replaced by the names that fit. -/
namespace GatedRelease.Shell.Expansion

/-- A part of an expanded word. -/
inductive Bit
  | glyph (g : Glyph)
  /-- Something quoted is here, even if it is empty. -/
  | keep
  /-- Here one argument ends and another begins. -/
  | cut
deriving DecidableEq

/-- Octets as bits. -/
def bitsOf (quoted expanded : Bool) (cs : List Char) : List Bit :=
  (if quoted then [.keep] else []) ++ cs.map fun c => .glyph ⟨c, quoted, expanded⟩

/-- Stands between arguments in the text of all of them. -/
def seam : Char := Char.ofNat 0

/-- Octets as bits, with a cut at every seam. -/
def bitsOfArguments (quoted : Bool) (cs : List Char) : List Bit :=
  (if quoted then [.keep] else []) ++ cs.flatMap fun c =>
    if c == seam then (if quoted then [.cut, .keep] else [.cut])
    else [.glyph ⟨c, quoted, true⟩]

/-- The octets of bits, nothing split. -/
def flatten (bits : List Bit) : String :=
  String.ofList (bits.filterMap fun
    | .glyph g => some g.char
    | _ => none)

/-- The octets at which words are split. -/
def separators (s : State) : List Char := ((s.value? "IFS").getD " \t\n").toList

/-- What stands between the arguments where all of them are put in. `split` says that they may
become several words. -/
def joint (s : State) (quoted split : Bool) (name : String) : String :=
  if split && (if quoted then name == "@" else (s.value? "IFS").isSome) then String.singleton seam
  else match s.value? "IFS" with
    | some ifs => String.ofList (ifs.toList.take 1)
    | none => " "

/-- The value of a parameter. -/
def valueOf (s : State) (quoted split : Bool) (name : String) : Option String :=
  if name == "@" || name == "*" then
    some (String.intercalate (joint s quoted split name) s.arguments)
  else if name == "#" then some (toString s.arguments.length)
  else if name == "?" then some (toString s.status)
  else if name == "$" then some (toString s.number)
  else if name == "!" then s.beside.map fun n => toString n
  else if name == "-" then some (Setting.letters s.settings)
  else if name.toList.all Char.isDigit then
    match name.toList.foldl (fun n c => 10 * n + (c.toNat - 48)) 0 with
    | 0 => some s.title
    | n + 1 => s.arguments[n]?
  else s.value? name

/-- The text without line feeds at its end, and without what no text can hold. -/
def outputText (bytes : Bytes) : List Char :=
  let cs := (Octets.ofBytes (bytes.filter (· != 0))).toList
  (cs.reverse.dropWhile (· == '\n')).reverse

/-- Runs a command in a shell of its own, and gets its output. -/
abbrev Substitute := Command → StateM State Bytes

/-- Where a tilde stands for a directory. -/
inductive Tildes
  | nowhere
  /-- At the start. -/
  | first
  /-- At the start, and behind colons. -/
  | value
  /-- Behind the first equals sign, and behind colons. -/
  | declaration
deriving DecidableEq

/-- The directory of a user. -/
def homeOf (s : State) (user : String) : Option String :=
  if user == "" then s.value? "HOME" else if user == "root" then some "/root" else none

/-- The bits of a text outside of quotes. `here` says that a tilde may stand for a directory next,
and `last` that nothing follows the text; the number bounds the octets. -/
def plainBits (s : State) (tildes : Tildes) (last : Bool) : Nat → Bool → List Char → List Bit
  | 0, _, _ => []
  | _, _, [] => []
  | fuel + 1, here, c :: cs =>
    let wide := tildes = .value || tildes = .declaration
    let user := cs.takeWhile fun c => c != '/' && !(wide && c == ':')
    let rest := cs.drop user.length
    match (if here && c == '~' && (last || !rest.isEmpty)
        then homeOf s (String.ofList user) else none) with
    | some home =>
      home.toList.map (fun c => .glyph ⟨c, true, true⟩) ++ plainBits s tildes last fuel false rest
    | none =>
      let (here, tildes) : Bool × Tildes :=
        if tildes = .declaration && c == '=' then (true, .value)
        else (wide && c == ':', tildes)
      .glyph ⟨c, false, false⟩ :: plainBits s tildes last fuel here cs

/-- The bits of a parameter's value. -/
def valueBits (s : State) (quoted : Bool) (name value : String) : List Bit :=
  if quoted && name == "@" && s.arguments.isEmpty then []
  else if name == "@" || name == "*" then bitsOfArguments quoted value.toList
  else bitsOf quoted true value.toList

/-- The bits as they are after an expansion. -/
def asExpanded (bits : List Bit) : List Bit :=
  bits.map fun
    | .glyph g => .glyph { g with expanded := true }
    | b => b

/-- The pattern that bits make. -/
def pattern (bits : List Bit) : List Glyph :=
  bits.filterMap fun
    | .glyph g => some g
    | _ => none

/-- The text without what fits a pattern at one end. A pattern sees the text up to a seam. -/
def trim (atEnd longest : Bool) (gs : List Glyph) (cs : List Char) : List Char :=
  if cs.contains seam then
    let sizes := List.range (cs.length + 1)
    let sizes := if longest then sizes.reverse else sizes
    let found := sizes.find? fun n =>
      Pattern.fits gs ((if atEnd then cs.drop (cs.length - n) else cs.take n).takeWhile (· != seam))
    match found with
    | none => cs
    | some n => if atEnd then cs.take (cs.length - n) else cs.drop n
  else Pattern.trim atEnd longest gs cs

/-- The value of an expression, whose assignments take place. -/
def compute (expression : String) : Action Int := do
  let s ← get
  match Arithmetic.evaluate (fun n => (valueOf s true false n).getD "") expression.toList with
  | .ok (n, assigned) =>
    for (name, value) in assigned.reverse do
      Action.assign name (toString value)
    return n
  | .error .overflow => throw (.killed Signal.arithmetic)
  | .error d => Action.fail (d.message expression)

mutual

/-- Expands a piece of a word. `split` says that the word may become several, `tildes` and `here`
where a tilde stands for a directory, and `last` that the piece is the last one. -/
def piece (run : Substitute) (split : Bool) (tildes : Tildes) (here last : Bool) :
    Piece → Action (List Bit)
  | .text true cs => return bitsOf true false cs
  | .text false cs => return plainBits (← get) tildes last cs.length here cs
  | .substitution quoted c => do
    let bytes ← run c
    return bitsOf quoted true (outputText bytes)
  | .arithmetic quoted expression => do
    let n ← compute (flatten (← pieces run false .nowhere false expression))
    return bitsOf quoted true (toString n).toList
  | .parameter quoted name treatment orEmpty inner => do
    let s ← get
    let value := valueOf s quoted split name
    let missing := value.isNone || (orEmpty && value == some "")
    let instead (tildes : Tildes) (split : Bool) : Action (List Bit) := do
      let bits ← pieces run split tildes true inner
      return if quoted then bits else asExpanded bits
    let itself : Action (List Bit) := do
      let s ← get
      return valueBits s quoted name ((valueOf s quoted split name).getD "")
    let within : Tildes := if quoted then .nowhere else .first
    let refuseUnset : Action Unit := do
      if value.isNone && s.isOn .nounset then Action.fail s!"{name}: parameter not set"
    match treatment with
    | .bad => Action.fail "Bad substitution"
    | .plain =>
      refuseUnset
      itself
    | .length =>
      refuseUnset
      return bitsOf quoted true (toString (value.getD "").length).toList
    | .useDefault => if missing then instead within split else itself
    | .useAlternative =>
      if missing then return if quoted then [.keep] else []
      else instead within split
    | .assignDefault =>
      if missing then
        let text := flatten (← instead within false)
        if !Parser.isName name then Action.fail s!"{name}: bad variable name"
        Action.assign name text
        itself
      else itself
    | .complain =>
      if missing then
        let text := flatten (← instead within false)
        if !inner.isEmpty then Action.fail s!"{name}: {text}"
        else if orEmpty then Action.fail s!"{name}: parameter not set or null"
        else Action.fail s!"{name}: parameter not set"
      else itself
    | .trim atEnd longest =>
      refuseUnset
      let bits ← pieces run false .first true inner
      let text := trim atEnd longest (pattern bits) (value.getD "").toList
      return valueBits s quoted name (String.ofList text)

/-- Expands the pieces of a word, one after the other. -/
def pieces (run : Substitute) (split : Bool) (tildes : Tildes) (here : Bool) :
    List Piece → Action (List Bit)
  | [] => return []
  | p :: rest => do
    let bits ← piece run split tildes here rest.isEmpty p
    let more ← pieces run split tildes false rest
    return bits ++ more

end

/-- A separator that joins with those beside it. -/
def isBlank (c : Char) : Bool := c == ' ' || c == '\t' || c == '\n'

/-- The fields of bits; `open'` is the field that is being read, and `soft` says that blanks have
ended the one before. -/
def fields (separators : List Char) (soft : Bool) (open' : Option (List Glyph)) :
    List Bit → List (List Glyph)
  | [] => open'.toList
  | .keep :: rest => fields separators false (some (open'.getD [])) rest
  | .cut :: rest => open'.toList ++ fields separators false none rest
  | .glyph g :: rest =>
    if g.expanded && !g.quoted && separators.contains g.char then
      if isBlank g.char then
        open'.toList ++ fields separators (soft || open'.isSome) none rest
      else
        (if soft then open'.toList else [open'.getD []]) ++ fields separators false none rest
    else fields separators false (some (open'.getD [] ++ [g])) rest

/-- Expands a word to one text. -/
def toText (run : Substitute) (tildes : Tildes) (w : Word) : Action String := do
  return flatten (← pieces run false tildes (tildes != .declaration) w)

/-- Expands a word to a pattern. -/
def toPattern (run : Substitute) (w : Word) : Action (List Glyph) := do
  return pattern (← pieces run false .first true w)

/-- Expands a word to as many texts as it stands for. -/
def toTexts (run : Substitute) (w : Word) : Action (List String) := do
  let bits ← pieces run true .first true w
  let s ← get
  let words := fields (separators s) false none bits
  return if s.isOn .noglob then words.map Pattern.chars
    else words.flatMap (Pattern.expand s.files)

/-- Expands words, one after the other. -/
def allTexts (run : Substitute) : List Word → Action (List String)
  | [] => return []
  | w :: rest => do
    let texts ← toTexts run w
    return texts ++ (← allTexts run rest)

end GatedRelease.Shell.Expansion
