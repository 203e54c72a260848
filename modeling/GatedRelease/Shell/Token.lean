import GatedRelease.Shell.Reader

/-! Tokens of the command shell: words, the words of its grammar, marks between commands, and
redirections. A line feed brings in the documents that its line asks for. -/
namespace GatedRelease.Shell.Parser

/-- The words of the grammar. -/
def reserved : List String :=
  ["!", "case", "do", "done", "elif", "else", "esac", "fi", "for", "if", "in", "then", "until",
    "while", "\x7b", "\x7d"]

namespace Token

/-- A token in complaints. -/
def text : Token → String
  | endOfFile => "end of file"
  | newline => "newline"
  | semicolon => "\";\""
  | ampersand => "\"&\""
  | doubleAmpersand => "\"&&\""
  | doubleBar => "\"||\""
  | bar => "\"|\""
  | opening => "\"(\""
  | closing => "\")\""
  | endOfBranch => "\";;\""
  | redirection => "redirection"
  | word => "word"
  | reserved w => "\"" ++ w ++ "\""

/-- The token ends a list of commands. -/
def endsList : Token → Bool
  | endOfFile | closing | endOfBranch => true
  | reserved w => ["do", "done", "elif", "else", "esac", "fi", "then", "\x7d"].contains w
  | _ => false

end Token

/-- Fails because the last token stands where it cannot. -/
def unexpected {α : Type} (wanted : Option Token) : Reader α := do
  let found := (← get).token.text
  match wanted with
  | none => fail s!"{found} unexpected"
  | some t =>
    let wanted := t.text
    fail s!"{found} unexpected (expecting {wanted})"

/-- Has the last token read once more. -/
def readAgain : Reader Unit := modify fun s => { s with again := true }

/-- Leaves blanks and a comment behind; the number bounds them. -/
def skipBlanks : Nat → Reader Unit
  | 0 => return
  | fuel + 1 => do
    match ← peekJoined with
    | some c =>
      if isBlank c then
        advance
        skipBlanks fuel
      else if c == '#' then
        let s ← get
        set { s with text := s.text.dropWhile (· != '\n'), spent := [] }
        skipBlanks fuel
      else return
    | none => return

/-- Takes a mark if it stands next. -/
def takeMark (mark : Char) : Reader Bool := do
  if (← peekJoined) == some mark then
    advance
    return true
  else return false

/-- Reads what follows the descriptor of a redirection. -/
def redirection (descriptor : Option Nat) : Reader Token := do
  let make (default : Nat) (opening : Opening) (stripped : Bool) : Reader Token := do
    modify fun s => { s with redirect := (descriptor.getD default, opening, stripped) }
    return .redirection
  if ← takeMark '>' then
    if ← takeMark '>' then make 1 .appending false
    else if ← takeMark '|' then make 1 .clobbering false
    else if ← takeMark '&' then make 1 .copy false
    else make 1 .output false
  else
    advance
    if ← takeMark '<' then make 0 .document (← takeMark '-')
    else if ← takeMark '&' then make 0 .copy false
    else if ← takeMark '>' then make 0 .both false
    else make 0 .input false

/-- The descriptor that a word in front of a redirection is. -/
def descriptor? : Word → Option (Option Nat)
  | [] => some none
  | [.text false [c]] => if c.isDigit then some (some (c.toNat - 48)) else none
  | _ => none

/-- Reads a token that is not a word of the grammar. -/
def scan (inner : Inner) : Reader Token := do
  skipBlanks limit
  let mark (t : Token) : Reader Token := do
    advance
    return t
  match ← peekJoined with
  | none => return .endOfFile
  | some '\n' => mark .newline
  | some '(' => mark .opening
  | some ')' => mark .closing
  | some '&' =>
    advance
    return if ← takeMark '&' then .doubleAmpersand else .ampersand
  | some '|' =>
    advance
    return if ← takeMark '|' then .doubleBar else .bar
  | some ';' =>
    advance
    return if ← takeMark ';' then .endOfBranch else .semicolon
  | some _ =>
    let w ← Parser.word inner
    let next ← peekJoined
    match descriptor? w with
    | some d =>
      if next == some '<' || next == some '>' then redirection d
      else
        modify fun s => { s with word := w }
        return .word
    | none =>
      modify fun s => { s with word := w }
      return .word

/-- The last token, if it is to be read once more, or the next one. -/
def rawToken (inner : Inner) : Reader Token := do
  let s ← get
  if s.again then
    set { s with again := false }
    return s.token
  else
    let t ← scan inner
    modify fun s => { s with token := t }
    return t

/-- Reads the documents that have been asked for. -/
def documentsBelow (inner : Inner) : Reader Unit := do
  let wanted := (← get).pending
  modify fun s => { s with
    pending := []
    depth := s.depth + 1
    deepest := if wanted.isEmpty then s.deepest else max s.deepest (s.depth + 1) }
  for d in wanted do
    let body ← document inner d
    modify fun s => { s with documents := (d.number, body) :: s.documents }
  modify fun s => { s with depth := s.depth - 1 }

/-- What a reader of tokens looks for. -/
structure Look where
  /-- Line feeds are left behind. -/
  lines : Bool
  /-- Words of the grammar. -/
  reserved : Bool
  /-- Names that stand for texts. -/
  aliases : Bool

/-- Any token as it is. -/
def Look.plain : Look := ⟨false, false, false⟩

/-- The start of a command, perhaps on another line. -/
def Look.start : Look := ⟨true, true, true⟩

/-- The start of a command on the same line. -/
def Look.here : Look := ⟨false, true, true⟩

/-- Leaves line feeds behind, from the token on; the number bounds them. -/
def skipLines (inner : Inner) : Nat → Token → Reader Token
  | 0, t => return t
  | fuel + 1, t => do
    if t = .newline then
      documentsBelow inner
      modify fun s => { s with aliasNext := false }
      skipLines inner fuel (← rawToken inner)
    else return t

/-- Puts the text of a name in front of what follows. -/
def pushLayer (name text : String) : Reader Unit := modify fun s =>
  if text.isEmpty then s
  else { s with
    text := text.toList
    layers :=
      ⟨name :: s.spent, (text.toList.getLast?).any isBlank, s.text⟩ :: s.layers
    spent := [] }

/-- The text that a name stands for, unless it is just being read. -/
def layerFor? (s : State) (name : String) : Option String :=
  if s.spent.contains name || s.layers.any (fun l => l.names.contains name) then none
  else s.aliases.lookup name

/-- Reads a token; the number bounds the names that stand for texts. -/
def tokenWithin (inner : Inner) (look : Look) : Nat → Reader Token
  | 0 => fail "Word too long"
  | fuel + 1 => do
    let t ← rawToken inner
    let t ← if look.lines then skipLines inner limit t else pure t
    let s ← get
    let look := { look with aliases := look.aliases || s.aliasNext }
    set { s with aliasNext := false }
    match t, s.word.plain? with
    | .word, some w =>
      if look.reserved && Parser.reserved.contains w then
        modify fun s => { s with token := .reserved w }
        return .reserved w
      else match (if look.aliases then layerFor? s w else none) with
        | some text =>
          pushLayer w text
          tokenWithin inner look fuel
        | none => return t
    | _, _ => return t

/-- Reads a token. -/
def token (inner : Inner) (look : Look) : Reader Token := tokenWithin inner look limit

/-- Reads a token that has to be a certain one. -/
def expect (inner : Inner) (look : Look) (t : Token) : Reader Unit := do
  if (← token inner look) != t then unexpected (some t)

/-- Reads the target of the redirection that has just been read. -/
def redirect (inner : Inner) (known : List (Nat × Word)) : Reader (Redirect Word) := do
  let (descriptor, opening, stripped) := (← get).redirect
  if opening = .document then
    modify fun s => { s with marking := true }
  if (← token inner .plain) != .word then unexpected none
  modify fun s => { s with marking := false }
  let s ← get
  if opening = .document then
    let d : Document := ⟨s.asked, s.word.literal, stripped, s.word.hasQuotes⟩
    set { s with asked := s.asked + 1, pending := s.pending ++ [d] }
    return ⟨descriptor, opening, (known.lookup s.asked).getD []⟩
  else return ⟨descriptor, opening, s.word⟩

/-- Reads redirections. -/
def redirects (inner : Inner) (known : List (Nat × Word)) : Nat → Reader (List (Redirect Word))
  | 0 => return []
  | fuel + 1 => do
    if (← token inner .here) = .redirection then
      let r ← redirect inner known
      return r :: (← redirects inner known fuel)
    else
      readAgain
      return []

end GatedRelease.Shell.Parser
