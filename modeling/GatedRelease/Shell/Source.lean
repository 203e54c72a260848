import GatedRelease.Shell.Program

/-! The text of a program while it is read. A name may stand for a text; such a text is read in its
place as a layer of its own, in which the name stands for nothing but itself. Lines are counted, and
a backslash at the end of a line joins it with the next. -/
namespace GatedRelease.Shell.Parser

/-- The names that stand for texts. -/
abbrev Aliases := List (String × String)

/-- A text that is read in place of a name. -/
structure Layer where
  /-- The name, and those of layers that ended right before the text. -/
  names : List String
  /-- The text ends in a blank, so that the word behind it may stand for a text, too. -/
  open' : Bool
  /-- What follows the layer. -/
  below : List Char

/-- Words of the grammar and other things that a program is made of. -/
inductive Token
  | endOfFile
  | newline
  | semicolon
  | ampersand
  | doubleAmpersand
  | doubleBar
  | bar
  | opening
  | closing
  | endOfBranch
  | redirection
  | word
  | reserved (w : String)
deriving DecidableEq

/-- A text that stands below the line on which a redirection asks for it. -/
structure Document where
  number : Nat
  /-- The line that ends it. -/
  mark : List Char
  /-- Its lines lose the tabs at their front. -/
  stripped : Bool
  /-- Nothing is put into it. -/
  quoted : Bool

/-- Where a reader is. -/
structure State where
  line : Nat
  /-- The rest of the uppermost layer. -/
  text : List Char
  layers : List Layer
  /-- The layers that ended before the present character. -/
  spent : List String
  aliases : Aliases
  /-- A layer has ended in a blank. -/
  aliasNext : Bool
  /-- The last token, and whether it is read once more. -/
  token : Token
  again : Bool
  /-- The last word. -/
  word : Word
  /-- The last redirection: its descriptor, how it opens, and whether tabs are dropped. -/
  redirect : Nat × Opening × Bool
  /-- A word is read in which nothing is put in. -/
  marking : Bool
  /-- The document that is read. -/
  document : Option Document
  /-- Documents that are asked for. -/
  pending : List Document
  /-- Documents that have been read, the last one first. -/
  documents : List (Nat × Word)
  /-- How many documents have been asked for. -/
  asked : Nat
  /-- How deep documents stand in documents: here, and at most. -/
  depth : Nat
  deepest : Nat

/-- A reader at the start of a text. -/
def State.start (aliases : Aliases) (line : Nat) (text : List Char) : State where
  line := line
  text := text
  layers := []
  spent := []
  aliases := aliases
  aliasNext := false
  token := .newline
  again := false
  word := []
  redirect := (0, .input, false)
  marking := false
  document := none
  pending := []
  documents := []
  asked := 0
  depth := 0
  deepest := 0

/-- Reads something, or tells what is wrong and on which line. -/
abbrev Reader (α : Type) := StateT State (Except (Nat × String)) α

/-- How often a reader may repeat something. -/
def limit : Nat := 0x400000

/-- Fails at the present line. -/
def fail {α : Type} (message : String) : Reader α := do
  throw ((← get).line, s!"Syntax error: {message}")

/-- Goes on below the layers that are used up. -/
def State.above (s : State) : List Layer → State
  | [] => { s with layers := [] }
  | l :: more =>
    if s.text.isEmpty then
      { s with
        text := l.below
        spent := l.names ++ s.spent
        aliasNext := s.aliasNext || l.open' }.above more
    else { s with layers := l :: more }

/-- Leaves layers that are used up. -/
def State.settle (s : State) : State := if s.text.isEmpty then s.above s.layers else s

/-- The next character, which stays. -/
def peek : Reader (Option Char) := do
  modify State.settle
  return (← get).text.head?

/-- Leaves a character behind. -/
def advance : Reader Unit := modify fun s =>
  match s.text with
  | c :: cs => { s with text := cs, spent := [], line := if c == '\n' then s.line + 1 else s.line }
  | [] => s

/-- Takes a character. -/
def next : Reader (Option Char) := do
  let c ← peek
  advance
  return c

/-- Leaves joints of lines behind; the number bounds them. -/
def skipJoints : Nat → Reader Unit
  | 0 => return
  | fuel + 1 => do
    modify State.settle
    match (← get).text with
    | '\\' :: '\n' :: cs =>
      modify fun s => { s with text := cs, line := s.line + 1, spent := [] }
      skipJoints fuel
    | _ => return

/-- The next character behind joints of lines. -/
def peekJoined : Reader (Option Char) := do
  skipJoints limit
  peek

/-- Takes the characters of one kind that stand next, across joints of lines; the number bounds
their runs. -/
def take (kind : Char → Bool) : Nat → Reader (List Char)
  | 0 => return []
  | fuel + 1 => do
    match ← peekJoined with
    | none => return []
    | some c =>
      if kind c then
        let s ← get
        let run := s.text.takeWhile kind
        set { s with
          text := s.text.drop run.length
          spent := []
          line := s.line + run.countP (· == '\n') }
        return run ++ (← take kind fuel)
      else return []

/-- A space or a tab. -/
def isBlank (c : Char) : Bool := c == ' ' || c == '\t'

/-- A character that ends a word. -/
def isMeta (c : Char) : Bool :=
  isBlank c || c == '\n' || c == ';' || c == '&' || c == '|' || c == '<' || c == '>' || c == '(' ||
    c == ')'

/-- A letter or an underscore. -/
def isNameStart (c : Char) : Bool := c.isAlpha || c == '_'

/-- A character of a name. -/
def isNameChar (c : Char) : Bool := c.isAlphanum || c == '_'

/-- The text can be the name of a variable. -/
def isName (name : String) : Bool :=
  match name.toList with
  | c :: cs => isNameStart c && cs.all isNameChar
  | [] => false

/-- A parameter that is one mark. -/
def isSpecial (c : Char) : Bool :=
  c == '@' || c == '*' || c == '#' || c == '?' || c == '$' || c == '!' || c == '-'

/-- The quotation mark of a text of commands. -/
def backQuote : Char := Char.ofNat 96

end GatedRelease.Shell.Parser
