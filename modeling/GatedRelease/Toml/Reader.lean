import GatedRelease.Toml.Value

/-! Reading a text from its front: a reader takes what it recognises and leaves the rest. Blanks,
line ends and comments are here. -/
namespace GatedRelease.Toml

/-- Reads something from the front of a text. -/
abbrev Reader (α : Type) := StateT (List Char) (Except SyntaxError) α

namespace Reader

/-- A space or a tab. -/
def isSpace (c : Char) : Bool := c == ' ' || c == '\t'

/-- A character that may stand in a comment: any but controls, and the tab. -/
def isPlain (c : Char) : Bool := c == '\t' || (0x20 ≤ c.toNat && c.toNat != 0x7F)

/-- Leaves spaces and tabs behind. -/
def skipSpaces : Reader Unit := modify (·.dropWhile isSpace)

/-- The next character, left in place. -/
def peek? : Reader (Option Char) := return (← get).head?

/-- Takes one character. -/
def skipChar : Reader Unit := modify (·.drop 1)

/-- Takes this character, and no other. -/
def expect (c : Char) : Reader Unit := do
  match ← get with
  | d :: rest => if d == c then set rest else throw (.expected (String.singleton c))
  | [] => throw (.expected (String.singleton c))

/-- Takes a comment, if there is one, up to the end of its line. -/
def skipComment : Reader Unit := do
  match ← get with
  | '#' :: rest => set (rest.dropWhile isPlain)
  | _ => return

/-- Takes the end of a line, if there is one. -/
def newline? : Reader Bool := do
  match ← get with
  | '\n' :: rest => set rest; return true
  | '\r' :: '\n' :: rest => set rest; return true
  | _ => return false

/-- Takes the end of a line or finds the end of the text. -/
def lineEnd : Reader Unit := do
  if ← newline? then return
  match ← get with
  | [] => return
  | _ => throw (.expected "end of line")

/-- Takes the rest of a line on which nothing more is said. -/
def restOfLine : Reader Unit := do
  skipSpaces
  skipComment
  lineEnd

/-- The text after blanks, line ends and comments. A comment ends with its line. -/
def afterBlankLines (inComment : Bool) : List Char → Except SyntaxError (List Char)
  | [] => if inComment then .error (.expected "end of line") else .ok []
  | '\r' :: '\n' :: rest => afterBlankLines false rest
  | c :: rest =>
    if c == '\n' then afterBlankLines false rest
    else if inComment then
      if isPlain c then afterBlankLines true rest else .error (.expected "end of line")
    else if isSpace c then afterBlankLines false rest
    else if c == '#' then afterBlankLines true rest
    else .ok (c :: rest)

/-- Leaves blanks, line ends and comments behind. -/
def skipBlankLines : Reader Unit := do set (← afterBlankLines false (← get))

end Reader
end GatedRelease.Toml
