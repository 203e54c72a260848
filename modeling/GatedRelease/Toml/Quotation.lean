import GatedRelease.Toml.Reader
import GatedRelease.Hash.Hex

/-! Strings of a configuration file. Basic strings, in double quotes, know escapes; literal
strings, in single quotes, do not. Either may stand in three quotes and then go over many lines; a
carriage return and line feed in them count as a line feed. -/
namespace GatedRelease.Toml.Quotation

/-- What is read so far, and the rest. -/
abbrev Taken := List Char × List Char

/-- The same, with characters in front. -/
def Taken.before (front : List Char) (t : Except SyntaxError Taken) : Except SyntaxError Taken :=
  t.map fun (taken, rest) => (front ++ taken, rest)

/-- The character that a one-letter escape stands for. -/
def escape? (c : Char) : Option Char :=
  if c == 'b' then some '\x08'
  else if c == 't' then some '\t'
  else if c == 'n' then some '\n'
  else if c == 'f' then some '\x0c'
  else if c == 'r' then some '\r'
  else if c == '"' then some '"'
  else if c == '\\' then some '\\'
  else none

/-- The character with the code point that the digits give. -/
def charOfHex (digits : List Char) : Except SyntaxError Char :=
  match digits.mapM Hex.value? with
  | none => .error .unknownEscape
  | some ds =>
    let n := ds.foldl (fun acc d => 16 * acc + d) 0
    if n.isValidChar then .ok (Char.ofNat n) else .error .unknownEscape

/-- The rest of a basic string on one line, after its first quote. -/
def basic : List Char → Except SyntaxError Taken
  | [] => .error (.expected "closing quote")
  | '"' :: rest => .ok ([], rest)
  | '\\' :: 'u' :: a :: b :: c :: d :: rest => do
    let ch ← charOfHex [a, b, c, d]
    Taken.before [ch] (basic rest)
  | '\\' :: 'U' :: a :: b :: c :: d :: e :: f :: g :: h :: rest => do
    let ch ← charOfHex [a, b, c, d, e, f, g, h]
    Taken.before [ch] (basic rest)
  | '\\' :: c :: rest =>
    match escape? c with
    | some ch => Taken.before [ch] (basic rest)
    | none => .error .unknownEscape
  | c :: rest =>
    if Reader.isPlain c && c != '\\' then Taken.before [c] (basic rest)
    else .error (.expected "character of a string")

/-- The rest of a literal string on one line, after its first quote. -/
def literal : List Char → Except SyntaxError Taken
  | [] => .error (.expected "closing quote")
  | '\'' :: rest => .ok ([], rest)
  | c :: rest =>
    if Reader.isPlain c then Taken.before [c] (literal rest)
    else .error (.expected "character of a string")

/-- Up to two of `quote`, which belong to the string although its closing quotes are read. -/
def trailingQuotes (quote : Char) : List Char → Taken
  | a :: b :: rest =>
    if a == quote && b == quote then ([a, b], rest)
    else if a == quote then ([a], b :: rest)
    else ([], a :: b :: rest)
  | a :: [] => if a == quote then ([a], []) else ([], [a])
  | [] => ([], [])

/-- Where a reader of a basic string of many lines is. -/
inductive Mode
  | text
  /-- After a backslash and blanks: the line has to end. -/
  | slash
  /-- After such a line end: blanks and line ends do not count. -/
  | trimming
deriving DecidableEq

/-- The rest of a basic string of many lines, after its first quotes. -/
def multiBasic (mode : Mode) : List Char → Except SyntaxError Taken
  | [] => .error (.expected "closing quotes")
  | '\r' :: '\n' :: rest =>
    if mode = .text then Taken.before ['\n'] (multiBasic .text rest)
    else multiBasic .trimming rest
  | '"' :: '"' :: '"' :: rest =>
    if mode = .slash then .error (.expected "end of line")
    else .ok (trailingQuotes '"' rest)
  | '\\' :: 'u' :: a :: b :: c :: d :: rest => do
    if mode = .slash then throw (.expected "end of line")
    let ch ← charOfHex [a, b, c, d]
    Taken.before [ch] (multiBasic .text rest)
  | '\\' :: 'U' :: a :: b :: c :: d :: e :: f :: g :: h :: rest => do
    if mode = .slash then throw (.expected "end of line")
    let ch ← charOfHex [a, b, c, d, e, f, g, h]
    Taken.before [ch] (multiBasic .text rest)
  | '\\' :: c :: rest =>
    if mode = .slash then .error (.expected "end of line")
    else match escape? c with
      | some ch => Taken.before [ch] (multiBasic .text rest)
      | none =>
        if Reader.isSpace c || c == '\n' || c == '\r' then multiBasic .slash (c :: rest)
        else .error .unknownEscape
  | c :: rest =>
    if c == '\n' then
      if mode = .text then Taken.before ['\n'] (multiBasic .text rest)
      else multiBasic .trimming rest
    else if Reader.isSpace c && mode ≠ .text then multiBasic mode rest
    else if mode = .slash then .error (.expected "end of line")
    else if Reader.isPlain c && c != '\\' then Taken.before [c] (multiBasic .text rest)
    else .error (.expected "character of a string")

/-- The rest of a literal string of many lines, after its first quotes. -/
def multiLiteral : List Char → Except SyntaxError Taken
  | [] => .error (.expected "closing quotes")
  | '\r' :: '\n' :: rest => Taken.before ['\n'] (multiLiteral rest)
  | '\'' :: '\'' :: '\'' :: rest => .ok (trailingQuotes '\'' rest)
  | c :: rest =>
    if Reader.isPlain c || c == '\n' then Taken.before [c] (multiLiteral rest)
    else .error (.expected "character of a string")

/-- The text without a line end at its front. -/
def dropNewline : List Char → List Char
  | '\n' :: rest => rest
  | '\r' :: '\n' :: rest => rest
  | cs => cs

/-- Reads a string on one line, as keys are. -/
def short : Reader String := do
  match ← get with
  | '"' :: rest => let (cs, rest) ← basic rest; set rest; return String.ofList cs
  | '\'' :: rest => let (cs, rest) ← literal rest; set rest; return String.ofList cs
  | _ => throw (.expected "quote")

/-- Reads any string. -/
def any : Reader String := do
  match ← get with
  | '"' :: '"' :: '"' :: rest =>
    let (cs, rest) ← multiBasic .text (dropNewline rest); set rest; return String.ofList cs
  | '\'' :: '\'' :: '\'' :: rest =>
    let (cs, rest) ← multiLiteral (dropNewline rest); set rest; return String.ofList cs
  | _ => short

end GatedRelease.Toml.Quotation
