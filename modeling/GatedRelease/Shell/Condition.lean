import GatedRelease.Shell.System
import GatedRelease.Shell.Numeral
import GatedRelease.Text.Octets

/-! Conditions, as `test` decides them: words are compared, or files are looked at. With three or
four words the middle or the first one decides how they are read. -/
namespace GatedRelease.Shell.Condition

/-- Operators between two operands. -/
def binaryOperators : List String :=
  ["=", "!=", "<", ">", "-eq", "-ne", "-ge", "-gt", "-le", "-lt", "-nt", "-ot", "-ef"]

/-- Operators before an operand. -/
def unaryOperators : List String :=
  ["-r", "-w", "-x", "-e", "-f", "-d", "-c", "-b", "-p", "-u", "-g", "-k", "-s", "-t", "-z", "-n",
    "-h", "-O", "-G", "-L", "-S"]

/-- How a word is read. -/
inductive Token
  | nothing
  | operand
  | unary (operator : String)
  | binary (operator : String)
  | both
  | either
  | negation
  | opening
  | closing
deriving DecidableEq

/-- Reads the word at the front. An operator with nothing to act on is an operand. -/
def token : List String → Token
  | [] => .nothing
  | w :: rest =>
    if binaryOperators.contains w then .binary w
    else if unaryOperators.contains w then
      match rest with
      | [] => .operand
      | [_] => .unary w
      | next :: _ => if binaryOperators.contains next then .operand else .unary w
    else match w with
      | "-a" => .both
      | "-o" => .either
      | "!" => .negation
      | "(" => if rest.isEmpty then .operand else .opening
      | ")" => .closing
      | _ => .operand

/-- The number that an operand is. -/
def number (s : String) : Except String Int :=
  match Numeral.whole? (some 10) s with
  | some n => .ok n
  | none => .error s!"Illegal number: {s}"

/-- The location that an operand leads to. -/
def place? (fs : FileSystem) (a : String) : Option Location :=
  (fs.canonical (Octets.decode a)).toOption

/-- Compares two operands. -/
def relate (fs : FileSystem) (operator a b : String) : Except String Bool :=
  let numbers (p : Int → Int → Bool) : Except String Bool := do
    let n ← number a
    return p n (← number b)
  match operator with
  | "=" => .ok (a == b)
  | "!=" => .ok (a != b)
  | "<" => .ok (a < b)
  | ">" => .ok (b < a)
  | "-eq" => numbers (· == ·)
  | "-ne" => numbers (· != ·)
  | "-ge" => numbers (· ≥ ·)
  | "-gt" => numbers (· > ·)
  | "-le" => numbers (· ≤ ·)
  | "-lt" => numbers (· < ·)
  | "-ef" => .ok (match place? fs a, place? fs b with
      | some l, some m => l = m
      | _, _ => false)
  | _ => .ok false

/-- Looks at an operand, or at the file that it names. -/
def inspect (fs : FileSystem) (operator a : String) : Except String Bool :=
  let place := place? fs a
  let device := place.bind System.device?
  let entry : Option Entry := if device.isSome then none else place.bind fs.tree.find?
  match operator with
  | "-n" => .ok (a != "")
  | "-z" => .ok (a == "")
  | "-t" => (number a).map fun _ => false
  | "-e" | "-r" | "-w" | "-O" | "-G" => .ok place.isSome
  | "-c" => .ok device.isSome
  | "-f" => .ok (match entry with
    | some (.file ..) => true
    | _ => false)
  | "-d" => .ok (entry = some .directory)
  | "-x" => .ok (match entry with
    | some (.file _ x) => x
    | some .directory => true
    | _ => false)
  | "-s" => .ok (match entry with
    | some (.file bytes _) => !bytes.isEmpty
    | some _ => true
    | none => false)
  | "-L" | "-h" => .ok (match fs.entryAt (Octets.decode a) with
    | .ok (.link _) => true
    | _ => false)
  | _ => .ok false

/-- A truth, and the words from the last one that it was read from. -/
abbrev Reading := Except String (Bool × List String)

/-- Reads a comparison, a look at an operand, or a condition in brackets, which `inner` reads. -/
def primary (fs : FileSystem) (inner : List String → Reading) (words : List String) : Reading :=
  match token words, words with
  | .nothing, _ | _, [] => .ok (false, words)
  | .opening, _ :: rest =>
    if token rest = .closing then .ok (false, rest)
    else do
      let (value, last) ← inner rest
      match last.drop 1 with
      | ")" :: more => return (value, ")" :: more)
      | _ => throw "closing paren expected"
  | .unary operator, _ :: rest =>
    match rest with
    | a :: _ => (inspect fs operator a).map fun b => (b, rest)
    | [] => .error s!"{operator}: argument expected"
  | _, a :: rest =>
    match token rest, rest with
    | .binary operator, _ :: b :: more => do
      return (← relate fs operator a b, b :: more)
    | .binary operator, _ => .error s!"{operator}: argument expected"
    | _, _ => .ok (a != "", words)

/-- Reads a condition, perhaps behind exclamation marks; `fuel` bounds their number. -/
def negatable (primary : List String → Reading) : Nat → List String → Reading
  | 0, words => primary words
  | fuel + 1, words =>
    if token words = .negation then
      if words.length ≤ 1 then .ok (true, words)
      else (negatable primary fuel (words.drop 1)).map fun (value, last) => (!value, last)
    else primary words

/-- Reads conditions with a word between them that `joint` is; `fuel` bounds their number. -/
def joined (condition : List String → Reading) (joint : Token) (join : Bool → Bool → Bool) :
    Nat → List String → Reading
  | 0, words => condition words
  | fuel + 1, words => do
    let (value, last) ← condition words
    if token (last.drop 1) = joint then
      let (more, last) ← joined condition joint join fuel (last.drop 2)
      return (join value more, last)
    else return (value, last)

/-- Reads a condition in which brackets are nested at most `depth` deep. -/
def read (fs : FileSystem) : Nat → List String → Reading
  | 0, words => .ok (false, words)
  | depth + 1, words =>
    let size := words.length
    let one := negatable (primary fs (read fs depth)) size
    joined (joined one .both (· && ·) size) .either (· || ·) size words

/-- Reads all words. -/
def whole (fs : FileSystem) (words : List String) : Except String Bool := do
  match ← read fs (words.length + 1) words with
  | (_, last :: _ :: _) => throw s!"{last}: unexpected operator"
  | (value, _) => return value

/-- Decides words, whose form their number may tell. -/
def byCount (fs : FileSystem) (words : List String) : Except String Bool :=
  match words with
  | [] => .ok false
  | [a, operator, b] => if binaryOperators.contains operator then relate fs operator a b else bare
  | [_, _, _, _] => bare
  | _ => whole fs words
where
  /-- Decides what may stand in brackets. -/
  bare : Except String Bool :=
    match words with
    | "(" :: rest => if rest.getLast? == some ")" then whole fs rest.dropLast else whole fs words
    | _ => whole fs words

/-- The condition that words make holds. An exclamation mark in front of two or three words turns it
round, where these are not a comparison; so do two of them. -/
def holds (fs : FileSystem) (words : List String) : Except String Bool :=
  let compares (words : List String) : Bool :=
    match words with
    | [_, operator, _] => binaryOperators.contains operator
    | _ => false
  let turned (words : List String) : Bool :=
    words.head? == some "!" && (words.length = 3 || words.length = 4) && !compares words
  if turned words then
    let rest := words.drop 1
    (byCount fs (if turned rest then rest.drop 1 else rest)).map not
  else byCount fs words

end GatedRelease.Shell.Condition
