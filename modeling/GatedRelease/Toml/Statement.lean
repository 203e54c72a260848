import GatedRelease.Toml.Node
import GatedRelease.Toml.DateTime
import GatedRelease.Toml.Quotation

/-! The statements of a configuration file: headers, which open a table, and keys with values. A
value may hold values, at most 79 deep. -/
namespace GatedRelease.Toml

/-- A line that says something. -/
inductive Statement
  /-- Opens the table with this path. -/
  | header (path : List String)
  /-- Opens one more table of the array with this path. -/
  | arrayHeader (path : List String)
  /-- Gives a value to a key, whose path starts in the open table. -/
  | keyValue (path : List String) (key : String) (value : Value)

namespace Statement

/-- How deep values and keys may go, plus one. -/
def depthLimit : Nat := 80

/-- A character of a key without quotes. -/
def isBareChar (c : Char) : Bool :=
  ('a' ≤ c && c ≤ 'z') || ('A' ≤ c && c ≤ 'Z') || c.isDigit || c == '-' || c == '_'

/-- One part of a key. -/
def keyPart : Reader String := do
  match ← get with
  | c :: rest =>
    if c == '"' || c == '\'' then Quotation.short
    else if isBareChar c then
      set (rest.dropWhile isBareChar)
      return String.ofList (c :: rest.takeWhile isBareChar)
    else throw (.expected "key")
  | [] => throw (.expected "key")

/-- The parts of a key after the first, at most `count`. -/
def keyParts : Nat → Reader (List String)
  | 0 => throw .tooDeep
  | count + 1 => do
    Reader.skipSpaces
    let part ← keyPart
    Reader.skipSpaces
    if (← Reader.peek?) == some '.' then
      Reader.skipChar
      return part :: (← keyParts count)
    else return [part]

/-- A key: parts with dots between them, fewer than `depthLimit`. -/
def key : Reader (List String) := keyParts (depthLimit - 1)

/-- A key and its value, the key as the path to its last part and that part. -/
def assignment (value : Reader Value) : Reader (List String × String × Value) := do
  let parts ← key
  Reader.expect '='
  Reader.skipSpaces
  let v ← value
  return (parts.dropLast, parts.getLastD "", v)

/-- The values of an array after its bracket; `fuel` bounds their number. -/
def items (value : Reader Value) : Nat → Reader (List Value)
  | 0 => throw (.expected "]")
  | fuel + 1 => do
    Reader.skipBlankLines
    if (← Reader.peek?) == some ']' then
      Reader.skipChar
      return []
    else
      let v ← value
      Reader.skipBlankLines
      match ← Reader.peek? with
      | some ',' => Reader.skipChar; return v :: (← items value fuel)
      | some ']' => Reader.skipChar; return [v]
      | _ => throw (.expected "]")

/-- The keys of an inline table after its brace; `fuel` bounds their number. -/
def fields (value : Reader Value) : Nat → Reader (List (List String × String × Value))
  | 0 => throw (.expected "closing brace")
  | fuel + 1 => do
    let f ← assignment value
    Reader.skipSpaces
    match ← Reader.peek? with
    | some ',' => Reader.skipChar; return f :: (← fields value fuel)
    | some '\x7d' => Reader.skipChar; return [f]
    | _ => throw (.expected "closing brace")

/-- Reads one of the words for a truth value. -/
def boolean : Reader Value := do
  match ← get with
  | 't' :: 'r' :: 'u' :: 'e' :: rest => set rest; return .boolean true
  | 'f' :: 'a' :: 'l' :: 's' :: 'e' :: rest => set rest; return .boolean false
  | _ => throw (.expected "value")

/-- Reads a value that holds no others. -/
def scalar : Reader Value := do
  match ← get with
  | c :: rest =>
    if c == '"' || c == '\'' then return .string (← Quotation.any)
    else if c == 't' || c == 'f' then boolean
    else if DateTime.startsDate (c :: rest) || DateTime.startsTime (c :: rest) then
      DateTime.dateTime
    else Number.number
  | [] => throw (.expected "value")

/-- Reads an array after its bracket. -/
def array (inner : Reader Value) : Reader Value := do
  return .array (← items inner ((← get).length + 1))

/-- Reads an inline table after its brace. -/
def inlineTable (inner : Reader Value) : Reader Value := do
  Reader.skipSpaces
  if (← Reader.peek?) == some '\x7d' then
    Reader.skipChar
    return .table []
  else
    let fs ← fields inner ((← get).length + 1)
    let node ← fs.foldlM (fun t f => t.assign f.1 f.2.1 (.value f.2.2)) Node.root
    return node.toValue

/-- Reads a value that holds values at most `depth` deep. -/
def value : Nat → Reader Value
  | 0 => do
    let next ← Reader.peek?
    if next == some '[' || next == some '\x7b' then throw .tooDeep else scalar
  | depth + 1 => do
    match ← Reader.peek? with
    | some '[' => Reader.skipChar; array (value depth)
    | some '\x7b' => Reader.skipChar; inlineTable (value depth)
    | _ => scalar

/-- Reads a header after its first bracket. -/
def headerLine : Reader Statement := do
  match ← get with
  | '[' :: rest =>
    set rest
    let path ← key
    Reader.expect ']'
    Reader.expect ']'
    Reader.restOfLine
    return .arrayHeader path
  | _ =>
    let path ← key
    Reader.expect ']'
    Reader.restOfLine
    return .header path

/-- Reads a line that starts with `c`. -/
def line (c : Char) : Reader (Option Statement) := do
  if c == '#' then
    Reader.skipComment
    Reader.lineEnd
    return none
  else if c == '\n' || c == '\r' then
    if ← Reader.newline? then return none else throw (.expected "line feed")
  else if c == '[' then
    Reader.skipChar
    return some (← headerLine)
  else
    let (path, k, v) ← assignment (value (depthLimit - 1))
    Reader.restOfLine
    return some (.keyValue path k v)

/-- Reads all lines; `fuel` bounds their number. -/
def statementsWithin : Nat → Reader (List Statement)
  | 0 => throw (.expected "end of text")
  | fuel + 1 => do
    Reader.skipSpaces
    match ← Reader.peek? with
    | none => return []
    | some c =>
      match ← line c with
      | some s => return s :: (← statementsWithin fuel)
      | none => statementsWithin fuel

/-- The text without a byte order mark at its front. -/
def withoutMark : List Char → List Char
  | [] => []
  | c :: rest => if c.toNat = 0xFEFF then rest else c :: rest

/-- The statements of a text. Each line takes at least one character. -/
def ofText (text : List Char) : Except SyntaxError (List Statement) := do
  let cs := withoutMark text
  let (statements, _) ← (statementsWithin (cs.length + 1)).run cs
  return statements

end Statement
end GatedRelease.Toml
