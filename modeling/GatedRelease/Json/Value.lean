/-! JSON values with whole numbers, and their text: two spaces for each level, one item a line. An
object keeps its fields in order. -/
namespace GatedRelease.Json

/-- A JSON value. -/
inductive Value
  | null
  | boolean (b : Bool)
  | number (n : Int)
  | string (s : String)
  | array (items : List Value)
  | object (fields : List (String × Value))

/-- The last four hexadecimal digits of a number. -/
def fourDigits (n : Nat) : List Char :=
  let ds := Nat.toDigits 16 n
  List.replicate (4 - ds.length) '0' ++ ds

/-- How a character appears between quotes. -/
def escapeChar (c : Char) : List Char :=
  if c == '"' then ['\\', '"']
  else if c == '\\' then ['\\', '\\']
  else if c == '\n' then ['\\', 'n']
  else if c == '\r' then ['\\', 'r']
  else if c == '\t' then ['\\', 't']
  else if c == '\x08' then ['\\', 'b']
  else if c == '\x0c' then ['\\', 'f']
  else if c.toNat < 0x20 then ['\\', 'u'] ++ fourDigits c.toNat
  else [c]

/-- A text between quotes. -/
def quoted (s : String) : String :=
  String.ofList ('"' :: (s.toList.flatMap escapeChar ++ ['"']))

/-- The start of a line at a level. -/
def indent (level : Nat) : String := String.ofList (List.replicate (2 * level) ' ')

namespace Value

mutual

/-- The value in words, its inner lines at a level below `level`. -/
def render (level : Nat) : Value → String
  | .null => "null"
  | .boolean b => if b then "true" else "false"
  | .number n => toString n
  | .string s => quoted s
  | .array [] => "[]"
  | .array (v :: items) =>
    "[\n" ++ indent (level + 1) ++ v.render (level + 1) ++ renderItems (level + 1) items ++ "\n" ++
      indent level ++ "]"
  | .object [] => "\x7b\x7d"
  | .object ((k, v) :: fields) =>
    "\x7b\n" ++ indent (level + 1) ++ quoted k ++ ": " ++ v.render (level + 1) ++
      renderFields (level + 1) fields ++ "\n" ++ indent level ++ "\x7d"

/-- The items of an array after the first. -/
def renderItems (level : Nat) : List Value → String
  | [] => ""
  | v :: items => ",\n" ++ indent level ++ v.render level ++ renderItems level items

/-- The fields of an object after the first. -/
def renderFields (level : Nat) : List (String × Value) → String
  | [] => ""
  | (k, v) :: fields =>
    ",\n" ++ indent level ++ quoted k ++ ": " ++ v.render level ++ renderFields level fields

end

/-- The text of a value. -/
def pretty (v : Value) : String := v.render 0

/-- A text, or null. -/
def ofText? : Option String → Value
  | some s => .string s
  | none => .null

end Value
end GatedRelease.Json
