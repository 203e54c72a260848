import GatedRelease.Text.Octets

/-! How programs write the names of files into their messages: a name that a shell would take for
something else stands in quotes, and octets that cannot be seen are written as escapes. -/
namespace GatedRelease.Shell.FileName

/-- An octet that can be seen, or a space. -/
def isVisible (c : Char) : Bool := 32 ≤ c.toNat && c.toNat < 127

/-- An octet that makes quotes necessary wherever it stands. -/
def isMark (c : Char) : Bool := " !\"$&'()*:;<=>?[\\^`|".toList.contains c || !isVisible c

/-- A name that makes quotes necessary. -/
def needsQuotes (cs : List Char) : Bool :=
  match cs with
  | [] | ['\x7b'] | ['\x7d'] => true
  | c :: _ => c == '#' || c == '~' || cs.any isMark

/-- An octet that means nothing between double quotes. -/
def isHarmless (c : Char) : Bool := c.isAlphanum || "%+,-./:]_@' ".toList.contains c

/-- A name that can stand between double quotes. -/
def isHarmlessText (cs : List Char) : Bool :=
  match cs with
  | [] => true
  | c :: more => (c == '#' || c == '~' || isHarmless c) && more.all isHarmless

/-- The escape for an octet that cannot be seen. -/
def escape (c : Char) : List Char :=
  match c.toNat with
  | 7 => ['\\', 'a']
  | 8 => ['\\', 'b']
  | 9 => ['\\', 't']
  | 10 => ['\\', 'n']
  | 11 => ['\\', 'v']
  | 12 => ['\\', 'f']
  | 13 => ['\\', 'r']
  | n => '\\' :: [n / 64, n / 8 % 8, n % 8].map Nat.digitChar

/-- What stands between single quotes for octets; `escaping` says that the quotes are for escapes.
-/
def inQuotes : Bool → List Char → List Char
  | _, [] => []
  | escaping, c :: more =>
    if c == '\'' then "'\\''".toList ++ inQuotes false more
    else if isVisible c then (if escaping then ['\'', '\''] else []) ++ c :: inQuotes false more
    else (if escaping then [] else "'$'".toList) ++ escape c ++ inQuotes true more

/-- A name in quotes. -/
def quoted (name : String) : String :=
  let cs := name.toList
  if cs.contains '\'' && isHarmlessText cs then "\"" ++ name ++ "\""
  else "'" ++ String.ofList (inQuotes false cs) ++ "'"

/-- A name, in quotes if it needs them. -/
def shown (name : String) : String := if needsQuotes name.toList then quoted name else name

end GatedRelease.Shell.FileName
