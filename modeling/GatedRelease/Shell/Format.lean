import GatedRelease.Shell.Binary64

/-! Text with escapes and formats with conversions, as `echo` and `printf` write them. All texts are
octet texts. -/
namespace GatedRelease.Shell.Format

/-- An octal digit. -/
def isOctal (c : Char) : Bool := '0' ≤ c && c ≤ '7'

/-- The octet of octal digits. -/
def octal (ds : List Char) : Char :=
  Char.ofNat (ds.foldl (fun n c => 8 * n + (c.toNat - 48)) 0 % 256)

/-- The octet of a one-letter escape. -/
def letter? (c : Char) : Option Char :=
  match c with
  | 'a' => some '\x07'
  | 'b' => some '\x08'
  | 'e' => some '\x1b'
  | 'f' => some '\x0c'
  | 'n' => some '\n'
  | 'r' => some '\r'
  | 't' => some '\t'
  | 'v' => some '\x0b'
  | '\\' => some '\\'
  | _ => none

/-- What an escape stands for, and the rest. Up to three octal digits are an octet; where `mayLead`
is set, a zero may lead them. -/
def escape (mayLead : Bool) (c : Char) (more : List Char) : List Char × List Char :=
  match letter? c with
  | some d => ([d], more)
  | none =>
    if mayLead && c == '0' then
      let ds := (more.take 3).takeWhile isOctal
      ([octal ds], more.drop ds.length)
    else if isOctal c then
      let ds := c :: (more.take 2).takeWhile isOctal
      ([octal ds], more.drop (ds.length - 1))
    else (['\\'], c :: more)

/-- A text with its escapes read, and whether one of them ends all output; the number bounds the
octets. -/
def unescape : Nat → List Char → List Char × Bool
  | 0, _ => ([], false)
  | _, [] => ([], false)
  | fuel + 1, '\\' :: c :: more =>
    if c == 'c' then ([], true)
    else
      let (text, rest) := escape true c more
      let (later, ended) := unescape fuel rest
      (text ++ later, ended)
  | fuel + 1, c :: more =>
    let (later, ended) := unescape fuel more
    (c :: later, ended)

/-- The arguments with spaces between them and a line feed, escapes read. -/
def echo (arguments : List String) : List Char :=
  let (newline, arguments) := match arguments with
    | "-n" :: rest => (false, rest)
    | arguments => (true, arguments)
  let text := (String.intercalate " " arguments).toList
  let (written, ended) := unescape (text.length + 1) text
  if newline && !ended then written ++ ['\n'] else written

/-- A conversion of a format. -/
structure Conversion where
  flags : List Char
  width : Nat
  precision : Option Nat
  letter : Char

namespace Conversion

/-- The conversion has a flag. -/
def has (c : Conversion) (flag : Char) : Bool := c.flags.contains flag

/-- A mark and a text behind it in as much room as asked for; zeros may fill it between the two. -/
def place (c : Conversion) (zeros : Bool) (mark text : List Char) : List Char :=
  let fill := c.width - (mark.length + text.length)
  if c.has '-' then mark ++ text ++ List.replicate fill ' '
  else if zeros && c.has '0' then mark ++ List.replicate fill '0' ++ text
  else List.replicate fill ' ' ++ mark ++ text

/-- The sign of a number. -/
def sign (c : Conversion) (negative : Bool) : List Char :=
  if negative then ['-'] else if c.has '+' then ['+'] else if c.has ' ' then [' '] else []

/-- A whole number: its mark and its magnitude in a base. -/
def whole (c : Conversion) (mark : List Char) (base n : Nat) : List Char :=
  let ds := if n = 0 && c.precision = some 0 then [] else Nat.toDigits base n
  let ds := List.replicate (c.precision.getD 0 - ds.length) '0' ++ ds
  let ds := if base = 8 && c.has '#' && ds.head? != some '0' then '0' :: ds else ds
  let ds := if c.letter == 'X' then ds.map Char.toUpper else ds
  c.place c.precision.isNone mark ds

/-- A text, cut where the precision says so. -/
def text (c : Conversion) (cs : List Char) : List Char :=
  c.place false [] (match c.precision with
    | some p => cs.take p
    | none => cs)

/-- A binary number. -/
def binary (c : Conversion) (negative : Bool) (x : Binary64) : List Char :=
  let ds := x.render c.letter (c.has '#') c.precision
  match x, ds with
  | .finite .., '0' :: x :: more =>
    if c.letter == 'a' || c.letter == 'A' then c.place true (c.sign negative ++ ['0', x]) more
    else c.place true (c.sign negative) ds
  | .finite .., _ => c.place true (c.sign negative) ds
  | _, _ => c.place false (c.sign negative) ds

end Conversion

/-- What is left to do, and what has come up. -/
structure State where
  format : List Char
  arguments : List String
  /-- What is wrong with arguments, the last first. -/
  complaints : List String

/-- Writes something, may end all output, or fails for a reason. -/
abbrev Writer (α : Type) := ExceptT (Option String) (StateM (State × List Char)) α

namespace Writer

/-- Writes octets. -/
def write (cs : List Char) : Writer Unit := modify fun (s, out) => (s, cs.reverse ++ out)

/-- The next argument, if there is any. -/
def argument? : Writer (Option String) := do
  let (s, out) ← get
  set ({ s with arguments := s.arguments.drop 1 }, out)
  return s.arguments.head?

/-- Says that an argument is not what it should be. -/
def complain (message : String) : Writer Unit :=
  modify fun (s, out) => ({ s with complaints := message :: s.complaints }, out)

/-- Leaves what has been read of the format behind. -/
def goOn (rest : List Char) : Writer Unit := modify fun (s, out) => ({ s with format := rest }, out)

/-- Complains unless an argument has been read to its end as a number in range. -/
def check (argument : String) (rest : List Char) (fits : Bool) : Writer Unit := do
  if !rest.isEmpty then
    complain s!"{argument}: not completely converted"
  else if !fits then complain s!"{argument}: Numerical result out of range"

/-- The number of the character behind a quotation mark. -/
def code? (argument : String) : Option Nat :=
  match argument.toList with
  | '\'' :: more | '"' :: more => some (more.headD (Char.ofNat 0)).toNat
  | _ => none

/-- The numeral that an argument is. -/
def numeral (fits : Numeral → Bool) : Writer Numeral := do
  let argument := (← argument?).getD ""
  match code? argument with
  | some n => return ⟨false, n, []⟩
  | none =>
    match Numeral.read? none argument.toList with
    | some n =>
      check argument n.rest (fits n)
      return n
    | none =>
      if argument != "" then complain s!"{argument}: expected numeric value"
      return ⟨false, 0, []⟩

/-- The binary number that an argument is, and whether it is negative. -/
def binary : Writer (Bool × Binary64) := do
  let argument := (← argument?).getD ""
  match code? argument with
  | some n => return (false, (Binary64.ofFraction n 1).1)
  | none =>
    match Binary64.read? argument.toList with
    | some n =>
      check argument n.rest (!n.outOfRange)
      return (n.negative, n.value)
    | none =>
      if argument != "" then complain s!"{argument}: expected numeric value"
      return (false, .finite 0 0)

/-- A number in a conversion: digits, or a star for an argument. -/
def amount (cs : List Char) : Writer (Int × List Char) := do
  match cs with
  | '*' :: rest => return ((← numeral Numeral.fits).clamped, rest)
  | cs =>
    let ds := cs.takeWhile Char.isDigit
    return (ds.foldl (fun n c => 10 * n + ((c.toNat - 48 : Nat) : Int)) 0, cs.drop ds.length)

/-- Reads a conversion after its percent sign. -/
def conversion (cs : List Char) : Writer Conversion := do
  let isFlag (c : Char) : Bool := c == '-' || c == '0' || c == '+' || c == ' ' || c == '#'
  let flags := cs.takeWhile isFlag
  let (width, rest) ← amount (cs.drop flags.length)
  let flags := if width < 0 then '-' :: flags else flags
  let (precision, rest) ← match rest with
    | '.' :: more => do
      let (p, rest) ← amount more
      pure (if p < 0 then none else some p.toNat, rest)
    | rest => pure (none, rest)
  match rest with
  | c :: more =>
    if !"abcdefgiosuxAEFGX".toList.contains c then
      let read := String.ofList (cs.take (cs.length - more.length))
      throw (some s!"%{read}: invalid directive")
    goOn more
    return ⟨flags, width.natAbs, precision, c⟩
  | [] => throw (some "missing format character")

/-- Writes what a conversion makes of an argument. -/
def convert (c : Conversion) : Writer Unit := do
  match c.letter with
  | 's' => write (c.text ((← argument?).getD "").toList)
  | 'b' =>
    let text := ((← argument?).getD "").toList
    let (written, ended) := unescape (text.length + 1) text
    write (c.text written)
    if ended then throw none
  | 'c' => write (c.place false [] [((← argument?).getD "").toList.headD (Char.ofNat 0)])
  | 'd' | 'i' =>
    let n := (← numeral Numeral.fits).clamped
    write (c.whole (c.sign (n < 0)) 10 n.natAbs)
  | 'o' => write (c.whole [] 8 (← numeral Numeral.fitsUnsigned).unsigned)
  | 'u' => write (c.whole [] 10 (← numeral Numeral.fitsUnsigned).unsigned)
  | 'x' | 'X' =>
    let n := (← numeral Numeral.fitsUnsigned).unsigned
    write (c.whole (if c.has '#' && n != 0 then ['0', c.letter] else []) 16 n)
  | _ =>
    let (negative, x) ← binary
    write (c.binary negative x)

/-- Passes over the format; the number bounds its octets. -/
def pass : Nat → Writer Unit
  | 0 => return
  | fuel + 1 => do
    match (← get).1.format with
    | [] => return
    | '\\' :: c :: more =>
      let (text, rest) := escape false c more
      write text
      goOn rest
    | '%' :: '%' :: more =>
      write ['%']
      goOn more
    | '%' :: more => convert (← conversion more)
    | c :: more =>
      write [c]
      goOn more
    pass fuel

/-- Passes over a format as long as that uses up arguments; the number bounds the passes. -/
def passes (format : List Char) : Nat → Writer Unit
  | 0 => return
  | fuel + 1 => do
    let before := (← get).1.arguments
    goOn format
    pass (format.length + 1)
    let after := (← get).1.arguments
    if !after.isEmpty && after.length < before.length then passes format fuel

end Writer

/-- What a format and its arguments come to. -/
structure Written where
  text : List Char
  complaints : List String
  /-- Why it ended before it was done. -/
  failure : Option String

/-- Writes arguments by a format. -/
def write (format : String) (arguments : List String) : Written :=
  let passes := Writer.passes format.toList (arguments.length + 1)
  let (result, s, out) := passes.run (⟨[], arguments, []⟩, [])
  let failure := match result with
    | .error reason => reason
    | .ok () => none
  ⟨out.reverse, s.complaints.reverse, failure⟩

end GatedRelease.Shell.Format
