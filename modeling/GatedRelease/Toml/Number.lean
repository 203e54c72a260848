import GatedRelease.Toml.Reader
import GatedRelease.Hash.Hex

/-! Numbers of a configuration file. An integer fits 64 bits with sign; a float is kept as written,
but one above all doubles is refused, while one below them all is not. Underscores may stand between
digits. -/
namespace GatedRelease.Toml.Number

/-- The digits after the first, with underscores between them. -/
def moreDigits (isDigit : Char → Bool) : List Char → Except SyntaxError (List Char × List Char)
  | [] => .ok ([], [])
  | '_' :: c :: rest =>
    if isDigit c then (moreDigits isDigit rest).map fun (ds, r) => (c :: ds, r)
    else .error .badNumber
  | c :: rest =>
    if c == '_' then .error .badNumber
    else if isDigit c then (moreDigits isDigit rest).map fun (ds, r) => (c :: ds, r)
    else .ok ([], c :: rest)

/-- One digit or more. -/
def digits (isDigit : Char → Bool) : Reader (List Char) := do
  match ← get with
  | c :: rest =>
    if isDigit c then
      let (ds, rest) ← moreDigits isDigit rest
      set rest
      return c :: ds
    else throw .badNumber
  | [] => throw .badNumber

/-- The number that digits give in a base. -/
def valueOf (base : Nat) (ds : List Char) : Nat :=
  ds.foldl (fun acc c => base * acc + (Hex.value? c).getD 0) 0

/-- A digit of a base up to 16. -/
def isDigitOf (base : Nat) (c : Char) : Bool :=
  match Hex.value? c with
  | some d => d < base
  | none => false

/-- Digits without a zero in front, unless it is the only one. -/
def plainDigits : Reader (List Char) := do
  match ← get with
  | '0' :: rest => set rest; return ['0']
  | _ => digits Char.isDigit

/-- An integer, if 64 bits hold it. -/
def integer (n : Int) : Except SyntaxError Value :=
  if -0x8000000000000000 ≤ n ∧ n < 0x8000000000000000 then .ok (.integer n) else .error .outOfRange

/-- The decimal number is so large that the nearest double is infinite: at least half a unit above
the largest one. -/
def overflows (mantissa : Nat) (exponent : Int) : Bool :=
  let width := (Nat.toDigits 10 mantissa).length
  if mantissa = 0 then false
  else if exponent + width > 400 then true
  else if exponent ≥ 0 then mantissa * Nat.pow 10 exponent.toNat ≥ Nat.pow 2 1024 - Nat.pow 2 970
  else if exponent + width < 300 then false
  else mantissa ≥ (Nat.pow 2 1024 - Nat.pow 2 970) * Nat.pow 10 (-exponent).toNat

/-- Takes a sign, if there is one; `true` stands for minus. -/
def sign? : Reader (Option Bool) := do
  match ← get with
  | '+' :: rest => set rest; return some false
  | '-' :: rest => set rest; return some true
  | _ => return none

/-- The rest of a float after its sign and its whole part. -/
def fraction (negative : Bool) (whole : List Char) : Reader Value := do
  let mut decimals : List Char := []
  if (← Reader.peek?) == some '.' then
    Reader.skipChar
    decimals ← digits Char.isDigit
  let mut exponent : Int := 0
  if (← Reader.peek?) == some 'e' || (← Reader.peek?) == some 'E' then
    Reader.skipChar
    let small := (← sign?) == some true
    let ds ← digits Char.isDigit
    exponent := if small then -(valueOf 10 ds : Int) else valueOf 10 ds
  let mantissa := valueOf 10 (whole ++ decimals)
  if !negative && overflows mantissa (exponent - decimals.length) then throw .outOfRange
  let written := String.ofList (whole ++ '.' :: decimals) ++ "e" ++ toString exponent
  return .float (if negative then "-" ++ written else written)

/-- Digits after the mark of a base. -/
def inBase (base : Nat) : Reader Value := do
  let ds ← digits (isDigitOf base)
  integer (valueOf base ds)

/-- Reads a number. -/
def number : Reader Value := do
  match ← get with
  | '0' :: 'x' :: rest => set rest; inBase 16
  | '0' :: 'o' :: rest => set rest; inBase 8
  | '0' :: 'b' :: rest => set rest; inBase 2
  | _ =>
    let sign ← sign?
    match ← get with
    | 'i' :: 'n' :: 'f' :: rest => set rest; return .float "inf"
    | 'n' :: 'a' :: 'n' :: rest => set rest; return .float "nan"
    | _ =>
      let whole ← plainDigits
      let next ← Reader.peek?
      if next == some '.' || next == some 'e' || next == some 'E' then
        fraction (sign == some true) whole
      else
        let n : Int := valueOf 10 whole
        integer (if sign == some true then -n else n)

end GatedRelease.Toml.Number
