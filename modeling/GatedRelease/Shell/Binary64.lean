import GatedRelease.Shell.Numeral

/-! Binary numbers with 53 significant bits. A text is read as the nearest of them, an even one if
two are as near, and a number is written with as many digits as asked for, rounded in the same way.
All of it is exact arithmetic on whole numbers. -/
namespace GatedRelease.Shell

/-- A binary number. -/
inductive Binary64
  /-- So many times a power of two. -/
  | finite (significand : Nat) (exponent : Int)
  | infinity
  | notANumber
deriving DecidableEq

namespace Binary64

/-- The quotient of two numbers, rounded to the nearest, and to an even one in the middle. -/
def roundedQuotient (n d : Nat) : Nat :=
  let q := n / d
  let r := n % d
  if d < 2 * r || (d == 2 * r && q % 2 == 1) then q + 1 else q

/-- A number times a power of another, as a fraction. -/
def scaled (n : Nat) (base : Nat) (e : Int) : Nat × Nat :=
  if 0 ≤ e then (n * Nat.pow base e.toNat, 1) else (n, Nat.pow base (-e).toNat)

/-- The least exponent. -/
def leastExponent : Int := -1074

/-- The nearest binary number to a fraction, and whether that is too large, or too small to be as
near as usual. -/
def ofFraction (n d : Nat) : Binary64 × Bool :=
  if n = 0 then (finite 0 0, false)
  else
    let guess : Int := (Nat.log2 n : Int) - Nat.log2 d - 52
    let rounded (e : Int) : Nat × Bool :=
      let (up, down) := scaled 1 2 (-e)
      (roundedQuotient (n * up) (d * down), n * up % (d * down) != 0)
    let small (e : Int) : Bool :=
      let (up, down) := scaled 1 2 (-e)
      n * up < Nat.pow 2 52 * (d * down)
    let e := max leastExponent (if small guess then guess - 1 else guess)
    let (m, inexact) := rounded e
    if Nat.pow 2 1024 ≤ m * Nat.pow 2 e.toNat then (infinity, true)
    else (finite m e, m < Nat.pow 2 52 && inexact)

/-- The digits at the front of a text in a base, with a point among them: their number, how many
stand behind the point, and what follows. -/
def pointed (base : Nat) (cs : List Char) : Option (Nat × Nat × List Char) :=
  let isDigit (c : Char) : Bool := (Numeral.digit? base c).isSome
  let value (n : Nat) (ds : List Char) : Nat :=
    ds.foldl (fun n c => base * n + (Numeral.digit? base c).getD 0) n
  let whole := cs.takeWhile isDigit
  let rest := cs.drop whole.length
  let part := match rest with
    | '.' :: more => more.takeWhile isDigit
    | _ => []
  if whole.isEmpty && part.isEmpty then none
  else
    let rest := match rest with
      | '.' :: more => more.drop part.length
      | rest => rest
    some (value (value 0 whole) part, part.length, rest)

/-- An exponent behind a mark, and what follows. -/
def exponent (mark : Char) (cs : List Char) : Int × List Char :=
  match cs with
  | c :: more =>
    if c.toLower == mark then
      let (negative, ds) := match more with
        | '-' :: ds => (true, ds)
        | '+' :: ds => (false, ds)
        | ds => (false, ds)
      match Numeral.digits 10 ds with
      | some (n, rest) => (if negative then -n else n, rest)
      | none => (0, cs)
    else (0, cs)
  | [] => (0, cs)

/-- A sign that makes negative, the number itself, whether it is out of range, and what follows it.
-/
structure Scan where
  negative : Bool
  value : Binary64
  outOfRange : Bool
  rest : List Char

/-- The nearest number to digits with an exponent, where more than so many are out of range. -/
def approximate (base : Nat) (n : Nat) (e : Int) (limit : Int) : Binary64 × Bool :=
  let size : Int := e + (Nat.log2 n : Int)
  if n = 0 then (finite 0 0, false)
  else if limit < e then (infinity, true)
  else if size < -(4 * limit) then (finite 0 0, true)
  else
    let (n, d) := scaled n base e
    ofFraction n d

/-- The words at the front of a text without regard to case, and what follows. -/
def dropWord? (word : String) (cs : List Char) : Option (List Char) :=
  if word.toList.isPrefixOf (cs.map Char.toLower) then some (cs.drop word.length) else none

/-- Reads a number without its sign. -/
def readUnsigned? (cs : List Char) : Option (Binary64 × Bool × List Char) :=
  let decimal : Option (Binary64 × Bool × List Char) :=
    (pointed 10 cs).map fun (n, places, rest) =>
      let (e, rest) := exponent 'e' rest
      let (value, out) := approximate 10 n (e - places) 400
      (value, out, rest)
  match (dropWord? "0x" cs).bind (pointed 16) with
  | some (n, places, rest) =>
    let (e, rest) := exponent 'p' rest
    let (value, out) := approximate 2 n (e - 4 * places) 1100
    some (value, out, rest)
  | none =>
    match dropWord? "infinity" cs, dropWord? "inf" cs, dropWord? "nan" cs with
    | some rest, _, _ | none, some rest, _ => some (infinity, false, rest)
    | none, none, some rest =>
      let inside := (rest.drop 1).takeWhile fun c => c.isAlphanum || c == '_'
      let closed := rest.head? == some '(' && (rest.drop (1 + inside.length)).head? == some ')'
      some (notANumber, false, if closed then rest.drop (2 + inside.length) else rest)
    | none, none, none => decimal

/-- Reads a number at the front of a text. -/
def read? (cs : List Char) : Option Scan :=
  let cs := cs.dropWhile Numeral.isSpace
  let (negative, cs) := match cs with
    | '-' :: more => (true, more)
    | '+' :: more => (false, more)
    | cs => (false, cs)
  (readUnsigned? cs).map fun (value, out, rest) => ⟨negative, value, out, rest⟩

/-- A number in digits, filled up with zeros at the front. -/
def digitsOf (base width n : Nat) : List Char :=
  let ds := Nat.toDigits base n
  List.replicate (width - ds.length) '0' ++ ds

/-- Digits with a point before the last `places`; without any the point appears only if `pointed` is
set. -/
def withPoint (pointed : Bool) (places : Nat) (ds : List Char) : List Char :=
  let whole := ds.take (ds.length - places)
  if places = 0 && !pointed then whole else whole ++ '.' :: ds.drop (ds.length - places)

/-- A number with so many digits behind the point. -/
def fixed (pointed : Bool) (places m : Nat) (e : Int) : List Char :=
  let (n, d) := scaled (m * Nat.pow 10 places) 2 e
  withPoint pointed places (digitsOf 10 (places + 1) (roundedQuotient n d))

/-- The power of ten that a fraction starts with. -/
def magnitude (n d : Nat) : Int :=
  if d ≤ n then ((Nat.toDigits 10 (n / d)).length : Int) - 1
  else
    let ds : Int := (Nat.toDigits 10 ((d - 1) / n)).length
    if d ≤ n * Nat.pow 10 ds.toNat then -ds else -ds - 1

/-- The first digits of a number, one and so many others, and the power of ten of the first one. -/
def leading (places m : Nat) (e : Int) : Nat × Int :=
  if m = 0 then (0, 0)
  else
    let (n, d) := scaled m 2 e
    let power := magnitude n d
    let (up, down) := scaled 1 10 (places - power)
    let found := roundedQuotient (n * up) (d * down)
    if found = Nat.pow 10 (places + 1) then (Nat.pow 10 places, power + 1) else (found, power)

/-- An exponent with its sign and at least so many digits. -/
def exponentText (width : Nat) (e : Int) : List Char :=
  (if e < 0 then '-' else '+') :: digitsOf 10 width e.natAbs

/-- A number with one digit before the point, so many behind it, and a power of ten. -/
def scientific (pointed : Bool) (places m : Nat) (e : Int) : List Char :=
  let (ds, power) := leading places m e
  withPoint pointed places (digitsOf 10 (places + 1) ds) ++ 'e' :: exponentText 2 power

/-- A text with a point without zeros at its end. -/
def trimZeros (cs : List Char) : List Char :=
  if cs.contains '.' then
    match cs.reverse.dropWhile (· == '0') with
    | '.' :: more => more.reverse
    | more => more.reverse
  else cs

/-- A number with so many digits in all, in the shorter of the two ways; zeros at the end stay only
if `pointed` is set. -/
def general (pointed : Bool) (precision m : Nat) (e : Int) : List Char :=
  let count := max precision 1
  let (ds, power) := leading (count - 1) m e
  let trim (cs : List Char) : List Char := if pointed then cs else trimZeros cs
  if -4 ≤ power && power < count then
    trim (fixed pointed (count - 1 - power).toNat m e)
  else
    trim (withPoint pointed (count - 1) (digitsOf 10 count ds)) ++ 'e' :: exponentText 2 power

/-- A number in base sixteen with a power of two. -/
def hexadecimal (pointed : Bool) (precision : Option Nat) (m : Nat) (e : Int) : List Char :=
  let (shift, e) : Nat × Int :=
    if m = 0 then (0, 0)
    else
      let shift := min (52 - Nat.log2 m) (e - leastExponent).toNat
      (shift, e - shift + 52)
  let m := m * Nat.pow 2 shift
  let text (places n : Nat) : List Char :=
    withPoint pointed places (digitsOf 16 (places + 1) n)
  let digits := match precision with
    | some p =>
      if p < 13 then text p (roundedQuotient m (Nat.pow 2 (52 - 4 * p)))
      else text p (m * Nat.pow 16 (p - 13))
    | none =>
      let places := 13 - ((digitsOf 16 13 (m % Nat.pow 2 52)).reverse.takeWhile (· == '0')).length
      text places (m / Nat.pow 16 (13 - places))
  '0' :: 'x' :: digits ++ 'p' :: exponentText 1 e

/-- A number without its sign as a conversion letter asks for it. -/
def render (letter : Char) (pointed : Bool) (precision : Option Nat) (x : Binary64) : List Char :=
  let text := match x with
    | infinity => "inf".toList
    | notANumber => "nan".toList
    | finite m e =>
      match letter.toLower with
      | 'f' => fixed pointed (precision.getD 6) m e
      | 'e' => scientific pointed (precision.getD 6) m e
      | 'g' => general pointed (precision.getD 6) m e
      | _ => hexadecimal pointed precision m e
  if letter.isUpper then text.map Char.toUpper else text

end Binary64
end GatedRelease.Shell
