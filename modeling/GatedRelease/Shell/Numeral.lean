/-! Whole numbers at the front of a text: blanks, a sign, and digits in a base that is given or that
the digits themselves tell. Numbers are kept in words of 64 bits, and one that is too large for them
is refused or replaced by the nearest that is not. -/
namespace GatedRelease.Shell

/-- A blank before or behind a number. -/
def Numeral.isSpace (c : Char) : Bool := c == ' ' || (9 ≤ c.toNat && c.toNat ≤ 13)

/-- A number read from the front of a text. -/
structure Numeral where
  negative : Bool
  magnitude : Nat
  /-- What follows the digits. -/
  rest : List Char

namespace Numeral

/-- The value of a digit in a base, letters counting on from ten. -/
def digit? (base : Nat) (c : Char) : Option Nat :=
  let n :=
    if c.isDigit then c.toNat - 48 else if c.isAlpha then c.toLower.toNat - 87 else base
  if n < base then some n else none

/-- The number that the digits at the front give, if there is any, and what follows them. -/
def digits (base : Nat) (cs : List Char) : Option (Nat × List Char) :=
  let ds := cs.takeWhile fun c => (digit? base c).isSome
  if ds.isEmpty then none
  else some (ds.foldl (fun n c => base * n + (digit? base c).getD 0) 0, cs.drop ds.length)

/-- Digits that tell their base: sixteen after `0x`, eight after another zero, else ten. -/
def selfBased (cs : List Char) : Option (Nat × List Char) :=
  match cs with
  | '0' :: x :: more =>
    if x == 'x' || x == 'X' then (digits 16 more).orElse fun _ => some (0, x :: more)
    else digits 8 cs
  | _ => digits 10 cs

/-- Reads a number in a base, or in the base that its digits tell. -/
def read? (base : Option Nat) (cs : List Char) : Option Numeral :=
  let cs := cs.dropWhile isSpace
  let (negative, cs) := match cs with
    | '-' :: more => (true, more)
    | '+' :: more => (false, more)
    | cs => (false, cs)
  let found := match base with
    | some b => digits b cs
    | none => selfBased cs
  found.map fun (magnitude, rest) => ⟨negative, magnitude, rest⟩

/-- The number itself. -/
def value (n : Numeral) : Int := if n.negative then -n.magnitude else n.magnitude

/-- The greatest number. -/
def greatest : Int := 0x7fffffffffffffff

/-- The least number. -/
def least : Int := -0x8000000000000000

/-- The number fits into a word with a sign. -/
def fits (n : Numeral) : Bool := least ≤ n.value && n.value ≤ greatest

/-- The nearest number that fits into a word with a sign. -/
def clamped (n : Numeral) : Int := max least (min greatest n.value)

/-- How many words without a sign there are. -/
def words : Nat := 0x10000000000000000

/-- The number fits into a word without a sign, where a sign counts down from the end. -/
def fitsUnsigned (n : Numeral) : Bool := n.magnitude < words

/-- The word without a sign, the greatest one for a number that is too large. -/
def unsigned (n : Numeral) : Nat :=
  if n.fitsUnsigned then (n.value % words).toNat else words - 1

/-- The number that a whole text is, blanks around it left out. A text of blanks is zero, but only
where the base is not given. -/
def whole? (base : Option Nat) (s : String) : Option Int :=
  match read? base s.toList with
  | some n => if n.fits && n.rest.all isSpace then some n.value else none
  | none => if base.isNone && s.toList.all isSpace then some 0 else none

/-- A number of things: not negative, and of 31 bits. -/
def count? (s : String) : Option Nat :=
  match whole? (some 10) s with
  | some n => if 0 ≤ n ∧ n < 0x80000000 then some n.toNat else none
  | none => none

end Numeral
end GatedRelease.Shell
