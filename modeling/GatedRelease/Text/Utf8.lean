/-! Bytes as text. `scan` cuts a byte string into characters and maximal ill-formed pieces;
reading strictly insists that there are no such pieces, and reading leniently puts U+FFFD in the
place of each. -/
namespace GatedRelease

abbrev Bytes := List UInt8

namespace Text

/-- The bytes of a text. -/
def utf8 (s : String) : Bytes := s.toUTF8.toList

/-- Between `low` and `high`, both included. -/
def inRange (low high : Nat) (b : UInt8) : Bool := low ≤ b.toNat && b.toNat ≤ high

/-- A byte that may follow the second byte of a character. -/
def isContinuation (b : UInt8) : Bool := inRange 0x80 0xBF b

/-- The low six bits. -/
def payload (b : UInt8) : Nat := b.toNat % 64

/-- What a lead byte of three or four announces for the byte after it. -/
def secondRange (lead : UInt8) : Nat × Nat :=
  if lead == 0xE0 then (0xA0, 0xBF)
  else if lead == 0xED then (0x80, 0x9F)
  else if lead == 0xF0 then (0x90, 0xBF)
  else if lead == 0xF4 then (0x80, 0x8F)
  else (0x80, 0xBF)

/-- The character that starts with `lead`, if there is one, and how many bytes of `rest` belong to
it or to the ill-formed piece in its place. -/
def scanOne (lead : UInt8) (rest : Bytes) : Option Char × Nat :=
  let n := lead.toNat
  if n < 0x80 then (some (Char.ofNat n), 0)
  else if inRange 0xC2 0xDF lead then
    match rest with
    | b :: _ =>
      if isContinuation b then (some (Char.ofNat ((n - 0xC0) * 64 + payload b)), 1) else (none, 0)
    | [] => (none, 0)
  else if inRange 0xE0 0xEF lead then
    match rest with
    | b :: more =>
      if inRange (secondRange lead).1 (secondRange lead).2 b then
        match more with
        | c :: _ =>
          if isContinuation c then
            (some (Char.ofNat (((n - 0xE0) * 64 + payload b) * 64 + payload c)), 2)
          else (none, 1)
        | [] => (none, 1)
      else (none, 0)
    | [] => (none, 0)
  else if inRange 0xF0 0xF4 lead then
    match rest with
    | b :: more =>
      if inRange (secondRange lead).1 (secondRange lead).2 b then
        match more with
        | c :: more' =>
          if isContinuation c then
            match more' with
            | d :: _ =>
              if isContinuation d then
                (some (Char.ofNat ((((n - 0xF0) * 64 + payload b) * 64 + payload c) * 64
                  + payload d)), 3)
              else (none, 2)
            | [] => (none, 2)
          else (none, 1)
        | [] => (none, 1)
      else (none, 0)
    | [] => (none, 0)
  else (none, 0)

/-- The characters of a byte string, with `none` for each maximal ill-formed piece. -/
def scan : Bytes → List (Option Char)
  | [] => []
  | b :: rest => (scanOne b rest).1 :: scan (rest.drop (scanOne b rest).2)
termination_by bytes => bytes.length
decreasing_by simp only [List.length_drop, List.length_cons]; omega

/-- The text of well-formed bytes. -/
def ofUtf8? (bytes : Bytes) : Option String :=
  ((scan bytes).mapM id).map String.ofList

/-- The text of any bytes: U+FFFD stands for each maximal ill-formed piece. -/
def ofUtf8Lossy (bytes : Bytes) : String :=
  String.ofList ((scan bytes).map (·.getD (Char.ofNat 0xFFFD)))

end Text
end GatedRelease
