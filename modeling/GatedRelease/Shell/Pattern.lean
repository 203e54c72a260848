import GatedRelease.FileSystem.Resolve
import GatedRelease.Text.Octets

/-! Patterns: a star for any bytes, a question mark for one, brackets for one of some. What was
quoted stands for itself. -/
namespace GatedRelease.Shell

/-- An octet of a word after expansion. -/
structure Glyph where
  char : Char
  /-- The octet stands for itself. -/
  quoted : Bool
  /-- The octet comes from an expansion. -/
  expanded : Bool
deriving DecidableEq

namespace Pattern

/-- The glyph is a mark that is not quoted. -/
def isMark (mark : Char) (g : Glyph) : Bool := !g.quoted && g.char == mark

/-- What stands between brackets. -/
inductive Member
  /-- From one octet to another, in the order of octets with a sign. -/
  | range (low high : Char)
  /-- A kind of character. -/
  | kind (name : String)
deriving DecidableEq

/-- What a part of a pattern fits. -/
inductive Part
  /-- Any octets. -/
  | many
  /-- One octet. -/
  | one
  /-- An octet that is a member, or one that is none. -/
  | among (negated : Bool) (members : List Member)
  | char (c : Char)
deriving DecidableEq

/-- The place of an octet in an order that starts with the upper half. -/
def rank (c : Char) : Nat := (c.toNat + 128) % 256

/-- A visible character. -/
def isVisible (c : Char) : Bool := 32 < c.toNat && c.toNat < 127

/-- Kinds of characters by name. -/
def kind? (name : String) : Option (Char → Bool) :=
  match name with
  | "alnum" => some Char.isAlphanum
  | "alpha" => some Char.isAlpha
  | "blank" => some fun c => c == ' ' || c == '\t'
  | "cntrl" => some fun c => c.toNat < 32 || c.toNat == 127
  | "digit" => some Char.isDigit
  | "graph" => some isVisible
  | "lower" => some Char.isLower
  | "print" => some fun c => c == ' ' || isVisible c
  | "punct" => some fun c => isVisible c && !c.isAlphanum
  | "space" => some fun c => c == ' ' || (9 ≤ c.toNat && c.toNat ≤ 13)
  | "upper" => some Char.isUpper
  | "xdigit" => some fun c => c.isDigit || ('a' ≤ c.toLower && c.toLower ≤ 'f')
  | _ => none

/-- The octet is a member. -/
def Member.has (c : Char) : Member → Bool
  | range low high => rank low ≤ rank c && rank c ≤ rank high
  | kind name => ((kind? name).map (· c)).getD false

/-- The kind that is named between colons and a bracket, and what follows. -/
def kindAt? (gs : List Glyph) : Option (Member × List Glyph) :=
  match gs with
  | colon :: more =>
    let name := more.takeWhile fun g => g.char.isAlpha
    match more.drop name.length with
    | second :: close :: rest =>
      let text := String.ofList (name.map (·.char))
      if isMark ':' colon && isMark ':' second && isMark ']' close && (kind? text).isSome then
        some (.kind text, rest)
      else none
    | _ => none
  | [] => none

/-- The members up to a closing bracket, and what follows it. A bracket at the very start is a
member; the number bounds the members. -/
def members? : Nat → Bool → List Glyph → Option (List Member × List Glyph)
  | 0, _, _ => none
  | _, _, [] => none
  | fuel + 1, atStart, g :: more =>
    if !atStart && isMark ']' g then some ([], more)
    else match (if isMark '[' g then kindAt? more else none) with
      | some (m, rest) => (members? fuel false rest).map fun (ms, rest) => (m :: ms, rest)
      | none =>
        match more with
        | dash :: high :: rest =>
          if isMark '-' dash && !isMark ']' high then
            (members? fuel false rest).map fun (ms, rest) =>
              (.range g.char high.char :: ms, rest)
          else
            (members? fuel false more).map fun (ms, rest) => (.range g.char g.char :: ms, rest)
        | _ => (members? fuel false more).map fun (ms, rest) => (.range g.char g.char :: ms, rest)

/-- What stands between brackets after the first, and what follows. -/
def among? (gs : List Glyph) : Option (Part × List Glyph) :=
  match gs with
  | g :: more =>
    if isMark '!' g then
      (members? (more.length + 1) true more).map fun (ms, rest) => (.among true ms, rest)
    else (members? (gs.length + 1) true gs).map fun (ms, rest) => (.among false ms, rest)
  | [] => none

/-- The glyphs of a pattern in which a backslash that came out of an expansion has quoted what
follows it. -/
def escaped : List Glyph → List Glyph
  | g :: next :: rest =>
    if isMark '\\' g then { next with quoted := true } :: escaped rest
    else g :: escaped (next :: rest)
  | gs => gs

/-- The parts of a pattern without such backslashes; the number bounds them. -/
def partsWithin : Nat → List Glyph → List Part
  | 0, _ => []
  | _, [] => []
  | fuel + 1, g :: more =>
    if isMark '*' g then .many :: partsWithin fuel more
    else if isMark '?' g then .one :: partsWithin fuel more
    else if isMark '[' g then
      match among? more with
      | some (part, rest) => part :: partsWithin fuel rest
      | none => .char g.char :: partsWithin fuel more
    else .char g.char :: partsWithin fuel more

/-- The parts of a pattern. -/
def parts (gs : List Glyph) : List Part :=
  let gs := escaped gs
  partsWithin gs.length gs

/-- One octet fits a part that is not `many`. -/
def Part.fitsChar (c : Char) : Part → Bool
  | many => false
  | one => true
  | among negated members => (members.any (·.has c)) != negated
  | char d => c == d

/-- A text fits the parts of a pattern. -/
def fitsParts : List Part → List Char → Bool
  | [], [] => true
  | [], _ :: _ => false
  | .many :: ps, [] => fitsParts ps []
  | .many :: ps, c :: rest => fitsParts ps (c :: rest) || fitsParts (.many :: ps) rest
  | _ :: _, [] => false
  | p :: ps, c :: rest => p.fitsChar c && fitsParts ps rest
termination_by ps cs => (ps.length, cs.length)

/-- A text fits a pattern. -/
def fits (gs : List Glyph) (cs : List Char) : Bool := fitsParts (parts gs) cs

/-- A text without what fits a pattern at one end of it: the shortest part that does, or the
longest. -/
def trim (atEnd longest : Bool) (gs : List Glyph) (cs : List Char) : List Char :=
  let ps := parts gs
  let sizes := List.range (cs.length + 1)
  let sizes := if longest then sizes.reverse else sizes
  let found := sizes.find? fun n =>
    fitsParts ps (if atEnd then cs.drop (cs.length - n) else cs.take n)
  match found with
  | none => cs
  | some n => if atEnd then cs.take (cs.length - n) else cs.drop n

/-- The pieces of a pattern between slashes. -/
def splitSlashes : List Glyph → List (List Glyph)
  | [] => [[]]
  | g :: rest =>
    if g.char == '/' then [] :: splitSlashes rest
    else match splitSlashes rest with
      | [] => [[g]]
      | piece :: more => (g :: piece) :: more

/-- The octets of a pattern. -/
def chars (gs : List Glyph) : String := String.ofList (gs.map (·.char))

/-- The text that parts stand for, if they fit no other. -/
def literal? : List Part → Option (List Char)
  | [] => some []
  | .char c :: more => (literal? more).map (c :: ·)
  | _ :: _ => none

/-- The names in a directory, itself and the one above it among them. -/
def namesIn (fs : FileSystem) (directory : String) : List String :=
  match fs.directoryAt (if directory == "" then "." else Octets.decode directory) with
  | .error _ => []
  | .ok l => "." :: ".." :: (fs.tree.below l).entries.filterMap fun x =>
      match x.1 with
      | [n] => some (Octets.encode n.text)
      | _ => none

/-- The paths that fit the pieces of a pattern, each starting with `path`. A name with a dot at its
front fits only a pattern that starts with one. -/
def expandPieces (fs : FileSystem) (path : String) : List (List Glyph) → List String
  | [] => [path]
  | piece :: more =>
    let next (name : String) : List String :=
      expandPieces fs (if more.isEmpty then path ++ name else path ++ name ++ "/") more
    let ps := parts piece
    match literal? ps with
    | some name => next (String.ofList name)
    | none =>
      let dotted := ps.head? == some (.char '.')
      ((namesIn fs path).filter fun n =>
        (dotted || n.toList.head? != some '.') && fitsParts ps n.toList).flatMap next

/-- The paths that a pattern stands for, in the order of their octets; without any, the pattern
stands for itself. -/
def expand (fs : FileSystem) (gs : List Glyph) : List String :=
  let pieces := splitSlashes gs
  if pieces.any fun p => (literal? (parts p)).isNone then
    let found := (expandPieces fs "" pieces).filter fun p =>
      match fs.entryAt (Octets.decode p) with
      | .ok _ => true
      | .error _ => false
    if found.isEmpty then [chars gs] else found.mergeSort fun a b => !(b < a)
  else [chars gs]

end Pattern
end GatedRelease.Shell
