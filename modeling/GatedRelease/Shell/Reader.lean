import GatedRelease.Shell.Source

/-! Reading words of the command shell: characters, quotes, and what a dollar sign introduces. How a
character is read depends on the place that it stands in. -/
namespace GatedRelease.Shell

namespace Parser

/-- Readers of the commands that stand in words. -/
structure Inner where
  /-- Reads commands up to a closing bracket, and that bracket. -/
  bracketed : Reader Command
  /-- Reads a text of commands. -/
  ofText : List Char → Reader Command

/-- The places that characters of a word stand in. -/
inductive PlaceKind
  /-- Outside of quotes. -/
  | bare
  /-- In the braces of a parameter, outside of quotes. -/
  | braces
  | quotes
  /-- In the braces of a parameter that stands in quotes. -/
  | quotedBraces
  | document
  | expression
deriving DecidableEq

/-- A place, and whether it is in braces or in a document. -/
structure Place where
  kind : PlaceKind
  inBraces : Bool
  inDocument : Bool

namespace Place

/-- What stands here is quoted. -/
def isQuoted (p : Place) : Bool := p.kind != .bare && p.kind != .braces

/-- The place in braces here. -/
def within (p : Place) : Place :=
  ⟨if p.isQuoted then .quotedBraces else .braces, true, p.inDocument⟩

/-- The place of a pattern in braces here. -/
def pattern (p : Place) : Place := ⟨.braces, true, p.inDocument⟩

/-- The character is nothing but itself here. -/
def isPlain (p : Place) (c : Char) : Bool :=
  if c == '\\' || c == '$' || c == backQuote || c == '\n' then false
  else match p.kind with
    | .bare => !isMeta c && c != '\'' && c != '"'
    | .braces => c != '\'' && c != '"' && c != '\x7d'
    | .quotes => c != '"'
    | .quotedBraces => c != '"' && c != '\x7d'
    | .document => true
    | .expression => c != '(' && c != ')'

/-- A backslash in front of the character goes away here. -/
def dropsBackslash (p : Place) (c : Char) : Bool :=
  !p.isQuoted || c == '\\' || c == '$' || c == backQuote ||
    (c == '"' && (!p.inDocument || p.inBraces)) || (c == '\x7d' && p.inBraces)

/-- What is said where the text ends too soon. -/
def unended (p : Place) : String :=
  match p.kind with
  | .braces => "Missing '\x7d'"
  | .quotedBraces => if p.inDocument then "Missing '\x7d'" else "Unterminated quoted string"
  | .expression => "Missing '))'"
  | _ => "Unterminated quoted string"

end Place

/-- Leaves the tabs at the front of a line of the document behind, if it has none, and says whether
the line ends the document; such a line is taken. -/
def atMark : Reader Bool := do
  let s ← get
  match s.document with
  | none => return false
  | some d =>
    let text := if d.stripped then s.text.dropWhile (· == '\t') else s.text
    let after := text.drop d.mark.length
    if d.mark.isPrefixOf text && (after.isEmpty || after.head? == some '\n') then
      set { s with text := after.drop 1, line := s.line + d.mark.countP (· == '\n') + 1 }
      return true
    else
      set { s with text := text }
      return false

/-- Reads up to the quotation mark that ends a text without expansions. -/
def singleQuoted : Nat → Reader (List Char)
  | 0 => fail "Unterminated quoted string"
  | fuel + 1 => do
    match ← next with
    | none => fail "Unterminated quoted string"
    | some c => if c == '\'' then return [] else return c :: (← singleQuoted fuel)

/-- Reads a text of commands up to the quotation mark that ends it; one level of backslashes is
taken away. -/
def backQuoted (quoted : Bool) : Nat → Reader (List Char)
  | 0 => fail "EOF in backquote substitution"
  | fuel + 1 => do
    skipJoints limit
    match ← next with
    | none => fail "EOF in backquote substitution"
    | some '\\' =>
      match ← next with
      | none => fail "EOF in backquote substitution"
      | some c =>
        let more ← backQuoted quoted fuel
        return if c == '\\' || c == backQuote || c == '$' || (quoted && c == '"') then c :: more
          else '\\' :: c :: more
    | some c => if c == backQuote then return [] else return c :: (← backQuoted quoted fuel)

/-- Reads a parameter's name; a number ends after one digit unless it stands in braces. -/
def parameterName? (braced : Bool) : Reader (Option (List Char)) := do
  match ← peekJoined with
  | some c =>
    if isNameStart c then return some (← take isNameChar limit)
    else if c.isDigit then
      if braced then return some (← take Char.isDigit limit)
      else
        advance
        return some [c]
    else return none
  | none => return none

/-- Reads what is to become of a parameter in braces; `read` reads the word of a place. -/
def treatment (read : Place → Reader Word) (place : Place) (name : List Char) : Reader Piece := do
  let quoted := place.isQuoted
  let make (treatment : Treatment) (orEmpty : Bool) (inside : Place) : Reader Piece := do
    return .parameter quoted (String.ofList name) treatment orEmpty (← read inside)
  let first ← peekJoined
  advance
  let orEmpty := first == some ':'
  let mark ← if orEmpty then do let c ← peekJoined; advance; pure c else pure first
  match mark with
  | some '\x7d' =>
    if orEmpty then make .plain false place.within
    else return .parameter quoted (String.ofList name) .plain false []
  | some '-' => make .useDefault orEmpty place.within
  | some '+' => make .useAlternative orEmpty place.within
  | some '?' => make .complain orEmpty place.within
  | some '=' => make .assignDefault orEmpty place.within
  | some c =>
    if !orEmpty && (c == '%' || c == '#') then
      let longest := (← peekJoined) == some c
      if longest then advance
      make (.trim (c == '%') longest) false place.pattern
    else make .bad false place.within
  | none => make .bad false place.within

/-- Reads what stands in braces after a dollar sign. -/
def inBraces (read : Place → Reader Word) (place : Place) : Reader Piece := do
  let quoted := place.isQuoted
  let bad : Reader Piece := do
    return .parameter quoted "" .bad false (← read place.within)
  match ← parameterName? true with
  | some name => treatment read place name
  | none =>
    match ← peekJoined with
    | none | some '\x7d' => bad
    | some '#' =>
      advance
      match ← parameterName? true with
      | some name =>
        let treatment : Treatment := if (← peekJoined) == some '\x7d' then .length else .bad
        return .parameter quoted (String.ofList name) treatment false (← read place.within)
      | none =>
        let s ← get
        let mark ← peekJoined
        advance
        if mark != some '\x7d' && (← peekJoined) == some '\x7d' then
          match mark with
          | some c =>
            if isSpecial c then
              return .parameter quoted (String.singleton c) .length false (← read place.within)
            else bad
          | none => bad
        else
          set s
          treatment read place ['#']
    | some c =>
      advance
      if isSpecial c then treatment read place [c] else bad

/-- Reads what follows a dollar sign. -/
def dollar (inner : Inner) (read : Place → Reader Word) (place : Place) : Reader Piece := do
  if (← get).marking then return .text place.isQuoted ['$']
  match ← peekJoined with
  | some '(' =>
    advance
    if (← peekJoined) == some '(' then
      advance
      return .arithmetic place.isQuoted (← read ⟨.expression, false, place.inDocument⟩)
    else return .substitution place.isQuoted (← inner.bracketed)
  | some '\x7b' =>
    advance
    inBraces read place
  | some c =>
    if isSpecial c then
      advance
      return .parameter place.isQuoted (String.singleton c) .plain false []
    else match ← parameterName? false with
      | some name => return .parameter place.isQuoted (String.ofList name) .plain false []
      | none => return .text place.isQuoted ['$']
  | none => return .text place.isQuoted ['$']

/-- The pieces of a text in quotes. They stand for something even if they are empty, unless they are
nothing but all arguments. -/
def keep (w : Word) : Word :=
  match w with
  | [.parameter true "@" .plain _ _] => w
  | w => Word.cons (.text true []) w

/-- Reads the pieces of a place, up to its end. `level` counts the brackets that are open in an
expression, and in braces the quotation marks; the first number bounds the pieces. -/
def pieces (inner : Inner) : Nat → Place → Nat → Reader Word
  | 0, _, _ => fail "Word too long"
  | fuel + 1, place, level => do
    let more : Reader Word := pieces inner fuel place level
    let read (p : Place) : Reader Word := pieces inner fuel p 0
    let quoted := place.isQuoted
    match ← peekJoined with
    | none =>
      if place.kind = .bare || place.kind = .document then return []
      else fail place.unended
    | some '\\' =>
      advance
      match ← next with
      | none => return Word.cons (.text true ['\\']) (← more)
      | some c =>
        let text := if place.dropsBackslash c then [c] else ['\\', c]
        return Word.cons (.text true text) (← more)
    | some '\n' =>
      if place.kind = .bare then return []
      else
        advance
        if ← atMark then
          if place.kind = .document then return [.text true ['\n']]
          else fail place.unended
        else return Word.cons (.text quoted ['\n']) (← more)
    | some '$' =>
      advance
      let p ← dollar inner read place
      return Word.cons p (← more)
    | some c =>
      if c == backQuote && !(← get).marking then
        advance
        let text ← backQuoted quoted limit
        let c ← inner.ofText text
        return .substitution quoted c :: (← more)
      else if place.isPlain c then
        let run ← take place.isPlain limit
        return Word.cons (.text quoted run) (← more)
      else
        let char : Reader Word := do
          advance
          return Word.cons (.text quoted [c]) (← more)
        let close : Reader Word := do
          advance
          return []
        if c == backQuote then char
        else match place.kind with
        | .bare | .braces =>
          if c == '\'' then
            advance
            let text ← singleQuoted limit
            return Word.cons (.text true text) (← more)
          else if c == '"' then
            advance
            let w ← read ⟨.quotes, place.inBraces, place.inDocument⟩
            return (keep w).foldr Word.cons (← more)
          else if place.kind = .bare then return []
          else close
        | .quotedBraces =>
          if c == '"' then
            advance
            pieces inner fuel place (1 - level)
          else if c == '\x7d' && level = 0 then close
          else char
        | .expression =>
          if c == '(' then
            advance
            return Word.cons (.text quoted [c]) (← pieces inner fuel place (level + 1))
          else if 0 < level then
            advance
            return Word.cons (.text quoted [c]) (← pieces inner fuel place (level - 1))
          else
            advance
            if (← peekJoined) == some ')' then close
            else return Word.cons (.text quoted [c]) (← more)
        | _ => close

/-- Reads a word. -/
def word (inner : Inner) : Reader Word := pieces inner limit ⟨.bare, false, false⟩ 0

/-- Reads a document without expansions; the number bounds its lines. -/
def quotedDocument : Nat → Reader (List Char)
  | 0 => return []
  | fuel + 1 => do
    if ← atMark then return []
    let s ← get
    if s.text.isEmpty then return []
    let line := s.text.takeWhile (· != '\n')
    match s.text.drop line.length with
    | [] =>
      set { s with text := [] }
      return line
    | _ :: more =>
      set { s with text := more, line := s.line + 1 }
      return line ++ '\n' :: (← quotedDocument fuel)

/-- Reads a document up to the line that ends it. -/
def document (inner : Inner) (d : Document) : Reader Word := do
  let outer := (← get).document
  modify fun s => { s with document := some d }
  let body ←
    if d.quoted then pure [.text true (← quotedDocument limit)]
    else if ← atMark then pure []
    else pieces inner limit ⟨.document, false, true⟩ 0
  modify fun s => { s with document := outer }
  return body

end Parser
end GatedRelease.Shell
