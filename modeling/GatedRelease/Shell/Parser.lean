import GatedRelease.Shell.Token

/-! Reading commands of the command shell. A program is read one line after the other, as it is
carried out: what a line changes, as names that stand for texts, holds for the lines below it. -/
namespace GatedRelease.Shell

namespace Parser

/-- How far a list of commands goes. -/
inductive Extent
  /-- To the end of the line. -/
  | line
  /-- To a word of the grammar, with one command at least. -/
  | body
  /-- To a word of the grammar. -/
  | optional
deriving DecidableEq

/-- What readers of commands need: readers of what stands in words and of lists of commands, and the
documents that are known from an earlier reading. -/
structure Grammar where
  inner : Inner
  list : Extent → Reader Command
  known : List (Nat × Word)

namespace Grammar

/-- Reads a list of commands in a command. -/
def body (g : Grammar) : Reader Command := g.list .body

/-- Reads the rest of a conditional, from the test on; the number bounds its branches. -/
def branches (g : Grammar) : Nat → Reader Command
  | 0 => unexpected none
  | fuel + 1 => do
    let test ← g.body
    expect g.inner .plain (.reserved "then")
    let yes ← g.body
    match ← token g.inner .plain with
    | .reserved "elif" => return .cond test yes (← g.branches fuel)
    | .reserved "else" => return .cond test yes (← g.body)
    | _ =>
      readAgain
      return .cond test yes .nothing

/-- Reads words as long as there are any; the number bounds them. -/
def words (g : Grammar) : Nat → Reader (List Word)
  | 0 => return []
  | fuel + 1 => do
    if (← token g.inner .plain) = .word then
      let w := (← get).word
      return w :: (← g.words fuel)
    else return []

/-- Reads a loop over words, after its first word. -/
def forLoop (g : Grammar) (line : Nat) : Reader Command := do
  let t ← token g.inner .plain
  let name := ((← get).word.plain?).getD ""
  if t != .word || !isName name then fail "Bad for loop variable"
  let words ←
    if (← token g.inner .start) = .reserved "in" then
      let ws ← g.words limit
      let ending := (← get).token
      if ending != .newline && ending != .semicolon then unexpected none
      pure (some ws)
    else
      if (← get).token != .semicolon then readAgain
      pure none
  expect g.inner .start (.reserved "do")
  return .forLoop line name words (← g.body)

/-- Reads patterns with bars between them, from the last word on; the number bounds them. -/
def patterns (g : Grammar) : Nat → Reader (List Word)
  | 0 => unexpected none
  | fuel + 1 => do
    let w := (← get).word
    if (← token g.inner .plain) = .bar then
      let _ ← token g.inner .plain
      return w :: (← g.patterns fuel)
    else
      if (← get).token != .closing then unexpected (some .closing)
      return [w]

/-- Reads the branches of a selection and its end; the number bounds them. -/
def selections (g : Grammar) : Nat → Reader (List (List Word × Command))
  | 0 => unexpected none
  | fuel + 1 => do
    let t ← token g.inner ⟨true, true, false⟩
    if t = .reserved "esac" then return []
    if t = .opening then
      let _ ← token g.inner .plain
    let ps ← g.patterns limit
    let body ← g.list .optional
    let t ← token g.inner ⟨true, true, false⟩
    if t = .reserved "esac" then return [(ps, body)]
    if t != .endOfBranch then unexpected (some .endOfBranch)
    return (ps, body) :: (← g.selections fuel)

/-- Reads a selection, after its first word. -/
def selection (g : Grammar) (line : Nat) : Reader Command := do
  expect g.inner .plain .word
  let w := (← get).word
  expect g.inner .start (.reserved "in")
  return .select line w (← g.selections limit)

/-- The parts of a simple command. -/
structure Parts where
  line : Option Nat
  assignments : List (String × Word)
  words : List Word
  redirects : List (Redirect Word)

/-- An assignment that a word is. -/
def assignment? : Word → Option (String × Word)
  | .text false cs :: more =>
    let name := cs.takeWhile isNameChar
    match cs.drop name.length with
    | '=' :: value =>
      if isName (String.ofList name) then
        some (String.ofList name, if value.isEmpty then more else .text false value :: more)
      else none
    | _ => none
  | _ => none

/-- Names that no function can have: the commands that a failure ends the shell in. -/
def special : List String := [":", ".", "break", "continue", "eval", "exec", "exit", "export",
  "local", "readonly", "return", "set", "shift", "times", "trap", "unset"]

/-- Reads the rest of a function, after its name and an opening bracket. -/
def function (g : Grammar) (command : Reader Command) (name : Word) : Reader Command := do
  expect g.inner .plain .closing
  let text := name.plain?.getD ""
  if !isName text || special.contains text then fail "Bad function name"
  return .define text (← command)

/-- Reads the parts of a simple command; the number bounds them. -/
def parts (g : Grammar) (command : Reader Command) : Nat → Parts → Reader Command
  | 0, _ => unexpected none
  | fuel + 1, p => do
    let t ← token g.inner ⟨false, false, p.words.isEmpty⟩
    let s ← get
    let p := { p with line := p.line.or (some s.line) }
    match t with
    | .word =>
      match (if p.words.isEmpty then assignment? s.word else none) with
      | some a => g.parts command fuel { p with assignments := p.assignments ++ [a] }
      | none => g.parts command fuel { p with words := p.words ++ [s.word] }
    | .redirection =>
      let r ← redirect g.inner g.known
      g.parts command fuel { p with redirects := p.redirects ++ [r] }
    | t =>
      match t, p.words, p.assignments, p.redirects with
      | .opening, [name], [], [] => g.function command name
      | _, _, _, _ =>
        readAgain
        return .simple (p.line.getD 1) p.assignments p.words p.redirects

/-- Reads a command and the redirections after it; the number bounds the functions around it. -/
def command (g : Grammar) : Nat → Look → Reader Command
  | 0, _ => unexpected none
  | fuel + 1, look => do
    let line := (← get).line
    let redirected (c : Command) : Reader Command := do
      let rs ← redirects g.inner g.known limit
      return if rs.isEmpty then c else .redirected line c rs
    let ended (c : Command) (t : Token) : Reader Command := do
      expect g.inner .plain t
      redirected c
    let loop (until' : Bool) : Reader Command := do
      let test ← g.body
      expect g.inner .plain (.reserved "do")
      let body ← g.body
      ended (.whileLoop until' test body) (.reserved "done")
    match ← token g.inner look with
    | .reserved "if" => ended (← g.branches limit) (.reserved "fi")
    | .reserved "while" => loop false
    | .reserved "until" => loop true
    | .reserved "for" => ended (← g.forLoop line) (.reserved "done")
    | .reserved "case" => redirected (← g.selection line)
    | .opening => ended (.subshell (← g.body)) .closing
    | .reserved "\x7b" => ended (← g.body) (.reserved "\x7d")
    | .word | .redirection =>
      readAgain
      g.parts (g.command fuel .start) limit ⟨none, [], [], []⟩
    | _ => unexpected none

/-- Reads commands with bars between them, from the second on; the number bounds them. -/
def piped (g : Grammar) : Nat → Reader (List Command)
  | 0 => return []
  | fuel + 1 => do
    if (← token g.inner .plain) = .bar then
      let c ← g.command limit .start
      return c :: (← g.piped fuel)
    else
      readAgain
      return []

/-- Reads commands with bars between them, perhaps behind an exclamation mark. -/
def pipeline (g : Grammar) (look : Look) : Reader Command := do
  let negated := (← token g.inner look) = .reserved "!"
  if !negated then readAgain
  let first ← g.command limit (if negated then .here else .plain)
  let more ← g.piped limit
  let c : Command := if more.isEmpty then first else .pipe (first :: more)
  return if negated then .negation c else c

/-- Reads what depends on a command; the number bounds the commands. -/
def chain (g : Grammar) : Nat → Command → Reader Command
  | 0, c => return c
  | fuel + 1, c => do
    let t ← token g.inner .plain
    if t = .doubleAmpersand || t = .doubleBar then
      let d ← g.pipeline .start
      g.chain fuel (if t = .doubleBar then .orElse c d else .andThen c d)
    else
      readAgain
      return c

/-- Reads commands that depend on each other. -/
def andOr (g : Grammar) : Reader Command := do g.chain limit (← g.pipeline .plain)

/-- A command after those before it. -/
def after (before : Option Command) (c : Command) : Command :=
  match before with
  | none => c
  | some b => .sequence b c

/-- Reads a list of commands, of which some may have been read; the number bounds them. -/
def commands (g : Grammar) (extent : Extent) : Nat → Bool → Option Command → Reader Command
  | 0, _, before => return before.getD .nothing
  | fuel + 1, checked, before => do
    let t ← token g.inner ⟨extent != .line, true, true⟩
    if t = .newline then
      documentsBelow g.inner
      return before.getD .nothing
    else if t = .endOfFile then
      documentsBelow g.inner
      readAgain
      return before.getD .nothing
    else
      readAgain
      if checked && t.endsList then return before.getD .nothing
      let c ← g.andOr
      let t ← token g.inner .plain
      let c := after before (if t = .ampersand then .background c else c)
      let checked := extent != .line
      match t with
      | .newline | .endOfFile =>
        readAgain
        g.commands extent fuel checked (some c)
      | .ampersand | .semicolon => g.commands extent fuel checked (some c)
      | _ =>
        if extent = .line then unexpected none
        readAgain
        return c

end Grammar

/-- How deep lists of commands may stand in each other. -/
def depthLimit : Nat := 1000

/-- Reads commands up to a closing bracket. What they ask for below the line has to stand before
that. -/
def bracketed (list : Reader Command) : Reader Command := do
  let outer ← get
  set { outer with pending := [], document := none, again := false }
  let c ← list
  if (← get).token != .closing then unexpected (some .closing)
  modify fun s => { s with
    documents := s.pending.map (fun d => (d.number, [.text true []])) ++ s.documents
    pending := outer.pending
    document := outer.document
    again := false }
  return c

/-- Reads a text of commands. -/
def ofText (list : Reader Command) (text : List Char) : Reader Command := do
  let outer ← get
  set { outer with
    line := 1, text := text, layers := [], spent := [], pending := [], document := none
    again := false }
  let c ← list
  modify fun s => { s with
    line := outer.line
    text := outer.text
    layers := outer.layers
    spent := outer.spent
    pending := outer.pending
    document := outer.document
    again := false }
  return c

/-- Readers of lists of commands that are nested so many times at most. -/
def listsWithin (known : List (Nat × Word)) : Nat → Extent → Reader Command
  | 0, _ => fail "nested too deeply"
  | depth + 1, extent =>
    let list := listsWithin known depth
    let inner : Inner := ⟨bracketed (list .optional), ofText (list .optional)⟩
    Grammar.commands ⟨inner, list, known⟩ extent limit (extent = .optional) none

/-- Reads a line of commands again, so many times, with the documents that came out of it before.
Documents that stand in documents need more than one time. -/
def again (start : State) : Nat → List (Nat × Word) → Except (Nat × String) (Command × State)
  | 0, known => (listsWithin known depthLimit .line).run start
  | n + 1, known => do
    let (_, s) ← (listsWithin known depthLimit .line).run start
    again start n s.documents

end Parser

/-- The word that a text is where it stands in quotes. -/
def Parser.quotedWord? (text : List Char) : Option Word :=
  let list := Parser.listsWithin [] Parser.depthLimit .optional
  let inner : Parser.Inner := ⟨Parser.bracketed list, Parser.ofText list⟩
  let word := Parser.pieces inner Parser.limit ⟨.document, false, true⟩ 0
  match word.run (Parser.State.start [] 1 text) with
  | .ok (w, _) => some w
  | .error _ => none

/-- What comes next in the text of a program. -/
inductive Reading
  | finished
  /-- A line of commands, and what stands below it from which line on. -/
  | commands (c : Command) (line : Nat) (rest : List Char)
  /-- A text that is no program: the line and the reason. -/
  | broken (line : Nat) (message : String)

/-- What comes next in a text that starts on a line. -/
def Reading.next (aliases : Parser.Aliases) (line : Nat) (text : List Char) : Reading :=
  let start := Parser.State.start aliases line text
  let result := do
    let (c, s) ← Parser.again start 0 []
    if s.deepest = 0 then return (c, s) else Parser.again start (s.deepest - 1) s.documents
  match result with
  | .error (line, message) => .broken line message
  | .ok (c, s) =>
    match c, s.again && s.token = .endOfFile with
    | .nothing, true => .finished
    | c, _ => .commands c s.line s.text

end GatedRelease.Shell
