import GatedRelease.Shell.Numeral

/-! Whole-number expressions of the command shell. An expression may give values to variables; what
a test rules out is read, but it is neither looked up nor carried out. -/
namespace GatedRelease.Shell.Arithmetic

/-- Why an expression has no value. -/
inductive Defect
  | divisionByZero
  | noPrimary
  | noClosing
  | noColon
  | goesOn
  | badNumber (text : String)
  /-- A quotient that is no number of 64 bits, which no machine computes. -/
  | overflow
deriving DecidableEq

/-- The defect of an expression in words; of an overflow there is nothing to say. -/
def Defect.message (expression : String) : Defect → String
  | divisionByZero => "arithmetic expression: division by zero: \"" ++ expression ++ "\""
  | noPrimary => "arithmetic expression: expecting primary: \"" ++ expression ++ "\""
  | noClosing => "arithmetic expression: expecting ')': \"" ++ expression ++ "\""
  | noColon => "arithmetic expression: expecting ':': \"" ++ expression ++ "\""
  | goesOn => "arithmetic expression: expecting EOF: \"" ++ expression ++ "\""
  | badNumber text => s!"Illegal number: {text}"
  | overflow => ""

/-- A token of an expression. -/
inductive Token
  | number (n : Int)
  | name (text : String)
  | mark (text : String)
  /-- A character that no token starts with. -/
  | bad
deriving DecidableEq

/-- The marks, longer ones before those that they start with. -/
def marks : List String := ["<<=", ">>=", "||", "&&", "==", "!=", "<=", ">=", "<<", ">>", "|=",
  "&=", "^=", "*=", "/=", "%=", "+=", "-=", "=", "<", ">", "|", "&", "^", "*", "/", "%", "+", "-",
  "!", "~", "(", ")", "?", ":"]

/-- A character of a name. -/
def isNameChar (c : Char) : Bool := c.isAlphanum || c == '_'

/-- The tokens of an expression; the number bounds them. -/
def tokens : Nat → List Char → List Token
  | 0, _ => []
  | _, [] => []
  | fuel + 1, c :: cs =>
    if c == ' ' || c == '\t' || c == '\n' then tokens fuel cs
    else if c.isDigit then
      match Numeral.read? none (c :: cs) with
      | some n => .number n.clamped :: tokens fuel n.rest
      | none => [.bad]
    else if isNameChar c then
      .name (String.ofList ((c :: cs).takeWhile isNameChar)) ::
        tokens fuel (cs.dropWhile isNameChar)
    else match marks.find? fun m => m.toList.isPrefixOf (c :: cs) with
      | some m => .mark m :: tokens fuel ((c :: cs).drop m.length)
      | none => [.bad]

/-- How weakly an operator between two operands binds. -/
def weakness? (operator : String) : Option Nat :=
  match operator with
  | "*" | "/" | "%" => some 0
  | "+" | "-" => some 1
  | "<<" | ">>" => some 2
  | "<" | "<=" | ">" | ">=" => some 3
  | "==" | "!=" => some 4
  | "&" => some 5
  | "^" => some 6
  | "|" => some 7
  | _ => none

/-- One for true, zero for false. -/
def ofBool (b : Bool) : Int := if b then 1 else 0

/-- The number as a word of 64 bits. -/
def wordOf (a : Int) : BitVec 64 := BitVec.ofInt 64 a

/-- The quotient of two numbers, or what is left over. -/
def divide (whole : Bool) (a b : Int) : Except Defect Int :=
  if b = 0 then .error .divisionByZero
  else if b = -1 && a = Numeral.least then .error .overflow
  else .ok (if whole then a.tdiv b else a.tmod b)

/-- What an operator makes of two numbers. -/
def operate (operator : String) (a b : Int) : Except Defect Int :=
  match operator with
  | "|" => .ok (wordOf a ||| wordOf b).toInt
  | "^" => .ok (wordOf a ^^^ wordOf b).toInt
  | "&" => .ok (wordOf a &&& wordOf b).toInt
  | "<<" => .ok (wordOf a <<< ((wordOf b).toNat % 64)).toInt
  | ">>" => .ok ((wordOf a).sshiftRight ((wordOf b).toNat % 64)).toInt
  | "==" => .ok (ofBool (a == b))
  | "!=" => .ok (ofBool (a != b))
  | "<=" => .ok (ofBool (a ≤ b))
  | ">=" => .ok (ofBool (b ≤ a))
  | "<" => .ok (ofBool (a < b))
  | ">" => .ok (ofBool (b < a))
  | "+" => .ok (wordOf (a + b)).toInt
  | "-" => .ok (wordOf (a - b)).toInt
  | "*" => .ok (wordOf (a * b)).toInt
  | "/" => divide true a b
  | _ => divide false a b

/-- What is left of an expression, and the values that it has given to variables, the last one
first. -/
structure State where
  tokens : List Token
  assigned : List (String × Int)

/-- Reads a part of an expression and finds its value. -/
abbrev Reader (α : Type) := StateT State (Except Defect) α

/-- The next token, which stays. -/
def peek : Reader (Option Token) := return (← get).tokens.head?

/-- Leaves a token behind. -/
def advance : Reader Unit := modify fun s => { s with tokens := s.tokens.drop 1 }

/-- Takes a mark if it stands next. -/
def takeMark (m : String) : Reader Bool := do
  if (← peek) == some (.mark m) then
    advance
    return true
  else return false

/-- The number that a variable holds. -/
def valueOf (lookUp : String → String) (name : String) : Reader Int := do
  match (← get).assigned.lookup name with
  | some n => return n
  | none =>
    let value := lookUp name
    match Numeral.whole? none value with
    | some n => return n
    | none => throw (.badNumber value)

/-- Reads an operand; `inner` reads what is in brackets, and the number bounds the operators in
front. `idle` says that the value does not matter. -/
def primary (lookUp : String → String) (inner : Bool → Reader Int) (idle : Bool) :
    Nat → Reader Int
  | 0 => throw .noPrimary
  | fuel + 1 => do
    let t ← peek
    advance
    match t with
    | some (.number n) => return n
    | some (.name n) => if idle then return 0 else valueOf lookUp n
    | some (.mark "(") =>
      let a ← inner idle
      if ← takeMark ")" then return a else throw .noClosing
    | some (.mark "+") => primary lookUp inner idle fuel
    | some (.mark "-") => return (wordOf (-(← primary lookUp inner idle fuel))).toInt
    | some (.mark "~") => return -(← primary lookUp inner idle fuel) - 1
    | some (.mark "!") => return ofBool ((← primary lookUp inner idle fuel) == 0)
    | _ => throw .noPrimary

/-- The operator that stands next, if it binds more tightly than `weakness`. -/
def operatorWithin? (weakness : Nat) : Reader (Option (String × Nat)) := do
  match ← peek with
  | some (.mark m) =>
    match weakness? m with
    | some w => return if w < weakness then some (m, w) else none
    | none => return none
  | _ => return none

/-- Goes on with operators that bind more tightly than `weakness`; the number bounds them. -/
def climb (operand : Reader Int) (idle : Bool) : Nat → Nat → Int → Reader Int
  | 0, _, a => return a
  | fuel + 1, weakness, a => do
    match ← operatorWithin? weakness with
    | none => return a
    | some (operator, w) =>
      advance
      let b ← climb operand idle fuel w (← operand)
      let c ← if idle then pure b else operate operator a b
      climb operand idle fuel weakness c

/-- Reads operands with operators between them. -/
def operation (operand : Bool → Reader Int) (size : Nat) (idle : Bool) : Reader Int := do
  climb (operand idle) idle size 8 (← operand idle)

/-- Reads conditions of which all have to hold; the number bounds them. -/
def conjunction (operand : Bool → Reader Int) (size : Nat) : Nat → Bool → Reader Int
  | 0, idle => operation operand size idle
  | fuel + 1, idle => do
    let a ← operation operand size idle
    if ← takeMark "&&" then
      let b ← conjunction operand size fuel (idle || a == 0)
      return ofBool (a != 0 && b != 0)
    else return a

/-- Reads conditions of which one has to hold; the number bounds them. -/
def disjunction (operand : Bool → Reader Int) (size : Nat) : Nat → Bool → Reader Int
  | 0, idle => conjunction operand size size idle
  | fuel + 1, idle => do
    let a ← conjunction operand size size idle
    if ← takeMark "||" then
      let b ← disjunction operand size fuel (idle || a != 0)
      return ofBool (a != 0 || b != 0)
    else return a

/-- Reads a choice; `inner` reads what is chosen, and the number bounds choices behind choices. -/
def choice (operand inner : Bool → Reader Int) (size : Nat) : Nat → Bool → Reader Int
  | 0, _ => throw .noPrimary
  | fuel + 1, idle => do
    let a ← disjunction operand size size idle
    if ← takeMark "?" then
      let b ← inner (idle || a == 0)
      if ← takeMark ":" then
        let c ← choice operand inner size fuel (idle || a != 0)
        return if a != 0 then b else c
      else throw .noColon
    else return a

/-- The operator that a mark applies before it assigns; a plain assignment applies none. -/
def assigning? (m : String) : Option (Option String) :=
  if m == "=" then some none
  else if ["<<=", ">>=", "|=", "&=", "^=", "*=", "/=", "%=", "+=", "-="].contains m then
    some (some (m.dropEnd 1).toString)
  else none

/-- Reads an expression in which brackets, choices and assignments are nested so deep at most. -/
def expression (lookUp : String → String) (size : Nat) : Nat → Bool → Reader Int
  | 0, _ => throw .noPrimary
  | depth + 1, idle => do
    let inner := expression lookUp size depth
    let choose := choice (fun idle => primary lookUp inner idle size) inner size size idle
    match (← get).tokens with
    | .name n :: .mark m :: _ =>
      match assigning? m with
      | none => choose
      | some operator =>
        advance
        advance
        let b ← inner idle
        if idle then return b
        else
          let c ← match operator with
            | none => pure b
            | some o => operate o (← valueOf lookUp n) b
          modify fun s => { s with assigned := (n, c) :: s.assigned }
          return c
    | _ => choose

/-- The value of an expression, and the values that it gives to variables, the last one first.
Other variables are looked up. -/
def evaluate (lookUp : String → String) (cs : List Char) :
    Except Defect (Int × List (String × Int)) := do
  let ts := tokens (cs.length + 1) cs
  let size := ts.length + 1
  let (a, s) ← (expression lookUp size size false).run ⟨ts, []⟩
  if s.tokens.isEmpty then return (a, s.assigned) else throw .goesOn

end GatedRelease.Shell.Arithmetic
