import GatedRelease.Toml.Number

/-! Dates and times of a configuration file: a date, a time, or both with or without an offset.
Each part has to be in its range; nothing else is made of them. -/
namespace GatedRelease.Toml.DateTime

/-- Exactly `count` digits, as a number up to `high`. -/
def field (count low high : Nat) : Reader Nat := do
  let ds := (← get).take count
  if ds.length = count ∧ ds.all Char.isDigit then
    let n := Number.valueOf 10 ds
    if low ≤ n ∧ n ≤ high then
      modify (·.drop count)
      return n
    else throw .outOfRange
  else throw .badNumber

/-- A year with a day more than others. -/
def isLeap (year : Nat) : Bool := year % 4 == 0 && (year % 100 != 0 || year % 400 == 0)

/-- The last day of a month. -/
def lastDay (year month : Nat) : Nat :=
  if month = 2 then (if isLeap year then 29 else 28)
  else if month = 4 ∨ month = 6 ∨ month = 9 ∨ month = 11 then 30
  else 31

/-- Year, month and day. -/
def date : Reader Unit := do
  let year ← field 4 0 9999
  Reader.expect '-'
  let month ← field 2 1 12
  Reader.expect '-'
  let _ ← field 2 1 (lastDay year month)

/-- Hour, minute and second, which may have a fraction. -/
def time : Reader Unit := do
  let _ ← field 2 0 23
  Reader.expect ':'
  let _ ← field 2 0 59
  Reader.expect ':'
  let _ ← field 2 0 60
  match ← get with
  | '.' :: c :: rest =>
    if c.isDigit then set (rest.dropWhile Char.isDigit) else throw .badNumber
  | _ => return

/-- The distance from universal time, if one is given. -/
def offset : Reader Unit := do
  match ← get with
  | c :: rest =>
    if c == 'Z' || c == 'z' then set rest
    else if c == '+' || c == '-' then
      set rest
      let _ ← field 2 0 23
      Reader.expect ':'
      let _ ← field 2 0 59
    else return
  | [] => return

/-- The text starts with `count` digits and then `mark`. -/
def startsWith (count : Nat) (mark : Char) (cs : List Char) : Bool :=
  (cs.take count).length == count && (cs.take count).all Char.isDigit && cs[count]? == some mark

/-- The text starts as a date does. -/
def startsDate (cs : List Char) : Bool := startsWith 4 '-' cs

/-- The text starts as a time does. -/
def startsTime (cs : List Char) : Bool := startsWith 2 ':' cs

/-- What may stand between a date and a time. -/
def isDelimiter (c : Char) : Bool := c == 'T' || c == 't' || c == ' '

/-- Reads a date, a time or both. -/
def dateTime : Reader Value := do
  let before ← get
  if startsTime before then time
  else
    date
    match ← get with
    | c :: rest =>
      if isDelimiter c && startsTime rest then
        set rest
        time
        offset
    | [] => pure ()
  let after ← get
  return .dateTime (String.ofList (before.take (before.length - after.length)))

end GatedRelease.Toml.DateTime
