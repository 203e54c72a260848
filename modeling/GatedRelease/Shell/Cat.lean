import GatedRelease.Shell.FileName
import GatedRelease.Shell.State

/-! The program that writes files one after the other, and can number lines and show what is not
visible. -/
namespace GatedRelease.Shell.Cat

/-- What is done to the bytes. -/
structure Style where
  numbered : Bool
  /-- Only lines with something in them are numbered. -/
  numbersFull : Bool
  squeezed : Bool
  showsEnds : Bool
  showsTabs : Bool
  showsInvisible : Bool

namespace Style

/-- The bytes stay what they are. -/
def plain : Style := ⟨false, false, false, false, false, false⟩

/-- Something is done to the bytes. -/
def isPlain (y : Style) : Bool :=
  !(y.numbered || y.numbersFull || y.squeezed || y.showsEnds || y.showsTabs || y.showsInvisible)

/-- The style with an option. -/
def with? (y : Style) (c : Char) : Option Style :=
  match c with
  | 'A' => some { y with showsEnds := true, showsTabs := true, showsInvisible := true }
  | 'b' => some { y with numbersFull := true }
  | 'e' => some { y with showsEnds := true, showsInvisible := true }
  | 'E' => some { y with showsEnds := true }
  | 'n' => some { y with numbered := true }
  | 's' => some { y with squeezed := true }
  | 't' => some { y with showsTabs := true, showsInvisible := true }
  | 'T' => some { y with showsTabs := true }
  | 'u' => some y
  | 'v' => some { y with showsInvisible := true }
  | _ => none

end Style

/-- Long names of options. -/
def longNames : List (String × Char) := [("number-nonblank", 'b'), ("number", 'n'),
  ("squeeze-blank", 's'), ("show-nonprinting", 'v'), ("show-ends", 'E'), ("show-tabs", 'T'),
  ("show-all", 'A'), ("help", 'h'), ("version", 'V')]

/-- The option that a long name stands for, which may be cut short; what follows an equals sign is
not part of the name. -/
def long? (word : String) : Except String Char :=
  let name := String.ofList (word.toList.takeWhile (· != '='))
  let fitting := longNames.filter fun l => name.toList.isPrefixOf l.1.toList
  let found := match fitting.find? fun l => l.1 == name with
    | some l => [l]
    | none => fitting
  match found with
  | [] => .error s!"unrecognized option '--{word}'"
  | [l] =>
    if name == word then .ok l.2
    else
      let name := l.1
      .error s!"option '--{name}' doesn't allow an argument"
  | _ =>
    let names := String.intercalate " " (found.map fun l => s!"'--{l.1}'")
    .error s!"option '--{word}' is ambiguous; possibilities: {names}"

/-- The style with the options of a word. -/
def letters : List Char → Style → Except String Style
  | [], y => .ok y
  | c :: more, y =>
    match y.with? c with
    | some y => letters more y
    | none => .error s!"invalid option -- '{c}'"

/-- What arguments ask for, and the files among them. -/
def ofArguments : List String → Style → Except String (Style × List String)
  | [], y => .ok (y, [])
  | a :: rest, y =>
    match a.toList with
    | ['-', '-'] => .ok (y, rest)
    | '-' :: '-' :: name => do
      let c ← long? (String.ofList name)
      ofArguments rest ((y.with? c).getD y)
    | '-' :: c :: cs => do ofArguments rest (← letters (c :: cs) y)
    | _ => (ofArguments rest y).map fun (y, files) => (y, a :: files)

/-- Where the writing is: the number of the last numbered line, and how many empty lines have just
ended, or nothing within a line. -/
structure Place where
  number : Nat
  blank : Option Nat

/-- A number in front of a line. -/
def numeral (n : Nat) : Bytes :=
  let ds := toString n
  Octets.toBytes ("".pushn ' ' (6 - ds.length) ++ ds ++ "\t")

/-- A byte, so that it can be seen. -/
def visible (y : Style) (b : UInt8) : Bytes :=
  let shown (b : UInt8) : Bytes :=
    if b < 32 then [94, b + 64] else if b == 127 then [94, 63] else [b]
  if b == 9 then (if y.showsTabs then [94, 73] else [9])
  else if !y.showsInvisible then [b]
  else if 128 ≤ b then [77, 45] ++ shown (b - 128)
  else shown b

/-- The pieces in which bytes are written, the last one first. -/
def pieces (y : Style) : Bytes → Place → List Bytes → List Bytes × Place
  | [], p, out => (out, p)
  | b :: rest, p, out =>
    if b == 10 then
      let finish : Bytes := if y.showsEnds then [36, 10] else [10]
      match p.blank with
      | none => pieces y rest { p with blank := some 0 } (finish :: out)
      | some k =>
        if y.squeezed && 1 ≤ k then pieces y rest p out
        else if y.numbered && !y.numbersFull then
          pieces y rest ⟨p.number + 1, some (k + 1)⟩ ((numeral (p.number + 1) ++ finish) :: out)
        else pieces y rest { p with blank := some (k + 1) } (finish :: out)
    else
      let numbers := p.blank.isSome && (y.numbered || y.numbersFull)
      let number := if numbers then p.number + 1 else p.number
      let front := if numbers then numeral number else []
      let text := if b == 13 && y.showsEnds && rest.head? == some 10 then [94, 77]
        else visible y b
      pieces y rest ⟨number, none⟩ ((front ++ text) :: out)

/-- The handle is on the file whose rest can be read by another, and that rest is not empty. -/
def isOutput (s : State) (input : Handle) : Bool :=
  match s.stream? input, (s.descriptors.lookup 1).bind s.stream? with
  | some (.file l offset), some (.file m _) =>
    l = m && offset < (Stream.contents s.files l).length
  | _, _ => false

/-- Writes what can be read by a handle; gives the state, where the writing is, what is wrong with
the file, and whether nothing can be written any more. -/
def copy (y : Style) (p : Place) (h : Handle) (s : State) :
    State × Place × Option String × Option Cause :=
  if isOutput s h then (s, p, some "input file is output file", none)
  else
    let bytes := if h.reads then match s.stream? h with
        | some x => x.available s.files
        | none => .error .badDescriptor
      else .error .badDescriptor
    match bytes with
    | .error c => (s, p, some c.words, none)
    | .ok bytes =>
      let s := { s with streams := s.streams.modify h.stream (·.skip bytes.length) }
      let (out, p) := if y.isPlain then ([bytes], p) else pieces y bytes p []
      let bytes := out.reverse.flatten
      if bytes.isEmpty then (s, p, none, none)
      else
        let (s, failure) := s.write 1 bytes
        (s, p, none, failure)

/-- Writes files one after the other; gives the state and whether all went well. -/
def files (title : String) (y : Style) : List String → Place → Bool → State → State × Bool
  | [], _, ok, s => (s, ok)
  | f :: rest, p, ok, s =>
    let (opened, s) :=
      if f == "-" then
        ((match s.descriptors.lookup 0 with
          | some h => .ok h
          | none => .error Cause.badDescriptor), s)
      else s.openPath f .reading
    let name := FileName.shown f
    match opened with
    | .error c => files title y rest p false (s.warn s!"{title}: {name}: {c.words}")
    | .ok h =>
      match copy y p h s with
      | (s, _, _, some c) => (s.warn s!"{title}: write error: {c.words}", false)
      | (s, p, some why, none) => files title y rest p false (s.warn s!"{title}: {name}: {why}")
      | (s, p, none, none) => files title y rest p ok s

/-- Writes the files that arguments name, or standard input. -/
def run (title : String) (args : List String) (s : State) : State × Nat :=
  match ofArguments args .plain with
  | .error message =>
    ((s.warn s!"{title}: {message}").warn s!"Try '{title} --help' for more information.", 1)
  | .ok (y, operands) =>
    let operands := if operands.isEmpty then ["-"] else operands
    if (s.descriptors.lookup 1).isNone then
      (s.warn s!"{title}: standard output: {Cause.badDescriptor.words}", 1)
    else
      let (s', ok) := files title y operands ⟨0, some 0⟩ true s
      if operands.contains "-" && (s.descriptors.lookup 0).isNone then
        (s'.warn s!"{title}: closing standard input: {Cause.badDescriptor.words}", 1)
      else (s', if ok then 0 else 1)

end GatedRelease.Shell.Cat
