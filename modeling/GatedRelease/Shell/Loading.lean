import GatedRelease.FileSystem.Resolve
import GatedRelease.Shell.System
import GatedRelease.Text.Octets

/-! Starting programs. A file may be a program of the system, or name in its first line the program
that it is to be handed to; that one may do the same, a few times over. -/
namespace GatedRelease.Shell.Loading

/-- A program of the system, and all of its arguments, of which the first is its own name. -/
structure Image where
  program : String
  argv : List String

/-- How many files may name each other. -/
def depthLimit : Nat := 6

/-- How much of a file is looked at to find out what it is. -/
def headSize : Nat := 256

/-- The longest argument. -/
def argumentLimit : Nat := 131071

/-- A blank in the first line of a file. -/
def isBlank (c : Char) : Bool := c == ' ' || c == '\t'

/-- A text without blanks at its ends. -/
def trim (cs : List Char) : List Char :=
  ((cs.dropWhile isBlank).reverse.dropWhile isBlank).reverse

/-- The program that the first line of a file names, and one more argument. A line that is not seen
to its end has at least to show the whole name. One that ends with the file may name nothing. -/
def interpreter? (bytes : Bytes) : Option (String × Option String) :=
  let head := (Octets.ofBytes (bytes.take headSize)).toList
  match head with
  | '#' :: '!' :: rest =>
    let line := rest.takeWhile fun c => c != '\n' && c.toNat != 0
    let whole := line.length < rest.length || bytes.length < headSize
    let line := if whole then line else line.take (headSize - 3)
    let words := trim line
    let name := words.takeWhile fun c => !isBlank c
    let cutShort := !whole && !((line.dropWhile isBlank).any isBlank)
    let names := !name.isEmpty || (whole && (rest.drop line.length).head? != some '\n')
    if !names || cutShort then none
    else
      let argument := trim (words.drop name.length)
      some (String.ofList name,
        if argument.isEmpty then none else some (String.ofList argument))
  | _ => none

/-- What is started when the file at a path is, with arguments of which the first is its own name;
the number bounds the files that name each other. -/
def loadWithin (fs : FileSystem) : Nat → String → List String → Except Cause Image
  | 0, _, _ => .error .tooManyLinks
  | depth + 1, path, argv => do
    let l ← fs.canonical (Octets.decode path)
    match System.device? l, fs.tree.find? l with
    | none, some (.file bytes true) =>
      match System.program? l with
      | some program => return ⟨program, argv⟩
      | none =>
        match interpreter? bytes with
        | none => throw .badFormat
        | some (name, argument) =>
          if name == "" then throw .denied
          loadWithin fs depth name (name :: argument.toList ++ path :: argv.drop 1)
    | _, _ => throw .denied

/-- What is started when the file at a path is. -/
def load (fs : FileSystem) (path : String) (argv : List String) : Except Cause Image :=
  if argv.any fun a => argumentLimit < a.length then .error .listTooLong
  else loadWithin fs depthLimit path argv

end GatedRelease.Shell.Loading
