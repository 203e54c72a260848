/-! Programs of the command shell: commands, and the words that commands are made of. A word is a
row of pieces, and a piece may hold words and commands in turn. -/
namespace GatedRelease.Shell

/-- What becomes of the value of a parameter. -/
inductive Treatment
  | plain
  /-- Something that nothing can become of. -/
  | bad
  /-- The word stands for a missing value. -/
  | useDefault
  /-- The word stands for a missing value, and the parameter gets it. -/
  | assignDefault
  /-- The word stands for a value that is there. -/
  | useAlternative
  /-- A missing value ends the program. -/
  | complain
  /-- The number of bytes. -/
  | length
  /-- What fits the word is taken from one end, be that the shortest such part or the longest. -/
  | trim (atEnd longest : Bool)
deriving DecidableEq

/-- How a redirection opens its target. -/
inductive Opening
  | input
  /-- A file that is emptied, unless files are to be spared. -/
  | output
  /-- A file that is emptied. -/
  | clobbering
  | appending
  | both
  /-- Another descriptor, or a dash for none. -/
  | copy
  /-- The target itself is the input. -/
  | document
deriving DecidableEq

/-- A redirection of a descriptor. -/
structure Redirect (word : Type) where
  descriptor : Nat
  opening : Opening
  target : word

mutual

/-- A part of a word. What is quoted is neither split nor taken for a pattern. -/
inductive Piece
  | text (quoted : Bool) (chars : List Char)
  /-- A parameter; with `orEmpty` set, an empty value counts as missing. -/
  | parameter (quoted : Bool) (name : String) (treatment : Treatment) (orEmpty : Bool)
      (word : List Piece)
  /-- The output of a command. -/
  | substitution (quoted : Bool) (c : Command)
  | arithmetic (quoted : Bool) (expression : List Piece)

/-- A command. -/
inductive Command
  | simple (line : Nat) (assignments : List (String × List Piece)) (words : List (List Piece))
      (redirects : List (Redirect (List Piece)))
  | nothing
  /-- Commands with pipes between them. -/
  | pipe (commands : List Command)
  | andThen (first second : Command)
  | orElse (first second : Command)
  | sequence (first second : Command)
  | negation (c : Command)
  | subshell (c : Command)
  /-- The program does not wait for the command. -/
  | background (c : Command)
  | redirected (line : Nat) (c : Command) (redirects : List (Redirect (List Piece)))
  | cond (test yes no : Command)
  | whileLoop (until' : Bool) (test body : Command)
  | forLoop (line : Nat) (name : String) (words : Option (List (List Piece))) (body : Command)
  /-- The first command with a pattern that the word fits. -/
  | select (line : Nat) (word : List Piece) (branches : List (List (List Piece) × Command))
  /-- From now on a name stands for a command. -/
  | define (name : String) (body : Command)

end

/-- A word of a program. -/
abbrev Word := List Piece

namespace Word

/-- A piece before a word; texts that are quoted alike become one. -/
def cons : Piece → Word → Word
  | .text q cs, .text r ds :: w =>
    if q = r then .text q (cs ++ ds) :: w else .text q cs :: .text r ds :: w
  | p, w => p :: w

/-- The text of a word without quotes and expansions. -/
def plain? : Word → Option String
  | [.text false cs] => some (String.ofList cs)
  | _ => none

/-- The characters of a word in which nothing is expanded. -/
def literal (w : Word) : List Char :=
  w.flatMap fun
    | .text _ cs => cs
    | _ => []

/-- Something in the word is quoted. -/
def hasQuotes (w : Word) : Bool :=
  w.any fun
    | .text q _ => q
    | _ => false

end Word
end GatedRelease.Shell
