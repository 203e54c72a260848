import GatedRelease.Script.Run

/-! A git and a runner that answer as they are told, to try out a release without either. Git goes
by rules: the first one that applies to a call answers it. The runner gives its replies in order.
Answers may come with changes to the files. -/
namespace GatedRelease

/-- A file to be arranged. Missing directories above it come about too. -/
inductive Arrangement
  | file (path : String) (bytes : Bytes) (executable : Bool)
  | directory (path : String)
  | link (path target : String)
  | removal (path : String)
deriving DecidableEq

namespace Arrangement

/-- Makes the directories above a path. -/
def makeParents (path : String) : FileStep Cause Unit :=
  FileSystem.makeDirectories ((PathText.parent? path).getD "")

/-- The steps that arrange the file. -/
def step : Arrangement → FileStep Cause Unit
  | file path bytes executable => do
    makeParents path
    FileSystem.writeFile path bytes (some executable)
  | directory path => FileSystem.makeDirectories path
  | link path target => do
    makeParents path
    FileSystem.makeLink target path
  | removal path => FileSystem.removeAny path

/-- The files after the arrangements; one that is not possible is left out. -/
def arrange (files : FileSystem) (arrangements : List Arrangement) : FileSystem :=
  arrangements.foldl (fun fs a => (a.step fs).2) files

end Arrangement

namespace Rehearsal

/-- How git answers calls of some kind. -/
structure Rule where
  /-- What the arguments, with spaces between them, have to contain. -/
  pattern : String
  /-- How often the rule applies, if there is a limit. -/
  times : Option Nat
  files : List Arrangement
  reply : Git.Reply
deriving DecidableEq

/-- What the runner replies to one command; the command's label goes into a failure. -/
structure RunnerReply where
  result : String → Except RunFailure Output
  files : List Arrangement
  /-- The run is asked to stop. -/
  raises : Bool

/-- What git and the runner still have to say. -/
structure Cast where
  /-- The rules, with how often each was used. -/
  rules : List (Rule × Nat)
  replies : List RunnerReply

/-- Git and runner at the start. -/
def Cast.start (rules : List Rule) (replies : List RunnerReply) : Cast :=
  ⟨rules.map fun r => (r, 0), replies⟩

/-- The text contains the pattern. -/
def contains (pattern : List Char) : List Char → Bool
  | [] => pattern.isEmpty
  | c :: rest => pattern.isPrefixOf (c :: rest) || contains pattern rest

/-- The rule applies to a call with these arguments, after `used` uses. -/
def Rule.applies (r : Rule) (used : Nat) (arguments : String) : Bool :=
  contains r.pattern.toList arguments.toList &&
    match r.times with
    | some limit => used < limit
    | none => true

/-- The first rule that applies, and the rules with one more use of it. -/
def choose (arguments : String) : List (Rule × Nat) → Option Rule × List (Rule × Nat)
  | [] => (none, [])
  | (r, used) :: rest =>
    if r.applies used arguments then (some r, (r, used + 1) :: rest)
    else ((choose arguments rest).1, (r, used) :: (choose arguments rest).2)

/-- The answer of a git that has nothing to say. -/
def silent : Git.Reply := ⟨0, [], []⟩

/-- What git answers to arguments. -/
def answer (arguments : List String) (files : FileSystem) (rules : List (Rule × Nat)) :
    Git.Reply × FileSystem × List (Rule × Nat) :=
  match choose (String.intercalate " " arguments) rules with
  | (some r, rules) =>
    ({ r.reply with code := r.reply.code % 256 }, Arrangement.arrange files r.files, rules)
  | (none, rules) => (silent, files, rules)

/-- The reply of a runner that has nothing more to say. -/
def lastReply : RunnerReply := ⟨fun _ => .ok ⟨0, "", "", true⟩, [], false⟩

/-- The outside that goes by rules and replies. -/
def outside : Outside Cast where
  git call _ files cast :=
    match answer call.action.arguments files cast.rules with
    | (reply, files, rules) => (reply, files, { cast with rules := rules })
  command c files cast :=
    let reply := cast.replies.headD lastReply
    { result := reply.result c.label
      files := Arrangement.arrange files reply.files
      raised := reply.raises
      state := { cast with replies := cast.replies.drop 1 } }

end Rehearsal
end GatedRelease
