import GatedRelease.Config.Basic
import GatedRelease.Text.Utf8

/-! The arguments of the program. Options come before and after the name of a task; some belong to
every task, some to the task that is named. What is not understood is refused as a whole, and asking
for the version or for help ends the reading at once. -/
namespace GatedRelease.CommandLine

/-- An option. -/
inductive Key
  | verbose
  | jsonLog
  | config
  | tag
  | jsonReport
  | remoteUrl
  | checkoutDir
  | branch
  | help
  | version
deriving DecidableEq

namespace Key

/-- The long name, without its dashes. -/
def long : Key → String
  | verbose => "verbose"
  | jsonLog => "json"
  | config => "config"
  | tag => "tag"
  | jsonReport => "json-report"
  | remoteUrl => "remote-url"
  | checkoutDir => "checkout-dir"
  | branch => "branch"
  | help => "help"
  | version => "version"

/-- The letter, if there is one. -/
def letter? : Key → Option Char
  | verbose => some 'v'
  | config => some 'c'
  | tag => some 't'
  | help => some 'h'
  | version => some 'V'
  | jsonLog | jsonReport | remoteUrl | checkoutDir | branch => none

/-- The option is followed by a value. -/
def takesValue : Key → Bool
  | config | tag | remoteUrl | checkoutDir | branch => true
  | verbose | jsonLog | jsonReport | help | version => false

/-- The value is a path, and so not empty. -/
def isPath : Key → Bool
  | config | checkoutDir => true
  | verbose | jsonLog | tag | jsonReport | remoteUrl | branch | help | version => false

/-- The options that stand anywhere. -/
def everywhere : List Key := [verbose, jsonLog, config, help]

/-- The options that replace settings of the configuration. -/
def overriding : List Key := [remoteUrl, checkoutDir, branch]

end Key

/-- Why the arguments name no task. -/
inductive Stop
  | refused
  | help
  | version
deriving DecidableEq

/-- The options that were given, with their values; one without a value has an empty one. -/
abbrev Given := List (Key × String)

/-- One more option. None is given twice. -/
def give (g : Given) (k : Key) (value : String) : Except Stop Given :=
  match k with
  | .help => .error .help
  | .version => .error .version
  | k =>
    if (g.lookup k).isSome || k.isPath && value == "" then .error .refused
    else .ok (g ++ [(k, value)])

/-- What has been read: the options that count, and the last one if its value is an argument of its
own. That one counts only when the next option or the end is reached. -/
structure Progress where
  given : Given
  waiting : Option (Key × Option String)

namespace Progress

/-- Nothing has been read. -/
def start : Progress := ⟨[], none⟩

/-- The options when the last one counts too. One without its value is refused. -/
def settle (p : Progress) : Except Stop Given :=
  match p.waiting with
  | none => .ok p.given
  | some (_, none) => .error .refused
  | some (k, some value) => give p.given k value

/-- One more option that is complete. -/
def add (p : Progress) (k : Key) (value : String) : Except Stop Progress :=
  p.settle.bind fun g => (give g k value).map fun g => ⟨g, none⟩

/-- One more option, whose value is the next argument. -/
def await (p : Progress) (k : Key) : Except Stop Progress :=
  p.settle.map fun g => ⟨g, some (k, none)⟩

end Progress

/-- Reads letters after one dash. The first that takes a value takes all that follows it, without
an equals sign in front; if nothing does, it waits for the next argument. -/
def readLetters (keys : List Key) (p : Progress) : List Char → Except Stop Progress
  | [] => .ok p
  | c :: more =>
    match keys.find? fun k => k.letter? == some c with
    | none => .error .refused
    | some k =>
      if k.takesValue then
        match more with
        | [] => p.await k
        | '=' :: value => p.add k (String.ofList value)
        | value => p.add k (String.ofList value)
      else (p.add k "").bind fun p => readLetters keys p more

/-- Reads a long name, with a value after an equals sign or waiting for the next argument. -/
def readLong (keys : List Key) (p : Progress) (text : List Char) : Except Stop Progress :=
  let name := String.ofList (text.takeWhile (· != '='))
  match keys.find? (fun k => k.long == name), text.dropWhile (· != '=') with
  | none, _ => .error .refused
  | some k, [] => if k.takesValue then p.await k else p.add k ""
  | some k, _ :: value =>
    if k.takesValue then p.add k (String.ofList value) else .error .refused

/-- Reads the options at the front of the arguments. -/
def readOptions (keys : List Key) (p : Progress) :
    List String → Except Stop (Progress × List String)
  | [] => .ok (p, [])
  | a :: rest =>
    match a.toList with
    | ['-', '-'] => .ok (p, a :: rest)
    | '-' :: '-' :: name => (readLong keys p name).bind fun p => readOptions keys p rest
    | '-' :: c :: letters =>
      (readLetters keys p (c :: letters)).bind fun p => readOptions keys p rest
    | _ =>
      match p.waiting with
      | some (k, none) => readOptions keys { p with waiting := some (k, some a) } rest
      | _ => .ok (p, a :: rest)

/-- What is asked for. -/
inductive Task
  /-- A whole release; the report may be JSON. -/
  | run (tag : String) (asJson : Bool)
  /-- The end of a release whose push failed. -/
  | publish (tag : String)
  /-- A list of what a release would do. -/
  | plan
deriving DecidableEq

/-- Settings that stand in for those of the configuration. -/
structure Overrides where
  remoteUrl : Option String
  checkoutDir : Option String
  branch : Option String
deriving DecidableEq

/-- All that the arguments say. -/
structure Invocation where
  /-- The file with the configuration. -/
  config : String
  overrides : Overrides
  task : Task
deriving DecidableEq

/-- The variable with the tag, for when no argument has it. -/
def tagVariable : String := "BINDSHIP_TAG"

/-- The tag: an argument, or the variable if that is text. -/
def tagOf (preset : Option Bytes) (g : Given) : Except Stop String :=
  match g.lookup .tag, preset.bind Text.ofUtf8? with
  | some tag, _ => .ok tag
  | none, some tag => .ok tag
  | none, none => .error .refused

/-- The options of the task with a name. -/
def keysOf? : String → Option (List Key)
  | "run" => some (Key.everywhere ++ [.tag, .jsonReport] ++ Key.overriding)
  | "publish" => some (Key.everywhere ++ [.tag] ++ Key.overriding)
  | "plan" => some (Key.everywhere ++ Key.overriding)
  | _ => none

/-- The task with a name, from its options. -/
def taskOf (preset : Option Bytes) (g : Given) : String → Except Stop Task
  | "run" => (tagOf preset g).map fun tag => .run tag (g.lookup .jsonReport).isSome
  | "publish" => (tagOf preset g).map .publish
  | _ => .ok .plan

/-- Nothing is left but perhaps the mark where the options end. -/
def isEnd : List String → Bool
  | [] => true
  | [a] => a == "--"
  | _ => false

/-- The tasks by name, help included. -/
def taskNames : List String := ["run", "publish", "plan", "help"]

/-- What comes of asking for help: help, unless it is asked for with something else than a task. -/
def helpOn (about : List String) : Stop :=
  match about with
  | [] => .help
  | [task] => if taskNames.contains task then .help else .refused
  | _ => .refused

/-- Reads the arguments after the name of a task, and what the name and they ask for. -/
def readTask (preset : Option Bytes) (keys : List Key) (name : String) (arguments : List String) :
    Except Stop (Given × Task) := do
  let (p, rest) ← readOptions keys .start arguments
  let given ← p.settle
  if !isEnd rest then throw .refused
  return (given, ← taskOf preset given name)

/-- Reads the arguments. The file that is named after the task goes before one named earlier. What
stands after the task is read before what is wrong with the last option in front of it is told. -/
def Invocation.parse (preset : Option Bytes) (arguments : List String) :
    Except Stop Invocation := do
  let (p, rest) ← readOptions (.version :: Key.everywhere) .start arguments
  match rest with
  | [] => throw .refused
  | name :: rest =>
    match keysOf? name with
    | none => throw (if name == "help" then helpOn rest else .refused)
    | some keys =>
      let (inner, task) ← readTask preset keys name rest
      let outer ← p.settle
      return {
        config := ((inner.lookup .config).or (outer.lookup .config)).getD Config.defaultFile
        overrides := ⟨inner.lookup .remoteUrl, inner.lookup .checkoutDir, inner.lookup .branch⟩
        task := task }

/-- The configuration with what stands in for its settings. -/
def Overrides.apply (o : Overrides) (c : Config) : Config :=
  { c with target := { c.target with
      remoteUrl := o.remoteUrl.getD c.target.remoteUrl
      checkoutDir := o.checkoutDir.getD c.target.checkoutDir
      branch := o.branch.getD c.target.branch } }

end GatedRelease.CommandLine
