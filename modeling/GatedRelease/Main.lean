import GatedRelease.CommandLine.Program
import GatedRelease.Host

/-! The program on a machine of its own. It reads the real configuration and the real environment;
what it does then happens to files, commands and a git that exist only while it runs. -/
namespace GatedRelease.Main

/-- The machine has no clock. -/
def timing : Timing :=
  ⟨"00000000-0000-0000-0000-000000000000", "1970-01-01T00:00:00Z", 0, fun _ => 0⟩

/-- The variables that the program may look at. -/
def variableNames : List String := [CommandLine.tagVariable, CredentialSettings.default.envVar]

/-- The variables that are set. -/
def readVariables : List String → IO (List (String × Bytes))
  | [] => return []
  | name :: rest => do
    let later ← readVariables rest
    match ← IO.getEnv name with
    | some value => return (name, Text.utf8 value) :: later
    | none => return later

/-- The file with the configuration, if arguments name one that can be read. -/
def readConfig (vars : List (String × Bytes)) (arguments : List String) :
    IO (List Arrangement) := do
  match CommandLine.Invocation.parse (vars.lookup CommandLine.tagVariable) arguments with
  | .error _ => return []
  | .ok i =>
    try
      let bytes ← IO.FS.readBinFile i.config
      return [.file i.config bytes.toList false]
    catch _ => return []

/-- The machine at the start. -/
def world (vars : List (String × Bytes)) (files : List Arrangement) :
    World Rehearsal.Cast where
  files := Arrangement.arrange ⟨.empty, []⟩ files
  vars := vars
  cancelled := false
  nonce := 0
  outside := .start [] []

end GatedRelease.Main

open GatedRelease in
/-- Runs the program with the arguments; gives the exit code. -/
def main (arguments : List String) : IO UInt32 := do
  let vars ← Main.readVariables Main.variableNames
  let files ← Main.readConfig vars arguments
  let played := (CommandLine.program Main.timing arguments).play
    (Host.outside (Host.environment vars)) (Main.world vars files)
  IO.print played.value.stdout
  IO.eprint played.value.stderr
  return played.value.code.toUInt32
