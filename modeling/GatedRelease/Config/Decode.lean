import GatedRelease.Config.Basic
import GatedRelease.Toml.Value

/-! Configurations as value trees. Reading completes what is not said from the defaults and passes
over keys that it does not know; writing says everything. A section may also be an array of its
settings in order, and a word may also be the one key of a table that holds nothing. -/
namespace GatedRelease

/-- Why a value is not a configuration. -/
inductive DecodeFailure
  | wrongType (expected : String)
  | unknownWord (word : String)

/-- The failure in words. -/
def DecodeFailure.message : DecodeFailure → String
  | wrongType expected => s!"expected {expected}"
  | unknownWord word => s!"unknown word '{word}'"

namespace Toml.Value

/-- The text of a string. -/
def toText : Value → Except DecodeFailure String
  | .string s => .ok s
  | _ => .error (.wrongType "a string")

/-- The truth of a boolean. -/
def toBool : Value → Except DecodeFailure Bool
  | .boolean b => .ok b
  | _ => .error (.wrongType "a boolean")

/-- A number of seconds. -/
def toSeconds : Value → Except DecodeFailure Nat
  | .integer n =>
    if 0 ≤ n ∧ n < 0x10000000000000000 then .ok n.toNat
    else .error (.wrongType "an unsigned integer")
  | _ => .error (.wrongType "an integer")

/-- The items of an array, each read by `item`. -/
def toList {α : Type} (item : Value → Except DecodeFailure α) :
    Value → Except DecodeFailure (List α)
  | .array items => items.mapM item
  | _ => .error (.wrongType "an array")

/-- A word out of `all`, which `text` writes out. -/
def toWord {α : Type} (all : List α) (text : α → String) (v : Value) : Except DecodeFailure α :=
  let find (word : String) : Except DecodeFailure α :=
    match all.find? fun a => text a == word with
    | some a => .ok a
    | none => .error (.unknownWord word)
  match v with
  | .string word => find word
  | .table [(word, .table [])] => find word
  | .table [(word, .array [])] => find word
  | _ => .error (.wrongType "a word")

/-- What a section says about a setting, where `keys` are its settings in order. -/
def setting? (keys : List String) (key : String) : Value → Except DecodeFailure (Option Value)
  | .table fields => .ok (fields.lookup key)
  | .array items => .ok (items[keys.idxOf key]?)
  | .dateTime _ => .ok none
  | _ => .error (.wrongType "a table")

/-- A setting read by `read`, or its default. -/
def settingOr {α : Type} (keys : List String) (section' : Value) (key : String) (default : α)
    (read : Value → Except DecodeFailure α) : Except DecodeFailure α := do
  match ← setting? keys key section' with
  | some v => read v
  | none => return default

end Toml.Value

open Toml (Value)

namespace BuildSettings

/-- The build settings in order. -/
def keys : List String :=
  ["command", "working_dir", "profile", "release_flag", "features", "no_default_features",
    "output_dir", "timeout_secs"]

/-- Reads the build settings. -/
def decode (v : Value) : Except DecodeFailure BuildSettings := do
  let d := BuildSettings.default
  return {
    command := ← v.settingOr keys "command" d.command (Value.toList Value.toText)
    workingDir := ← v.settingOr keys "working_dir" d.workingDir Value.toText
    profile := ← v.settingOr keys "profile" d.profile
      (Value.toWord BuildProfile.all BuildProfile.text)
    releaseFlag := ← v.settingOr keys "release_flag" d.releaseFlag Value.toText
    features := ← v.settingOr keys "features" d.features (Value.toList Value.toText)
    noDefaultFeatures := ← v.settingOr keys "no_default_features" d.noDefaultFeatures Value.toBool
    outputDir := ← v.settingOr keys "output_dir" d.outputDir Value.toText
    timeoutSecs := ← v.settingOr keys "timeout_secs" d.timeoutSecs Value.toSeconds }

/-- Writes the build settings. -/
def encode (b : BuildSettings) : Value := .table [
  ("command", .array (b.command.map .string)),
  ("working_dir", .string b.workingDir),
  ("profile", .string b.profile.text),
  ("release_flag", .string b.releaseFlag),
  ("features", .array (b.features.map .string)),
  ("no_default_features", .boolean b.noDefaultFeatures),
  ("output_dir", .string b.outputDir),
  ("timeout_secs", .integer b.timeoutSecs)]

end BuildSettings

namespace TargetSettings

/-- The target settings in order. -/
def keys : List String :=
  ["remote_url", "checkout_dir", "branch", "artifact_path", "commit_message", "committer_name",
    "committer_email"]

/-- Reads the target settings. -/
def decode (v : Value) : Except DecodeFailure TargetSettings := do
  let d := TargetSettings.default
  return {
    remoteUrl := ← v.settingOr keys "remote_url" d.remoteUrl Value.toText
    checkoutDir := ← v.settingOr keys "checkout_dir" d.checkoutDir Value.toText
    branch := ← v.settingOr keys "branch" d.branch Value.toText
    artifactPath := ← v.settingOr keys "artifact_path" d.artifactPath Value.toText
    commitMessage := ← v.settingOr keys "commit_message" d.commitMessage Value.toText
    committerName := ← v.settingOr keys "committer_name" d.committerName Value.toText
    committerEmail := ← v.settingOr keys "committer_email" d.committerEmail Value.toText }

/-- Writes the target settings. -/
def encode (t : TargetSettings) : Value := .table [
  ("remote_url", .string t.remoteUrl),
  ("checkout_dir", .string t.checkoutDir),
  ("branch", .string t.branch),
  ("artifact_path", .string t.artifactPath),
  ("commit_message", .string t.commitMessage),
  ("committer_name", .string t.committerName),
  ("committer_email", .string t.committerEmail)]

end TargetSettings

namespace CredentialSettings

/-- The credential settings in order. -/
def keys : List String := ["env_var"]

/-- Reads the credential settings. -/
def decode (v : Value) : Except DecodeFailure CredentialSettings := do
  return { envVar := ← v.settingOr keys "env_var" CredentialSettings.default.envVar Value.toText }

/-- Writes the credential settings. -/
def encode (c : CredentialSettings) : Value := .table [("env_var", .string c.envVar)]

end CredentialSettings

namespace PipelineSettings

/-- The pipeline settings in order. -/
def keys : List String := ["reject_existing_tag"]

/-- Reads the pipeline settings. -/
def decode (v : Value) : Except DecodeFailure PipelineSettings := do
  let d := PipelineSettings.default
  return {
    rejectExistingTag := ← v.settingOr keys "reject_existing_tag" d.rejectExistingTag Value.toBool }

/-- Writes the pipeline settings. -/
def encode (p : PipelineSettings) : Value :=
  .table [("reject_existing_tag", .boolean p.rejectExistingTag)]

end PipelineSettings

namespace Suite

/-- The settings of a suite in order. -/
def keys : List String :=
  ["name", "kind", "command", "working_dir", "destination", "destination_flag", "skip",
    "skip_flag", "timeout_secs"]

/-- Reads a suite. -/
def decode (v : Value) : Except DecodeFailure Suite := do
  let d := Suite.default
  return {
    name := ← v.settingOr keys "name" d.name Value.toText
    kind := ← v.settingOr keys "kind" d.kind (Value.toWord SuiteKind.all SuiteKind.text)
    command := ← v.settingOr keys "command" d.command (Value.toList Value.toText)
    workingDir := ← v.settingOr keys "working_dir" d.workingDir Value.toText
    destination := ← v.settingOr keys "destination" d.destination fun x => some <$> x.toText
    destinationFlag := ← v.settingOr keys "destination_flag" d.destinationFlag Value.toText
    skip := ← v.settingOr keys "skip" d.skip (Value.toList Value.toText)
    skipFlag := ← v.settingOr keys "skip_flag" d.skipFlag Value.toText
    timeoutSecs := ← v.settingOr keys "timeout_secs" d.timeoutSecs Value.toSeconds }

/-- Writes a suite. A destination that is not set is left out. -/
def encode (s : Suite) : Value := .table (
  [("name", .string s.name),
    ("kind", .string s.kind.text),
    ("command", .array (s.command.map .string)),
    ("working_dir", .string s.workingDir)] ++
  (match s.destination with
    | some d => [("destination", .string d)]
    | none => []) ++
  [("destination_flag", .string s.destinationFlag),
    ("skip", .array (s.skip.map .string)),
    ("skip_flag", .string s.skipFlag),
    ("timeout_secs", .integer s.timeoutSecs)])

end Suite

namespace Config

/-- The sections in order. -/
def keys : List String := ["build", "target", "credential", "pipeline", "suites"]

/-- Reads a configuration. Suites that are given replace the default ones as a whole. -/
def decode (v : Value) : Except DecodeFailure Config := do
  let d := Config.default
  return {
    build := ← v.settingOr keys "build" d.build BuildSettings.decode
    target := ← v.settingOr keys "target" d.target TargetSettings.decode
    credential := ← v.settingOr keys "credential" d.credential CredentialSettings.decode
    pipeline := ← v.settingOr keys "pipeline" d.pipeline PipelineSettings.decode
    suites := ← v.settingOr keys "suites" d.suites (Value.toList Suite.decode) }

/-- Writes a configuration. -/
def encode (c : Config) : Value := .table [
  ("build", c.build.encode),
  ("target", c.target.encode),
  ("credential", c.credential.encode),
  ("pipeline", c.pipeline.encode),
  ("suites", .array (c.suites.map Suite.encode))]

end Config
end GatedRelease
