import GatedRelease.Config.Decode
import GatedRelease.FileSystem.Resolve
import GatedRelease.Toml.Document

/-! Configurations from files. A file that is not there says nothing, so all settings keep their
defaults. -/
namespace GatedRelease

/-- Why a file gives no configuration. -/
inductive LoadFailure
  | file (cause : Cause)
  | malformed (path : String) (error : Toml.SyntaxError)
  | undecodable (path : String) (failure : DecodeFailure)

/-- How the report of a file that cannot be understood begins. -/
def LoadFailure.opening (path : String) : String := s!"failed to parse {path}:"

/-- The failure as an error of a release. -/
def LoadFailure.toError : LoadFailure → ReleaseError
  | file cause => .io cause.message
  | malformed path error => .config s!"{opening path} {error.message}"
  | undecodable path failure => .config s!"{opening path} {failure.message}"

/-- Reads a configuration from a text; `path` is for reports. -/
def Config.parse (path text : String) : Except LoadFailure Config :=
  match Toml.Document.parse text with
  | .error e => .error (.malformed path e)
  | .ok v =>
    match Config.decode v with
    | .error e => .error (.undecodable path e)
    | .ok c => .ok c

/-- Reads the configuration that a file holds. -/
def Config.load (fs : FileSystem) (path : String) : Except LoadFailure Config :=
  if fs.pathExists path then
    match fs.readFile path with
    | .error cause => .error (.file cause)
    | .ok bytes =>
      match Text.ofUtf8? bytes with
      | none => .error (.file .notText)
      | some text => Config.parse path text
  else .ok .default

end GatedRelease
