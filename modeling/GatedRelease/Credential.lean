import GatedRelease.Script.Basic

/-! The secret for publishing and where it comes from. The secret leaves this library only in the
environment of two git commands; what shows a credential to people never shows the secret. -/
namespace GatedRelease

/-- A secret. -/
structure Credential where
  secret : String
deriving DecidableEq

/-- How every credential looks. -/
def Credential.redacted : String := "Credential(<redacted>)"

/-- Where a credential comes from. -/
inductive CredentialProvider
  /-- An environment variable. -/
  | environment (name : String)
  /-- A secret that is known already, or known to be missing. -/
  | fixed (name : String) (secret : Option String)
deriving DecidableEq

namespace CredentialProvider

/-- What the credential is called in reports. -/
def name : CredentialProvider → String
  | environment name => name
  | fixed name _ => name

/-- The credential in the value of a variable: text that is not blank. -/
def ofValue? (value : Option Bytes) : Option Credential :=
  match value.bind Text.ofUtf8? with
  | some text => if Text.isBlank text then none else some ⟨text⟩
  | none => none

/-- Gets the credential. -/
def resolve (p : CredentialProvider) : Attempt ReleaseError Credential := do
  let found ← match p with
    | environment name => ofValue? <$> Script.readVariable name
    | fixed _ secret => pure (secret.map Credential.mk)
  match found with
  | some c => return c
  | none => throw (.credentialMissing p.name)

end CredentialProvider
end GatedRelease
