import GatedRelease.Git.Repository

/-! Getting a checkout. One that is there is used as it is; an empty place is cloned into; anything
else in the place is left alone and reported. -/
namespace GatedRelease

/-- Why there is no checkout. -/
inductive CheckoutFailure
  | git (failure : Git.Failure)
  /-- Something else is in its place. -/
  | foreign (path : String)
  | file (cause : Cause)
deriving DecidableEq

/-- The failure as an error of a release. -/
def CheckoutFailure.toError : CheckoutFailure → ReleaseError
  | git failure => failure.toError
  | foreign path => .git s!"checkout path {path} exists and is not a git repository"
  | file cause => .io cause.message

/-- Whether a directory holds nothing. -/
def FileSystem.holdsNothing (fs : FileSystem) (p : String) : Except Cause Bool := do
  return (fs.tree.below (← fs.directoryAt p)).entries.isEmpty

namespace Repository

/-- Makes the directory that the checkout is to stand in. -/
def makePlace (r : Repository) : Attempt CheckoutFailure Unit :=
  match PathText.parent? r.checkout with
  | some parent =>
    if parent = "" then pure ()
    else (Attempt.files (FileSystem.makeDirectories parent)).orElseSay .file
  | none => pure ()

/-- Clones the branch into the place of the checkout. -/
def clone (r : Repository) : Attempt CheckoutFailure Unit := do
  let _ ← (Git.demand ⟨.clone r.branch r.remoteUrl r.checkout, ".", none⟩).orElseSay .git

/-- Makes sure that there is a checkout; `true` if it had to be cloned. -/
def ensureCheckout (r : Repository) : Attempt CheckoutFailure Bool := do
  if ← Attempt.inspect (·.pathExists r.checkout) then
    if ← Git.isWorkTreeTop r.checkout then return false
    match ← Attempt.inspect (·.holdsNothing r.checkout) with
    | .error cause => throw (.file cause)
    | .ok false => throw (.foreign r.checkout)
    | .ok true => pure ()
  r.makePlace
  r.clone
  return true

end Repository
end GatedRelease
