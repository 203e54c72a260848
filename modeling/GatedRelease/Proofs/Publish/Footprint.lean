import GatedRelease.Proofs.Publish.Course

/-! # What publishing asks for

A publisher asks git for work of publishing in its checkout, with the secret only where the remote
is talked to, and tells those who watch.  It does not look at the files itself, leaves none, and has
no command run.
-/
namespace GatedRelease
variable {allowed : Request → Prop}

theorem CredentialProvider.uses_resolve {allowed : Request → Prop} {provider : CredentialProvider}
    (h : ∀ name, allowed (.environment name)) : provider.resolve.run.Uses allowed := by
  unfold resolve
  cases provider with
  | environment name =>
    refine Attempt.uses_bind ⟨h name, fun _ => trivial⟩ fun found => ?_
    cases found <;> trivial
  | fixed _ secret => cases secret <;> trivial

namespace Git

theorem uses_ask {call : Call} (h : allowed (.git call)) : (ask call).run.Uses allowed := by
  unfold ask
  refine Attempt.uses_bind (Attempt.uses_lift ⟨h, fun _ => trivial⟩) fun outcome => ?_
  cases outcome <;> trivial

theorem uses_demand {call : Call} (h : allowed (.git call)) : (demand call).run.Uses allowed := by
  unfold demand
  refine Attempt.uses_bind (uses_ask h) fun reply => ?_
  split <;> trivial

theorem uses_headOf {directory : String} (h : allowed (.git ⟨.head, directory, none⟩)) :
    (headOf directory).run.Uses allowed := by
  unfold headOf
  refine Attempt.uses_bind (uses_demand h) fun reply => ?_
  generalize reply.text = sha
  split <;> trivial

end Git

namespace Publisher
variable {p : Publisher} {tag : String} {c : Credential}

theorem uses_credential (h : ∀ name, allowed (.environment name)) :
    p.credential.run.Uses allowed :=
  Attempt.uses_orElseSay (CredentialProvider.uses_resolve h)

section Calls
variable (plain : ∀ action : Git.Action, action.isPublishing = true → action.needsToken = false →
  allowed (.git (p.repository.call action)))
include plain

theorem uses_checkTagName : (p.checkTagName tag).run.Uses allowed := by
  unfold checkTagName
  refine Attempt.uses_bind (Attempt.uses_orElseSay ?_) fun valid => ?_
  · exact Attempt.uses_bind (Git.uses_ask (plain _ rfl rfl)) fun _ => trivial
  · cases valid <;> trivial

theorem uses_head : p.head.run.Uses allowed :=
  Attempt.uses_orElseSay (Git.uses_headOf (plain _ rfl rfl))

theorem uses_tagTarget : (p.repository.tagTarget tag).run.Uses allowed :=
  Attempt.uses_bind (Git.uses_ask (plain _ rfl rfl)) fun _ => trivial

theorem uses_hasChanges :
    (p.repository.hasChanges.orElseSay (PublishFailure.git .commit)).run.Uses allowed := by
  unfold Repository.hasChanges
  refine Attempt.uses_orElseSay (Attempt.uses_bind (Git.uses_ask (plain _ rfl rfl)) fun reply => ?_)
  split
  · trivial
  · split <;> trivial

theorem uses_checkLocalTag {hasChanges : Bool} :
    (p.checkLocalTag tag hasChanges).run.Uses allowed := by
  unfold checkLocalTag
  refine Attempt.uses_bind (Attempt.uses_orElseSay (uses_tagTarget plain)) fun target => ?_
  cases target with
  | none => trivial
  | some target =>
    refine Attempt.uses_bind (uses_head plain) fun sha => ?_
    by_cases he : target ≠ sha
    · rw [if_pos he]
      trivial
    · rw [if_neg he]
      cases hasChanges <;> trivial

end Calls

section Told
variable (plain : ∀ action : Git.Action, action.isPublishing = true → action.needsToken = false →
  allowed (.git (p.repository.call action)))
  (secret : ∀ action : Git.Action, action.isPublishing = true → action.needsToken = true →
    allowed (.git (p.repository.callWith c action)))
  (remark : allowed .remark)

include secret in
theorem uses_checkRemoteTag : (p.checkRemoteTag tag c).run.Uses allowed := by
  unfold checkRemoteTag
  split
  · refine Attempt.uses_bind (Attempt.uses_orElseSay ?_) fun known => ?_
    · exact Attempt.uses_bind (Git.uses_demand (secret _ rfl rfl)) fun _ => trivial
    · cases known <;> trivial
  · trivial

include secret remark in
theorem uses_push : (p.push tag c).run.Uses allowed := by
  unfold push
  refine Attempt.uses_bind (Attempt.uses_orElseSay ?_) fun _ => ?_
  · exact Attempt.uses_bind (Git.uses_demand (secret _ rfl rfl)) fun _ => trivial
  · exact Attempt.uses_lift ⟨rfl, remark, trivial⟩

include plain remark in
theorem uses_commitAndTag : (p.commitAndTag tag).run.Uses allowed := by
  unfold commitAndTag
  refine Attempt.uses_bind (Attempt.uses_orElseSay ?_) fun sha => ?_
  · exact Attempt.uses_bind (Git.uses_demand (plain _ rfl rfl)) fun _ => Git.uses_headOf (plain _ rfl rfl)
  refine Attempt.uses_bind (Attempt.uses_lift ⟨rfl, remark, trivial⟩) fun _ => ?_
  refine Attempt.uses_bind (Attempt.uses_lift ?_) fun tagged => ?_
  · exact Attempt.uses_bind (Git.uses_demand (plain _ rfl rfl)) fun _ => trivial
  cases tagged with
  | error f =>
    refine Attempt.uses_bind (Attempt.uses_lift ?_) fun _ => trivial
    exact Attempt.uses_bind (Git.uses_demand (plain _ rfl rfl)) fun _ => trivial
  | ok _ => exact Attempt.uses_bind (Attempt.uses_lift ⟨rfl, remark, trivial⟩) fun _ => trivial

include plain secret remark in
/-- **Publishing with a credential only asks git**, and tells those who watch. -/
theorem uses_enter {mode : Mode} : (p.enter mode tag c).run.Uses allowed := by
  have pushed (r : Published) :
      (p.push tag c >>= fun _ => (pure r : Attempt PublishFailure Published)).run.Uses allowed :=
    Attempt.uses_bind (uses_push secret remark) fun _ => trivial
  -- Each lookup may end the course, and whatever it answers, the rest asks for what is allowed.
  cases mode with
  | publish =>
    show (p.publishWith tag c).run.Uses allowed
    unfold publishWith
    refine Attempt.uses_bind (uses_checkTagName plain) fun _ => ?_
    refine Attempt.uses_bind (Attempt.uses_orElseSay ?_) fun _ => ?_
    · exact Attempt.uses_bind (Git.uses_demand (plain _ rfl rfl)) fun _ => trivial
    refine Attempt.uses_bind (uses_hasChanges plain) fun hasChanges => ?_
    refine Attempt.uses_bind (uses_checkLocalTag plain) fun resumed => ?_
    refine Attempt.uses_bind (uses_checkRemoteTag secret) fun _ => ?_
    cases resumed with
    | true => exact Attempt.uses_bind (uses_head plain) fun sha => pushed _
    | false =>
      cases hasChanges with
      | true => exact Attempt.uses_bind (uses_commitAndTag plain remark) fun sha => pushed _
      | false => trivial
  | resume =>
    show (p.resumeWith tag c).run.Uses allowed
    unfold resumeWith
    refine Attempt.uses_bind (uses_checkTagName plain) fun _ => ?_
    refine Attempt.uses_bind (Attempt.uses_orElseSay (uses_tagTarget plain)) fun target => ?_
    cases target with
    | none => trivial
    | some target =>
      refine Attempt.uses_bind (uses_head plain) fun sha => ?_
      split
      · trivial
      · exact Attempt.uses_bind (uses_checkRemoteTag secret) fun _ => pushed _

end Told
end Publisher
end GatedRelease
