import GatedRelease.Proofs.Publish.Footprint
import GatedRelease.Proofs.Script.Performance

/-! # Runs that differ in the secret alone

Two people hold a secret each (`Holder`), and both run a release in the same world.  What they run
need not be the same script, since the secret is part of it from the moment it is known.
`Script.Alike` says that the two scripts cannot be told apart by anything but the secret: from every
world they come to values that are related, leave the same world, and take the same notes but for
the secret in calls of git.  And each call of git is handed the secret of the one who makes it if it
talks to the remote, and no secret otherwise.

The relation goes through `bind`, holds between a script without secrets and itself
(`Uses.alike`), and between two calls that hand git the one secret and the other
(`alike_callGit`).  Of git and the runner it is asked only that their answers do not depend on the
secret.
-/
namespace GatedRelease

/-- What git answers, and what it does, does not depend on the secret that it is handed. -/
def Outside.IgnoresToken {σ : Type} (o : Outside σ) : Prop :=
  ∀ (call : Git.Call) (token : Option String) place files state,
    o.git { call with token := token } place files state = o.git call place files state

namespace CredentialProvider

/-- The credential that is found when these are the variables. -/
def find? (p : CredentialProvider) (vars : List (String × Bytes)) : Option Credential :=
  match p with
  | environment name => ofValue? (lookUpVariable vars name)
  | fixed _ secret => secret.map Credential.mk

/-- Getting the credential is no more than looking it up. -/
theorem play_resolve {σ : Type} (o : Outside σ) (p : CredentialProvider) (w : World σ) :
    p.resolve.run.play o w =
      ⟨(p.find? w.vars).elim (.error (.credentialMissing p.name)) .ok, w, []⟩ := by
  cases p with
  | environment name =>
    have read : Script.play o (ExceptT.run (ofValue? <$>
        (liftM (Script.readVariable name) : Attempt ReleaseError (Option Bytes)))) w =
          ⟨.ok (ofValue? (lookUpVariable w.vars name)), w, []⟩ := rfl
    have found : (environment name).find? w.vars = ofValue? (lookUpVariable w.vars name) := rfl
    unfold resolve
    rw [ExceptT.run_bind, Script.bind_eq, Script.play_bind, read, found]
    cases ofValue? (lookUpVariable w.vars name) <;> rfl
  | fixed name secret => cases secret <;> rfl

end CredentialProvider

/-- Someone who holds a secret, with the variables of the program that releases. -/
structure Holder where
  vars : List (String × Bytes)
  provider : CredentialProvider
  credential : Credential
  found : provider.find? vars = some credential
  /-- A program can be started with the secret. -/
  clean : Char.ofNat 0 ∉ credential.secret.toList
  /-- The program that releases was not itself started with a secret for git. -/
  unset : lookUpVariable vars Git.tokenVariable = none

namespace Holder

/-- The world with the holder's variables. -/
def world {σ : Type} (h : Holder) (w : World σ) : World σ := { w with vars := h.vars }

/-- What git finds where the secret is handed over. Git is started with the variables of the
program that releases, and those that the call sets. -/
def received (h : Holder) (call : Git.Call) : Option Bytes :=
  (call.token.map Text.utf8).or (lookUpVariable h.vars Git.tokenVariable)

/-- The call hands over the holder's secret if it is for the remote, and no secret otherwise. -/
def Hands (h : Holder) (call : Git.Call) : Prop :=
  h.received call =
    if call.action.needsToken then some (Text.utf8 h.credential.secret) else none

theorem hands_plain (h : Holder) {call : Git.Call} (ht : call.token = none)
    (hn : call.action.needsToken = false) : h.Hands call := by
  unfold Hands received
  rw [ht, hn, h.unset]
  rfl

theorem hands_secret (h : Holder) {call : Git.Call} (ht : call.token = some h.credential.secret)
    (hn : call.action.needsToken = true) : h.Hands call := by
  unfold Hands received
  rw [ht, hn]
  rfl

end Holder

/-- The note without the secret. -/
def Note.bare : Note → Note
  | .git call place outcome => .git { call with token := none } place outcome
  | n => n

variable {σ α β γ δ ε : Type}

/-- **Two runs, one by each of two people**, that cannot be told apart but by the secrets. -/
structure Played.Alike (a b : Holder) (R : α → β → Prop) (r : Played σ α) (s : Played σ β) :
    Prop where
  value : R r.value s.value
  world : ∃ w, r.world = a.world w ∧ s.world = b.world w
  notes : r.notes.map Note.bare = s.notes.map Note.bare
  own : ∀ x ∈ gitCalls r.notes, a.Hands x.1
  other : ∀ x ∈ gitCalls s.notes, b.Hands x.1

namespace Played.Alike
variable {a b : Holder} {R : α → β → Prop} {r : Played σ α} {s : Played σ β}

/-- A call of git, with what became of it, is one more in the notes. -/
theorem after_git (h : Alike a b R r s) {call call' : Git.Call} {place : Option Location}
    {outcome : Git.Outcome} (hc : { call with token := none } = { call' with token := none })
    (own : a.Hands call) (other : b.Hands call') :
    Alike a b R (r.after (.git call place outcome)) (s.after (.git call' place outcome)) where
  value := h.value
  world := h.world
  notes := by
    have hn := h.notes
    simp only [Played.after, List.map_cons, Note.bare, hc, hn]
  own := List.forall_mem_cons.mpr ⟨own, h.own⟩
  other := List.forall_mem_cons.mpr ⟨other, h.other⟩

/-- Any other note is one more in the notes of both. -/
theorem after (h : Alike a b R r s) {n : Note} (hn : n.call? = none) :
    Alike a b R (r.after n) (s.after n) where
  value := h.value
  world := h.world
  notes := congrArg (n.bare :: ·) h.notes
  own := by
    have : gitCalls (n :: r.notes) = gitCalls r.notes := List.filterMap_cons_none hn
    exact this ▸ h.own
  other := by
    have : gitCalls (n :: s.notes) = gitCalls s.notes := List.filterMap_cons_none hn
    exact this ▸ h.other

end Played.Alike

/-- The request does not depend on who makes it, and takes no secret. -/
def Request.Open : Request → Prop
  | .git call => call.token = none ∧ call.action.needsToken = false
  | .environment _ => False
  | _ => True

namespace Script
variable {o : Outside σ} {a b : Holder}

/-- **Two scripts, one for each of two people**, whose runs cannot be told apart but by the
secrets. -/
def Alike (o : Outside σ) (a b : Holder) (R : α → β → Prop) (s : Script α) (t : Script β) : Prop :=
  ∀ w, Played.Alike a b R (s.play o (a.world w)) (t.play o (b.world w))

theorem alike_done {R : α → β → Prop} {x : α} {y : β} (h : R x y) :
    Alike o a b R (done x) (done y) :=
  fun w => ⟨h, ⟨w, rfl, rfl⟩, rfl, nofun, nofun⟩

theorem Alike.bind {R : α → β → Prop} {S : γ → δ → Prop} {s : Script α} {t : Script β}
    {f : α → Script γ} {g : β → Script δ} (h : Alike o a b R s t)
    (hf : ∀ x y, R x y → Alike o a b S (f x) (g y)) : Alike o a b S (s.bind f) (t.bind g) := by
  intro w
  have first := h w
  obtain ⟨v, hv, hv'⟩ := first.world
  have second := hf _ _ first.value v
  rw [← hv, ← hv'] at second
  rw [play_bind, play_bind]
  refine ⟨second.value, second.world, ?_, ?_, ?_⟩
  · dsimp only
    rw [List.map_append, List.map_append, first.notes, second.notes]
  · dsimp only
    rw [gitCalls_append]
    exact List.forall_mem_append.mpr ⟨first.own, second.own⟩
  · dsimp only
    rw [gitCalls_append]
    exact List.forall_mem_append.mpr ⟨first.other, second.other⟩

/-- Two calls of git that git does not tell apart come to the same. -/
theorem alike_git {R : α → β → Prop} {call call' : Git.Call} {next : Git.Outcome → Script α}
    {next' : Git.Outcome → Script β}
    (bare : { call with token := none } = { call' with token := none })
    (nul : call.holdsNul = call'.holdsNul)
    (same : ∀ place files state, o.git call place files state = o.git call' place files state)
    (own : a.Hands call) (other : b.Hands call')
    (rest : ∀ outcome, Alike o a b R (next outcome) (next' outcome)) :
    Alike o a b R (git call next) (git call' next') := by
  intro w
  have directory : call.directory = call'.directory := congrArg (·.directory) bare
  -- Neither the start of git nor what it does looks at the variables.
  obtain ⟨outcome, place, v, ha, hb⟩ : ∃ outcome place v,
      (a.world w).callGit o call = (outcome, place, a.world v) ∧
        (b.world w).callGit o call' = (outcome, place, b.world v) := by
    unfold World.callGit
    rw [← nul, ← directory]
    cases call.holdsNul with
    | true => exact ⟨_, _, w, rfl, rfl⟩
    | false =>
      simp only [Holder.world, Bool.false_eq_true, if_false, ← same]
      cases w.files.workplace call.directory with
      | error cause => exact ⟨_, _, w, rfl, rfl⟩
      | ok place =>
        let done := o.git call place w.files w.outside
        exact ⟨.exited done.1, some place,
          { w with files := done.2.1, outside := done.2.2 }, rfl, rfl⟩
  simp only [play, ha, hb]
  exact (rest outcome v).after_git bare own other

/-- **A script without secrets is alike for all**: it calls git without one, and does not look at
the variables. -/
theorem Uses.alike {s : Script α} (hs : s.Uses Request.Open) : Alike o a b Eq s s := by
  induction s with
  | done x => exact alike_done rfl
  | look next ih => exact fun w => ih w.files (hs.2 _) w
  | store fs next ih => exact fun w => ih hs.2 { w with files := fs }
  | git call next ih =>
    obtain ⟨⟨ht, hn⟩, hs⟩ := hs
    exact alike_git rfl rfl (fun _ _ _ => rfl) (a.hands_plain ht hn) (b.hands_plain ht hn)
      fun outcome => ih outcome (hs outcome)
  | command c next ih => exact fun w => (ih _ (hs.2 _) (w.runCommand o c).2).after rfl
  | environment name next ih => exact absurd hs.1 id
  | cancelled next ih => exact fun w => ih w.cancelled (hs.2 _) w
  | raise next ih => exact fun w => ih hs.2 { w with cancelled := true }
  | suffix next ih => exact fun w => ih _ (hs.2 _) { w with nonce := w.nonce + 1 }
  | note n next ih =>
    have hn : n.call? = none := by
      cases n with
      | git => exact absurd hs.1 nofun
      | _ => rfl
    exact fun w => (ih hs.2.2 w).after hn

/-- A call with a secret that a program can be started with starts if it does without. -/
theorem holdsNul_secret (h : Holder) (action : Git.Action) (directory : String) :
    Git.Call.holdsNul ⟨action, directory, some h.credential.secret⟩ =
      Git.Call.holdsNul ⟨action, directory, none⟩ := by
  have clean : h.credential.secret.toList.contains (Char.ofNat 0) = false := by
    simpa using h.clean
  simp only [Git.Call.holdsNul, Option.toList_some, Option.toList_none, List.any_cons,
    List.cons_append, List.nil_append, clean, Bool.false_or]

/-- **A call for the remote**, by each with the own secret. -/
theorem alike_callGit (ho : o.IgnoresToken) {action : Git.Action} (hn : action.needsToken = true)
    (directory : String) :
    Alike o a b Eq (callGit ⟨action, directory, some a.credential.secret⟩)
      (callGit ⟨action, directory, some b.credential.secret⟩) := by
  refine alike_git rfl ?_ ?_ (a.hands_secret rfl hn) (b.hands_secret rfl hn)
    fun outcome => alike_done rfl
  · rw [holdsNul_secret, holdsNul_secret]
  · intro place files state
    exact ho ⟨action, directory, some b.credential.secret⟩ _ place files state

end Script
end GatedRelease
