import GatedRelease.Plan
import GatedRelease.Proofs.Publish.Footprint
import GatedRelease.Proofs.Script.Performance

/-! # What the stages of a release do

For each kind of stage, one statement tells what its action can do, whatever it is answered: the
commands it hands to the runner, the calls of git, and what it hands on.  Only building and gates
have commands run, one each, and they succeed exactly if the reply passes; only publishing calls git
for anything but a checkout.
-/
namespace GatedRelease

/-- The reply lets a release go on. -/
def Passed (reply : Except RunFailure Output) : Prop :=
  ∃ output, reply = .ok output ∧ output.passed = true

theorem passed_iff {reply : Except RunFailure Output} : Passed reply ↔
    ∃ output, reply = .ok output ∧ output.success = true ∧ output.exitCode = 0 := by
  unfold Passed Output.passed
  simp only [Bool.and_eq_true, beq_iff_eq]

/-- The request is for no command, and for no work of publishing. -/
def Request.Preparing : Request → Prop
  | .command _ => False
  | .git call => call.action.isPublishing = false
  | _ => True

/-- The request is for no command. -/
def Request.Commandless : Request → Prop
  | .command _ => False
  | _ => True

theorem commandRuns_of_commandless {notes : List Note} (h : ∀ n ∈ notes, n.request.Commandless) :
    commandRuns notes = [] := by
  refine List.filterMap_eq_nil_iff.mpr fun n hn => ?_
  have hc := h n hn
  cases n with
  | command c reply => exact absurd hc id
  | _ => rfl

/-- No call of git in the notes is one of publishing. -/
def Unpublishing (notes : List Note) : Prop :=
  ∀ call place outcome, Note.git call place outcome ∈ notes → call.action.isPublishing = false

/-! ## Building -/

namespace Build
variable {b : BuildSettings} {dest : String} {notes : List Note}

theorem build_cases {r : Except BuildFailure Artifact} (h : (build b dest).run.Yields notes r) :
    (notes = [] ∧ ∃ f, r = .error f) ∨
      ∃ reply, notes = [.command (command b) reply] ∧
        ((∃ f, r = .error f) ∨ Passed reply ∧ r = .ok ⟨outputPath b, dest⟩) := by
  unfold build at h
  rcases Attempt.yields_bind.mp h with ⟨f, cleared, rfl⟩ | ⟨_, first, rest, cleared, h₁, rfl⟩ <;>
    obtain ⟨rfl, -⟩ := Attempt.yields_files.mp cleared
  · exact Or.inl ⟨rfl, f, rfl⟩
  obtain ⟨reply, second, rest, ran, h₂, rfl⟩ := Attempt.yields_lift_bind.mp h₁
  obtain rfl := Script.yields_run.mp ran
  refine Or.inr ⟨reply, ?_⟩
  cases reply with
  | error f =>
    obtain ⟨rfl, rfl⟩ := h₂
    exact ⟨rfl, Or.inl ⟨_, rfl⟩⟩
  | ok output =>
    dsimp only at h₂
    cases hp : output.passed with
    | false =>
      rw [hp] at h₂
      obtain ⟨rfl, rfl⟩ := h₂
      exact ⟨rfl, Or.inl ⟨_, rfl⟩⟩
    | true =>
      rw [hp] at h₂
      obtain ⟨fs, h₃⟩ := h₂
      change Script.Yields (ExceptT.run (if fs.isDirectory (outputPath b) = true then
        pure ⟨outputPath b, dest⟩ else throw (.noOutput (outputPath b)))) rest r at h₃
      cases hd : fs.isDirectory (outputPath b) <;> rw [hd] at h₃ <;> obtain ⟨rfl, rfl⟩ := h₃
      · exact ⟨rfl, Or.inl ⟨_, rfl⟩⟩
      · exact ⟨rfl, Or.inr ⟨⟨output, rfl, hp⟩, rfl⟩⟩

/-- **What building does**: it hands its command to the runner, unless it does not come to that,
and succeeds only if the reply passes. -/
theorem action_cases {ctx : Context} {a : Except ReleaseError Unit × Context}
    (h : ((action b dest).execute ctx).Yields notes a) :
    (notes = [] ∧ ∃ e, a = (.error e, ctx)) ∨
      ∃ reply, notes = [.command (command b) reply] ∧
        ((∃ e, a = (.error e, ctx)) ∨
          Passed reply ∧ a = (.ok (), { ctx with artifact := some ⟨outputPath b, dest⟩ })) := by
  obtain ⟨r, first, second, built, ended, rfl⟩ := Script.yields_bind.mp h
  rcases build_cases built with ⟨rfl, f, rfl⟩ | ⟨reply, rfl, ⟨f, rfl⟩ | ⟨passed, rfl⟩⟩ <;>
    obtain ⟨rfl, rfl⟩ := ended
  · exact Or.inl ⟨rfl, _, rfl⟩
  · exact Or.inr ⟨reply, rfl, Or.inl ⟨_, rfl⟩⟩
  · exact Or.inr ⟨reply, rfl, Or.inr ⟨passed, rfl⟩⟩

/-- Building looks at the files, removes some, and has one command run. -/
theorem uses_action {allowed : Request → Prop} {ctx : Context} (look : allowed .look)
    (store : allowed .store) (ran : allowed (.command (command b))) :
    ((action b dest).execute ctx).Uses allowed := by
  refine Script.Uses.bind ?_ fun r => by cases r <;> trivial
  unfold build
  refine Attempt.uses_bind ⟨look, fun _ => ⟨store, trivial⟩⟩ fun _ => ?_
  refine Attempt.uses_bind (Attempt.uses_lift ⟨ran, fun _ => trivial⟩) fun reply => ?_
  cases reply with
  | error failure => trivial
  | ok output =>
    dsimp only
    cases output.passed with
    | false => trivial
    | true =>
      refine Attempt.uses_bind (Attempt.uses_lift ⟨look, fun _ => trivial⟩) fun there => ?_
      cases there <;> trivial

end Build

/-! ## Gates -/

/-- **What a gate does**: it hands its command to the runner, and succeeds exactly if the reply
passes. -/
theorem Gate.action_cases {s : Suite} {repo : Repository} {notes : List Note} {ctx : Context}
    {a : Except ReleaseError Unit × Context}
    (h : ((action s repo).execute ctx).Yields notes a) :
    ∃ reply, notes = [.command (command s repo.checkout) reply] ∧
      ((∃ e, a = (.error e, ctx)) ∧ ¬ Passed reply ∨ Passed reply ∧ a = (.ok (), ctx)) := by
  obtain ⟨v, first, second, verified, ended, rfl⟩ := Script.yields_bind.mp h
  obtain ⟨reply, first, rest, ran, hv, rfl⟩ := Script.yields_bind.mp verified
  obtain ⟨rfl, rfl⟩ := hv
  obtain rfl := Script.yields_run.mp ran
  refine ⟨reply, ?_⟩
  cases reply with
  | error f =>
    obtain ⟨rfl, rfl⟩ := ended
    refine ⟨rfl, Or.inl ⟨⟨_, rfl⟩, ?_⟩⟩
    rintro ⟨_, ⟨⟩, -⟩
  | ok output =>
    unfold verdict at ended
    cases hp : output.passed <;> simp only [hp] at ended <;> obtain ⟨rfl, rfl⟩ := ended
    · refine ⟨rfl, Or.inl ⟨⟨_, rfl⟩, ?_⟩⟩
      rintro ⟨_, ⟨⟩, h⟩
      rw [hp] at h
      exact absurd h (by decide)
    · exact ⟨rfl, Or.inr ⟨⟨output, rfl, hp⟩, rfl⟩⟩

/-- A gate has one command run and asks for nothing else. -/
theorem Gate.uses_action {allowed : Request → Prop} {s : Suite} {repo : Repository} {ctx : Context}
    (ran : allowed (.command (command s repo.checkout))) :
    ((action s repo).execute ctx).Uses allowed := by
  refine Script.Uses.bind (s := verify s repo) ⟨ran, fun _ => trivial⟩ fun v => ?_
  cases v <;> trivial

/-! ## Staging -/

section Checkout
variable {allowed : Request → Prop}

theorem Git.uses_isWorkTreeTop {directory : String}
    (top : allowed (.git ⟨.topLevel, directory, none⟩)) (look : allowed .look) :
    (Git.isWorkTreeTop directory).Uses allowed := by
  refine ⟨top, fun outcome => ?_⟩
  cases outcome with
  | notStarted _ => trivial
  | exited reply =>
    show Script.Uses allowed (if reply.success = true then _ else _)
    split
    · exact ⟨look, fun _ => trivial⟩
    · trivial

variable {repo : Repository} (top : allowed (.git ⟨.topLevel, repo.checkout, none⟩))
  (cloning : allowed (.git ⟨.clone repo.branch repo.remoteUrl repo.checkout, ".", none⟩))
  (look : allowed .look) (store : allowed .store)
include top cloning look store

/-- Getting a checkout calls git for nothing else. -/
theorem Repository.uses_ensureCheckout : repo.ensureCheckout.run.Uses allowed := by
  have cloned : (repo.makePlace >>= fun _ => repo.clone >>= fun _ =>
      (pure true : Attempt CheckoutFailure Bool)).run.Uses allowed := by
    refine Attempt.uses_bind ?_ fun _ => Attempt.uses_bind (Attempt.uses_bind
      (Attempt.uses_orElseSay (Git.uses_demand cloning)) fun _ => trivial) fun _ => trivial
    unfold makePlace
    split
    · split
      · trivial
      · exact Attempt.uses_orElseSay ⟨look, fun _ => ⟨store, trivial⟩⟩
    · trivial
  unfold ensureCheckout
  refine Attempt.uses_bind (Attempt.uses_lift ⟨look, fun _ => trivial⟩) fun there => ?_
  cases there with
  | false => exact cloned
  | true =>
    have asked := Git.uses_isWorkTreeTop top look
    refine Attempt.uses_bind (Attempt.uses_lift asked) fun found => ?_
    cases found with
    | true => trivial
    | false =>
      refine Attempt.uses_bind (Attempt.uses_lift ⟨look, fun _ => trivial⟩) fun empty => ?_
      rcases empty with cause | _ | _
      · trivial
      · trivial
      · exact cloned

/-- **Staging has no command run**, and calls git only to get a checkout. -/
theorem Staging.uses_action {ctx : Context} (suffix : allowed .suffix) :
    ((action repo).execute ctx).Uses allowed := by
  unfold action
  dsimp only
  cases ctx.artifact with
  | none => trivial
  | some artifact =>
    refine Script.Uses.bind ?_ fun r => by cases r <;> trivial
    have checkout := Repository.uses_ensureCheckout top cloning look store
    refine Attempt.uses_bind (Attempt.uses_orElseSay checkout) fun _ => ?_
    exact Attempt.uses_bind (Attempt.uses_lift ⟨suffix, fun _ => trivial⟩)
      fun _ => ⟨look, fun _ => ⟨store, trivial⟩⟩

end Checkout

namespace Staging
variable {repo : Repository}

/-- Staging does nothing that publishes. -/
theorem prepares_action {ctx : Context} :
    ((action repo).execute ctx).Uses Request.Preparing := by
  refine uses_action ?_ ?_ ?_ ?_ ?_ <;> trivial

section Performed
variable {σ : Type} {o : Outside σ} {w : World σ} {ctx : Context}

/-- What is handed on once staging has ended. -/
def handOn (ctx : Context) :
    Except StagingFailure StagedArtifact → Script (Except ReleaseError Unit × Context)
  | .ok staged => .done (.ok (), { ctx with staged := some staged })
  | .error failure => .done (.error failure.toError, ctx)

/-- Staging once getting the checkout has ended. -/
def stageIn (artifact : Artifact) (repo : Repository) :
    Except StagingFailure Bool → Script (Except StagingFailure StagedArtifact)
  | .ok _ => (stage artifact repo).run
  | .error failure => .done (.error failure)

/-- **Staging stages the artifact that it is handed.** -/
theorem action_execute {artifact : Artifact} (ha : ctx.artifact = some artifact) :
    (action repo).execute ctx = (checkoutAndStage artifact repo).run.bind (handOn ctx) := by
  obtain ⟨tag, found, staged, published⟩ := ctx
  obtain rfl : found = some artifact := ha
  refine congrArg _ (funext fun r => ?_)
  cases r
  rfl

/-- **Staging that succeeds has staged the artifact** that it was handed, and hands on what became
of it. -/
theorem action_performed {artifact : Artifact} (ha : ctx.artifact = some artifact)
    (h : (((action repo).execute ctx).play o w).value.1 = .ok ()) :
    ∃ v taken staged,
      (stage artifact repo).run.Performed o v ((action repo).execute ctx) w taken ∧
      ((stage artifact repo).run.play o v).value = .ok staged ∧
      (((action repo).execute ctx).play o w).value.2 = { ctx with staged := some staged } := by
  have he : (action repo).execute ctx = (checkoutAndStage artifact repo).run.bind (handOn ctx) :=
    action_execute ha
  have hc : (checkoutAndStage artifact repo).run =
      (repo.ensureCheckout.orElseSay StagingFailure.noCheckout).run.bind
        (stageIn artifact repo) := by
    unfold checkoutAndStage
    rw [ExceptT.run_bind, Script.bind_eq]
    congr 1
    funext r
    cases r <;> rfl
  rw [he, hc] at h ⊢
  rw [Script.value_bind, Script.value_bind, Script.world_bind] at h
  -- Getting the checkout and staging can each fail, and then there is no success to speak of.
  generalize hx : (repo.ensureCheckout.orElseSay StagingFailure.noCheckout).run = x at h ⊢
  cases hv : (x.play o w).value with
  | error failure =>
    rw [hv] at h
    exact absurd h nofun
  | ok cloned =>
    rw [hv] at h
    dsimp only [stageIn] at h
    cases hs : ((stage artifact repo).run.play o (x.play o w).world).value with
    | error failure =>
      rw [hs] at h
      exact absurd h nofun
    | ok staged =>
      refine ⟨(x.play o w).world, (x.play o w).notes ++ [], staged, .first (.second ?_), hs, ?_⟩
      · rw [hv]
        exact .here
      · rw [Script.value_bind, Script.value_bind, Script.world_bind, hv]
        dsimp only [stageIn]
        rw [hs]
        rfl

end Performed
end Staging

/-! ## Finding out what is released -/

/-- What is released is found out by two questions to git. -/
theorem Release.uses_identify {allowed : Request → Prop} {tag directory : String}
    {names : List String} (top : allowed (.git ⟨.topLevel, directory, none⟩))
    (head : allowed (.git ⟨.head, directory, none⟩)) (look : allowed .look) :
    (identify tag directory names).Uses allowed := by
  refine Script.Uses.bind ?_ fun _ => trivial
  refine (Git.uses_isWorkTreeTop top look).bind fun there => ?_
  cases there with
  | true => exact (Git.uses_headOf head).bind fun _ => trivial
  | false => trivial

/-! ## Publishing -/

/-- **Publishing has no command run.** -/
theorem Publisher.uses_action {p : Publisher} {ctx : Context} :
    (p.action.execute ctx).Uses Request.Commandless := by
  refine Script.Uses.bind ?_ fun r => by cases r <;> trivial
  refine Attempt.uses_bind (uses_credential fun _ => trivial) fun c => ?_
  have entered : (p.enter .publish ctx.tag c).run.Uses Request.Commandless :=
    uses_enter (fun _ _ _ => trivial) (fun _ _ _ => trivial) trivial
  exact entered

end GatedRelease
