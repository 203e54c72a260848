import GatedRelease.Proofs.Plan.Gating
import GatedRelease.Proofs.Publish.Steps
import GatedRelease.Proofs.Run.Shape
import GatedRelease.Proofs.Staging.Course

/-! # What the stages of a release hand over

A stage of a release finds in the context what the stages before it have left there, and fails, if
it fails, with an error of its own kind.  Both are said of one stage at a time
(`Stage.HandsOver`): what it takes, what it gives once it has passed, and whose its errors are.  The
stages of a release fit together (`Relay`), so that in every run what a stage takes is there when
the run comes to it, nothing is published before the last stage, and no error is a stranger's
(`HandOver`).

Nothing is assumed of the runner, of git or of the files.
-/
namespace GatedRelease

/-! ## Whose an error is -/

/-- **The error belongs to a stage** of this kind and name: it is one that only such a stage can
end with, or says that the run was to stop before it. -/
def ReleaseError.BelongsTo (kind : StageKind) (name : String) : ReleaseError → Prop
  | .buildFailure _ => kind = .build
  | .stagingFailure reason => kind = .stage ∧ reason ≠ StagingFailure.noArtifact.message
  | .testFailure suite _ => kind = .testGate ∧ name = Plan.gateName suite
  | .publishFailure .. | .credentialMissing _ => kind = .publish
  | .cancelled stage => stage = name
  | .dependencyNotSatisfied .. | .git _ | .config _ | .io _ => False

/-- The text begins, and not with this character. -/
def BeginsOtherwise (c : Char) (s : String) : Prop := ∃ d, s.toList.head? = some d ∧ d ≠ c

namespace BeginsOtherwise
variable {c d : Char} {s : String}

theorem of_head (hs : s.toList.head? = some d) (hd : d ≠ c) : BeginsOtherwise c s := ⟨d, hs, hd⟩

theorem append (h : BeginsOtherwise c s) (t : String) : BeginsOtherwise c (s ++ t) := by
  obtain ⟨d, hd, hc⟩ := h
  refine ⟨d, ?_, hc⟩
  rw [String.toList_append, List.head?_append, hd]
  rfl

end BeginsOtherwise

/-- No error in words begins as the lack of an artifact does. -/
theorem ReleaseError.message_begins (e : ReleaseError) : BeginsOtherwise 'n' e.message := by
  cases e with
  | buildFailure _ => exact .append (.of_head (d := 'b') rfl (by decide)) _
  | stagingFailure _ => exact .append (.of_head (d := 's') rfl (by decide)) _
  | testFailure _ _ =>
    exact .append (.append (.append (.of_head (d := 't') rfl (by decide)) _) _) _
  | publishFailure _ _ =>
    exact .append (.append (.append (.of_head (d := 'p') rfl (by decide)) _) _) _
  | credentialMissing _ => exact .append (.append (.of_head (d := 'c') rfl (by decide)) _) _
  | dependencyNotSatisfied _ _ =>
    exact .append (.append (.append (.append (.of_head (d := 's') rfl (by decide)) _) _) _) _
  | cancelled _ => exact .append (.append (.of_head (d := 'r') rfl (by decide)) _) _
  | git _ => exact .append (.of_head (d := 'g') rfl (by decide)) _
  | config _ => exact .append (.of_head (d := 'i') rfl (by decide)) _
  | io _ => exact .append (.of_head (d := 'i') rfl (by decide)) _

theorem StagingFailure.message_begins {f : StagingFailure} (h : f ≠ .noArtifact) :
    BeginsOtherwise 'n' f.message := by
  cases f with
  | outsideCheckout _ => exact .append (.append (.of_head (d := 'a') rfl (by decide)) _) _
  | checkoutRoot => exact .of_head (d := 'a') rfl (by decide)
  | sourceMissing _ => exact .append (.append (.of_head (d := 'a') rfl (by decide)) _) _
  | sourceUnreadable _ => exact .append (.of_head (d := 'c') rfl (by decide)) _
  | notRemoved _ _ => exact .append (.append (.append (.of_head (d := 'f') rfl (by decide)) _) _) _
  | notPopulated _ failure =>
    exact .append (.append (.append failure.toError.message_begins _) _) _
  | noArtifact => exact absurd rfl h
  | noCheckout _ => exact .append (.of_head (d := 'p') rfl (by decide)) _

/-- **The lack of an artifact is told apart in words** from all else that staging can fail for. -/
theorem StagingFailure.message_ne {f : StagingFailure} (h : f ≠ .noArtifact) :
    f.message ≠ StagingFailure.noArtifact.message := by
  intro same
  obtain ⟨d, hd, other⟩ := message_begins h
  rw [same] at hd
  exact other (Option.some.inj hd).symm

/-! ## Staging an artifact -/

namespace FileStep
variable {ε δ α β : Type}

/-- Whatever the files are, the step fails only so. -/
def FailsOnly (allowed : ε → Prop) (step : FileStep ε α) : Prop :=
  ∀ fs e, (step fs).1 = .error e → allowed e

theorem FailsOnly.bind {allowed : ε → Prop} {x : FileStep ε α} {f : α → FileStep ε β}
    (hx : x.FailsOnly allowed) (hf : ∀ a, (f a).FailsOnly allowed) :
    (x >>= f).FailsOnly allowed := by
  intro fs e h
  rw [bind_apply] at h
  rcases hr : x fs with ⟨e' | a, fs'⟩ <;> rw [hr] at h
  · refine hx fs e ?_
    rw [hr]
    exact congrArg Except.error (Except.error.inj h)
  · exact hf a fs' e h

theorem failsOnly_orElseSay {allowed : δ → Prop} {x : FileStep ε α} {say : ε → δ}
    (h : ∀ e, allowed (say e)) : (x.orElseSay say).FailsOnly allowed := by
  intro fs e he
  rw [orElseSay_apply] at he
  cases hx : (x fs).1 with
  | ok a =>
    rw [hx] at he
    exact absurd he nofun
  | error e' =>
    rw [hx] at he
    rw [← Except.error.inj he]
    exact h e'

theorem failsOnly_throw {allowed : ε → Prop} {e : ε} (h : allowed e) :
    (throw e : FileStep ε α).FailsOnly allowed := by
  rintro fs _ ⟨⟩
  exact h

theorem failsOnly_pure {allowed : ε → Prop} (a : α) :
    (pure a : FileStep ε α).FailsOnly allowed :=
  fun _ _ => nofun

theorem failsOnly_get {allowed : ε → Prop} : (get : FileStep ε FileSystem).FailsOnly allowed :=
  fun _ _ => nofun

end FileStep

namespace Staging
variable {artifact : Artifact} {repo : Repository} {notes : List Note}

/-- A replacement has an artifact, and does not miss one. -/
theorem replace_failsOnly (artifact : Artifact) (checkout suffix : String) :
    (replace artifact checkout suffix).FailsOnly (· ≠ .noArtifact) := by
  unfold replace
  refine .bind ?_ fun p => .bind FileStep.failsOnly_get fun fs => ?_
  · intro fs e h
    rw [FileStep.look_apply] at h
    unfold destination at h
    split at h
    · cases h
      exact nofun
    · split at h
      · cases h
        exact nofun
      · cases h
  · -- What is done with a source that is there fails for other reasons at each of its steps.
    have filled (digest : String) :
        (fill artifact p digest suffix).FailsOnly (· ≠ .noArtifact) :=
      .bind (FileStep.failsOnly_orElseSay fun _ => nofun) fun _ => FileStep.failsOnly_pure _
    have replaced : FileStep.FailsOnly (· ≠ StagingFailure.noArtifact) (do
        let digest ← (FileStep.look (·.treeDigest artifact.source)).orElseSay
          StagingFailure.sourceUnreadable
        if (← get).pathExists p then
          (FileSystem.removeAny p).orElseSay (StagingFailure.notRemoved p)
        fill artifact p digest suffix) := by
      refine .bind (FileStep.failsOnly_orElseSay fun _ => nofun) fun digest =>
        .bind FileStep.failsOnly_get fun gs => ?_
      by_cases there : gs.pathExists p = true
      · rw [if_pos there]
        exact .bind (FileStep.failsOnly_orElseSay fun _ => nofun) fun _ => filled digest
      · rw [if_neg there]
        exact filled digest
    by_cases missing : (!fs.isDirectory artifact.source) = true
    · rw [if_pos missing]
      exact .bind (FileStep.failsOnly_throw nofun) fun _ => replaced
    · rw [if_neg missing]
      exact replaced

/-- Staging with an artifact does not miss one. -/
theorem checkoutAndStage_failure {f : StagingFailure}
    (h : (checkoutAndStage artifact repo).run.Yields notes (.error f)) : f ≠ .noArtifact := by
  unfold checkoutAndStage stage at h
  rcases Attempt.yields_orElseSay_bind.mp h with ⟨e, -, he⟩ | ⟨_, _, _, -, staged, -⟩
  · cases he
    exact nofun
  · obtain ⟨suffix, _, _, -, replaced, -⟩ := Attempt.yields_lift_bind.mp staged
    obtain ⟨-, fs, hr⟩ := Attempt.yields_files.mp replaced
    exact replace_failsOnly artifact repo.checkout suffix fs f hr.symm

end Staging

/-! ## What the actions hand on -/

section Actions
variable {notes : List Note} {ctx : Context} {a : Except ReleaseError Unit × Context}

theorem Build.action_ends {b : BuildSettings} {dest : String}
    (h : ((action b dest).execute ctx).Yields notes a) :
    (∃ reason, a = (.error (.buildFailure reason), ctx)) ∨
      a = (.ok (), { ctx with artifact := some ⟨outputPath b, dest⟩ }) := by
  obtain ⟨r, first, second, built, ended, rfl⟩ := Script.yields_bind.mp h
  rcases build_cases built with ⟨rfl, f, rfl⟩ | ⟨reply, rfl, ⟨f, rfl⟩ | ⟨-, rfl⟩⟩ <;>
    obtain ⟨rfl, rfl⟩ := ended
  · exact Or.inl ⟨_, rfl⟩
  · exact Or.inl ⟨_, rfl⟩
  · exact Or.inr rfl

theorem Gate.action_ends {s : Suite} {repo : Repository}
    (h : ((action s repo).execute ctx).Yields notes a) :
    (∃ details, a = (.error (.testFailure s.name details), ctx)) ∨ a = (.ok (), ctx) := by
  obtain ⟨v, first, second, -, ended, rfl⟩ := Script.yields_bind.mp h
  cases v with
  | pass => exact Or.inr ended.2
  | fail details => exact Or.inl ⟨details, ended.2⟩

theorem Staging.action_ends {repo : Repository} {artifact : Artifact}
    (ha : ctx.artifact = some artifact) (h : ((action repo).execute ctx).Yields notes a) :
    (∃ f : StagingFailure, f ≠ .noArtifact ∧ a = (.error f.toError, ctx)) ∨
      ∃ staged, a = (.ok (), { ctx with staged := some staged }) := by
  rw [action_execute ha] at h
  obtain ⟨r, first, second, ran, ended, rfl⟩ := Script.yields_bind.mp h
  cases r with
  | error f => exact Or.inl ⟨f, checkoutAndStage_failure ran, ended.2⟩
  | ok staged => exact Or.inr ⟨staged, ended.2⟩

namespace Publisher
open Git (History)

/-- A commit that is pushed was named by git. -/
theorem Approach.named {p : Publisher} {tag : String} {c : Credential} {mode : Mode}
    {before : History} {sha : String} {resumed : Bool}
    (h : Approach p tag c mode before sha resumed) :
    sha ≠ "" ∧ ∃ reply : Git.Reply, (p.repository.call .head, .exited reply) ∈ before ∧
      reply.success = true ∧ reply.text = sha := by
  cases h with
  | @fresh _ _ found _ _ _ hf hne _ => exact ⟨hne, found, by simp, hf, rfl⟩
  | @found _ _ _ again _ _ hf hne => exact ⟨hne, again, by simp, hf, rfl⟩
  | left located _ =>
    cases located with
    | @release _ _ _ found _ _ hf hne _ => exact ⟨hne, found, by simp, hf, rfl⟩

theorem action_ends {p : Publisher} (h : (p.action.execute ctx).Yields notes a) :
    (∃ e, (∀ name, e.BelongsTo .publish name) ∧ a = (.error e, ctx)) ∨
      ∃ x, a = (.ok (), { ctx with published := some x }) ∧ x.tag = ctx.tag ∧
        x.branch = p.repository.branch ∧ x.commitSha ≠ "" ∧
        ∃ reply : Git.Reply, (p.repository.call .head, .exited reply) ∈ gitCalls notes ∧
          reply.success = true ∧ reply.text = x.commitSha := by
  obtain ⟨r, attempted, rfl⟩ := attempted_of_action h
  rcases attempt_cases attempted with ⟨rfl, rfl⟩ | ⟨c, course⟩
  · refine Or.inl ⟨_, ?_, rfl⟩
    exact fun _ => rfl
  · cases r with
    | error f =>
      obtain ⟨step, hf, -⟩ := course.blames
      refine Or.inl ⟨_, ?_, rfl⟩
      rw [PublishFailure.toError_of_step hf]
      exact fun _ => rfl
    | ok x =>
      generalize gitCalls notes = calls at course ⊢
      generalize events notes = told at course
      cases course with
      | published approach _ =>
        obtain ⟨hne, reply, looked, hs, ht⟩ := approach.named
        exact Or.inr ⟨_, rfl, rfl, rfl, hne, reply, List.mem_append_left _ looked, hs, ht⟩

end Publisher
end Actions

/-! ## Stages that fit together -/

/-- What the build leaves, and where it belongs. -/
def Plan.artifact (c : Config) : Artifact :=
  ⟨PathText.join c.build.workingDir c.build.outputDir, c.target.artifactPath⟩

/-- The commit that is published, if any, is one that git has named in one of the calls. -/
def Attested (c : Config) (calls : Git.History) (ctx : Context) : Prop :=
  ∀ x, ctx.published = some x → x.commitSha ≠ "" ∧ ∃ reply : Git.Reply,
    (c.repository.call .head, .exited reply) ∈ calls ∧ reply.success = true ∧
      reply.text = x.commitSha

theorem attested_of_unpublished {c : Config} {calls : Git.History} {ctx : Context}
    (h : ctx.published = none) : Attested c calls ctx := by
  intro x hx
  rw [h] at hx
  cases hx

theorem Attested.mono {c : Config} {calls more : Git.History} {ctx : Context}
    (h : Attested c calls ctx) (sub : calls ⊆ more) : Attested c more ctx := by
  intro x hx
  obtain ⟨hne, reply, looked, hs⟩ := h x hx
  exact ⟨hne, reply, sub looked, hs⟩

/-- **What a stage takes and hands on**, whatever it is answered. -/
structure Stage.HandsOver (c : Config) (s : Stage) (takes gives : Context → Prop) : Prop where
  unpublished {ctx : Context} : takes ctx → ctx.published = none
  /-- A stage that stages finds the artifact. -/
  staging : s.kind = .stage → s.action = Staging.action c.repository ∧
    ∀ ctx, takes ctx → ctx.artifact = some (Plan.artifact c)
  passed {ctx : Context} {notes : List Note} {a : Except ReleaseError Unit × Context} :
    takes ctx → (s.action.execute ctx).Yields notes a → a.1 = .ok () →
      gives a.2 ∧ Attested c (gitCalls notes) a.2
  failed {ctx : Context} {notes : List Note} {a : Except ReleaseError Unit × Context}
    {e : ReleaseError} : takes ctx → (s.action.execute ctx).Yields notes a → a.1 = .error e →
      e.BelongsTo s.kind s.name ∧ a.2.published = none

/-- **Stages of which each takes what the one before it gives.** -/
inductive Relay (c : Config) : (Context → Prop) → List Stage → (Context → Prop) → Prop
  | nil {takes : Context → Prop} : Relay c takes [] takes
  | cons {takes between gives : Context → Prop} {s : Stage} {later : List Stage} :
      s.HandsOver c takes between → Relay c between later gives → Relay c takes (s :: later) gives

namespace Relay
variable {c : Config} {takes gives between : Context → Prop} {stages later : List Stage}

theorem append (h : Relay c takes stages between) (h' : Relay c between later gives) :
    Relay c takes (stages ++ later) gives := by
  induction h with
  | nil => exact h'
  | cons hs _ ih => exact .cons hs (ih h')

theorem split (h : Relay c takes (stages ++ later) gives) :
    ∃ between, Relay c takes stages between ∧ Relay c between later gives := by
  induction stages generalizing takes with
  | nil => exact ⟨takes, .nil, h⟩
  | cons s stages ih =>
    cases h with
    | cons hs rest =>
      obtain ⟨between, first, second⟩ := ih rest
      exact ⟨between, .cons hs first, second⟩

end Relay

namespace Stage

/-- Chaining a stage changes nothing about what it takes and gives. -/
theorem HandsOver.chained {c : Config} {s : Stage} {takes gives : Context → Prop}
    (h : s.HandsOver c takes gives) (previous : Option String) :
    (s.chained previous).HandsOver c takes gives where
  unpublished := h.unpublished
  staging hk := by
    rw [chained_kind] at hk
    rw [chained_action]
    exact h.staging hk
  passed ht hy := by
    rw [chained_action] at hy
    exact h.passed ht hy
  failed ht hy := by
    rw [chained_action] at hy
    rw [chained_kind, chained_name]
    exact h.failed ht hy

end Stage

theorem Relay.linearAfter {c : Config} {takes gives : Context → Prop} {stages : List Stage}
    (h : Relay c takes stages gives) (previous : Option String) :
    Relay c takes (Stage.linearAfter previous stages) gives := by
  induction h generalizing previous with
  | nil => exact .nil
  | cons hs _ ih => exact .cons (hs.chained previous) (ih _)

/-! ## The stages of a release -/

/-- A context with an artifact to release under a tag, before it is published. -/
structure Context.Prepared (tag : String) (artifact : Artifact) (ctx : Context) : Prop where
  tag : ctx.tag = tag
  artifact : ctx.artifact = some artifact
  published : ctx.published = none

/-- A context after publishing under a tag to a branch. -/
def Context.Released (tag branch : String) (ctx : Context) : Prop :=
  ∃ x, ctx.published = some x ∧ x.tag = tag ∧ x.branch = branch

namespace Plan
variable (c : Config) (provider : CredentialProvider) (tag : String)

theorem handsOver_buildStage : (buildStage c).HandsOver c (· = .start tag)
    (Context.Prepared tag (artifact c)) where
  unpublished := by
    rintro _ rfl
    rfl
  staging := nofun
  passed := by
    rintro _ notes a rfl h ok
    rcases Build.action_ends h with ⟨reason, rfl⟩ | rfl
    · cases ok
    · exact ⟨⟨rfl, rfl, rfl⟩, attested_of_unpublished rfl⟩
  failed := by
    rintro _ notes a e rfl h failed
    rcases Build.action_ends h with ⟨reason, rfl⟩ | rfl
    · cases failed
      exact ⟨rfl, rfl⟩
    · cases failed

theorem handsOver_stagingStage : (stagingStage c).HandsOver c (Context.Prepared tag (artifact c))
    (Context.Prepared tag (artifact c)) where
  unpublished prepared := prepared.published
  staging _ := ⟨rfl, fun _ prepared => prepared.artifact⟩
  passed := by
    intro ctx notes a prepared h ok
    rcases Staging.action_ends prepared.artifact h with ⟨f, -, rfl⟩ | ⟨staged, rfl⟩
    · cases ok
    · exact ⟨⟨prepared.tag, prepared.artifact, prepared.published⟩,
        attested_of_unpublished prepared.published⟩
  failed := by
    intro ctx notes a e prepared h failed
    rcases Staging.action_ends prepared.artifact h with ⟨f, hf, rfl⟩ | ⟨staged, rfl⟩
    · cases failed
      exact ⟨⟨rfl, StagingFailure.message_ne hf⟩, prepared.published⟩
    · cases failed

theorem handsOver_gate (suite : Suite) : (gate c suite).HandsOver c
    (Context.Prepared tag (artifact c)) (Context.Prepared tag (artifact c)) where
  unpublished prepared := prepared.published
  staging := nofun
  passed := by
    intro ctx notes a prepared h ok
    rcases Gate.action_ends h with ⟨details, rfl⟩ | rfl
    · cases ok
    · exact ⟨prepared, attested_of_unpublished prepared.published⟩
  failed := by
    intro ctx notes a e prepared h failed
    rcases Gate.action_ends h with ⟨details, rfl⟩ | rfl
    · cases failed
      exact ⟨⟨rfl, rfl⟩, prepared.published⟩
    · cases failed

theorem handsOver_publishStage : (publishStage c provider).HandsOver c
    (Context.Prepared tag (artifact c)) (Context.Released tag c.target.branch) where
  unpublished prepared := prepared.published
  staging := nofun
  passed := by
    intro ctx notes a prepared h ok
    rcases Publisher.action_ends h with ⟨e, -, rfl⟩ | ⟨x, rfl, ht, hb, attested⟩
    · cases ok
    · refine ⟨⟨x, rfl, ht.trans prepared.tag, hb⟩, ?_⟩
      rintro _ ⟨⟩
      exact attested
  failed := by
    intro ctx notes a e prepared h failed
    rcases Publisher.action_ends h with ⟨e', own, rfl⟩ | ⟨x, rfl, -⟩
    · cases failed
      exact ⟨own _, prepared.published⟩
    · cases failed

/-- **The stages of a release fit together**, from a context with nothing but the tag to one with
what was published. -/
theorem relay_stages : Relay c (· = .start tag) (stages c provider)
    (Context.Released tag c.target.branch) := by
  have gates : ∀ suites : List Suite, Relay c (Context.Prepared tag (artifact c))
      (suites.map (gate c)) (Context.Prepared tag (artifact c)) := by
    intro suites
    induction suites with
    | nil => exact .nil
    | cons s later ih => exact .cons (handsOver_gate c tag s) ih
  have publishing : Relay c (Context.Prepared tag (artifact c)) [publishStage c provider]
      (Context.Released tag c.target.branch) :=
    .cons (handsOver_publishStage c provider tag) .nil
  exact Relay.linearAfter (.cons (handsOver_buildStage c tag)
    (.cons (handsOver_stagingStage c tag) ((gates c.suites).append publishing))) none

/-- Every stage of a release depends only on stages before it. -/
theorem dependsOn_stages {before later : List Stage} {s : Stage}
    (h : stages c provider = before ++ s :: later) :
    ∀ d ∈ s.dependsOn, d ∈ before.map (·.name) := by
  refine Stage.dependsOn_linearAfter ?_ h
  intro t ht
  simp only [List.mem_append, List.mem_cons, List.mem_map, List.not_mem_nil, or_false] at ht
  rcases ht with ((rfl | rfl) | ⟨suite, -, rfl⟩) | rfl <;> rfl

end Plan

/-! ## In a run -/

namespace Run
variable {σ : Type} {o : Outside σ} {c : Config} {takes gives : Context → Prop}
  {stages : List Stage} {p q : Point σ} {taken : List Note}

/-- **Stages that have passed have handed on what they give.** -/
theorem Passes.given (passes : Passes o p stages taken q) (relay : Relay c takes stages gives)
    (ht : takes p.context) {calls : Git.History} (attested : Attested c calls p.context) :
    gives q.context ∧ Attested c (calls ++ gitCalls taken) q.context := by
  induction passes generalizing takes calls with
  | nil =>
    cases relay
    exact ⟨ht, attested.mono (List.subset_append_left _ _)⟩
  | @cons p q s later taken _ passed _ ih =>
    cases relay with
    | cons hs rest =>
      obtain ⟨given, named⟩ := hs.passed ht (Script.yields_play o _ _) passed
      have now : Attested c (calls ++ gitCalls (p.told o s)) (p.next o s).context := by
        rw [gitCalls_told]
        exact named.mono (List.subset_append_right _ _)
      have := ih rest given now
      rw [gitCalls_append, ← List.append_assoc]
      exact this

end Run

namespace Plan
open Run (Point Passes Stops)

section Release
variable {σ : Type} (o : Outside σ) (w : World σ) (c : Config) (provider : CredentialProvider)
  (release : Release)

/-- **How a release ends**: with what was published, or at a stage with an error of its own, having
published nothing. -/
inductive Ends (played : Played σ RunReport) : Prop
  | released {ctx : Context} : played.value.status = .succeeded → played.value.error = none →
      played.value.published = ctx.published → ctx.Released release.tag c.target.branch →
      Attested c (gitCalls played.notes) ctx → Ends played
  | stopped {s : StageReport} {e : ReleaseError} : played.value.status = .failed →
      played.value.published = none → played.value.error = some e →
      s ∈ played.value.stages → played.value.failedStage = some s.name → s.error = some e →
      e.BelongsTo s.kind s.name → Ends played

variable {o w c provider release}

/-- What stops a release at a stage belongs to the stage, and nothing has been published. -/
theorem belongsTo_of_stops {between gives : Context → Prop} {before later : List Stage} {s : Stage}
    {q : Point σ} {status : StageStatus} {e : ReleaseError} {last : Played σ Context}
    (hs : stages c provider = before ++ s :: later) (hands : s.HandsOver c between gives)
    (given : between q.context) (stops : Stops o q (before.map (·.name)) s status e last) :
    e.BelongsTo s.kind s.name ∧ last.value.published = none := by
  cases stops with
  | cancelled _ => exact ⟨rfl, hands.unpublished given⟩
  | unmet _ first =>
    -- Stages of a release wait for none but stages before them.
    have met := dependsOn_stages c provider hs _ (List.mem_of_find?_eq_some first)
    have unmet := List.find?_some first
    exact absurd met (by simpa using unmet)
  | failed _ _ failed => exact hands.failed given (Script.yields_play o _ _) failed

theorem ends_of_run : Ends c release ((script c provider release).play o w) := by
  obtain ⟨before, rest, taken, q, ending, hd, passes, halts, he⟩ :=
    Run.advance_split (o := o) (⟨[], .start release.tag, w⟩ : Point σ) (stages c provider)
  have pending : ∀ s ∈ before ++ rest, s.status = .pending := hd ▸ stages_pending
  have relay := relay_stages c provider release.tag
  rw [hd] at relay
  obtain ⟨between, first, second⟩ := relay.split
  have blank : Attested c [] (.start release.tag) := attested_of_unpublished rfl
  obtain ⟨given, attested⟩ := passes.given first rfl blank
  have run := Run.play_run (o := o) release (stages c provider) w
  rw [he] at run
  unfold script
  rw [run]
  cases rest with
  | nil =>
    cases halts
    cases second
    refine .released rfl rfl ?_ given (attested.mono ?_)
    · rfl
    show _ ⊆ gitCalls (taken ++ [] ++ Run.farewell _ _)
    simp
  | cons s later =>
    have hb : q.before = before.map (·.ended true) := by simpa using passes.before
    obtain ⟨earlier, others⟩ := List.forall_mem_append.mp pending
    obtain ⟨fresh, unreached⟩ := List.forall_mem_cons.mp others
    obtain ⟨left, status, e, last, stops, reported, named, rfl⟩ := halts.stops hb earlier fresh
    cases second with
    | cons hands _ =>
      obtain ⟨own, unpublished⟩ := belongsTo_of_stops hd hands given stops
      have report := Run.report_stopped release (s := left) last.value e
        (List.forall_mem_append.mpr ⟨earlier, unreached⟩)
      rw [hb]
      refine .stopped (s := s.reported status (some e)) (e := e) ?_ ?_ ?_ ?_ ?_ rfl own <;>
        dsimp only <;> rw [report]
      · exact unpublished
      · rw [reported]
        simp
      · exact congrArg some named

/-- What a stage takes is there when a run comes to it. -/
theorem artifact_of_passes {before later : List Stage} {s : Stage} {taken : List Note} {q : Point σ}
    (hs : stages c provider = before ++ s :: later)
    (passes : Passes o ⟨[], .start release.tag, w⟩ before taken q) (hk : s.kind = .stage) :
    s.action = Staging.action c.repository ∧ q.context.artifact = some (artifact c) := by
  have relay := relay_stages c provider release.tag
  rw [hs] at relay
  obtain ⟨between, first, second⟩ := relay.split
  have blank : Attested c [] (.start release.tag) := attested_of_unpublished rfl
  obtain ⟨given, -⟩ := passes.given first rfl blank
  cases second with
  | cons hands _ =>
    obtain ⟨staging, found⟩ := hands.staging hk
    exact ⟨staging, found _ given⟩

variable (o w c provider release)

/-- **What a release hands over from stage to stage**, and what is left of it in the report. -/
structure HandOver (played : Played σ RunReport) : Prop where
  published_iff : played.value.published.isSome = true ↔ played.value.status = .succeeded
  published : ∀ x, played.value.published = some x →
    x.tag = release.tag ∧ x.branch = c.target.branch ∧ x.commitSha ≠ "" ∧ ∃ reply : Git.Reply,
      (c.repository.call .head, .exited reply) ∈ gitCalls played.notes ∧
        reply.success = true ∧ reply.text = x.commitSha
  /-- The run stopped at a stage, and its error is one of that stage. -/
  error : ∀ e, played.value.error = some e → ∃ s ∈ played.value.stages,
    played.value.failedStage = some s.name ∧ s.error = some e ∧ e.BelongsTo s.kind s.name
  /-- When the run comes to the stage that stages, what it does is to stage what was built. -/
  staged : ∀ before s later taken (q : Point σ), stages c provider = before ++ s :: later →
    Passes o ⟨[], .start release.tag, w⟩ before taken q → s.kind = .stage →
    q.perform o s = ((Staging.checkoutAndStage (artifact c) c.repository).run.bind
      (Staging.handOn q.context)).play o q.world

/-- **The stages of a release hand over what they are to.** For every configuration, provider,
runner, git and files, and whether or not the run is asked to stop: a release is published exactly
if the run succeeds, under its tag and to its branch, with a commit that git has named; what is
staged is what was built; and a run that stops does so with an error of the stage that it stopped
at. -/
theorem hand_over : HandOver o w c provider release ((script c provider release).play o w) := by
  have ends : Ends c release ((script c provider release).play o w) := ends_of_run
  generalize (script c provider release).play o w = played at ends
  refine ⟨?_, ?_, ?_, ?_⟩
  · cases ends with
    | released good _ hp released _ =>
      obtain ⟨x, hx, -⟩ := released
      rw [hp, hx, good]
      exact iff_of_true rfl rfl
    | stopped bad hp _ _ _ _ _ =>
      rw [hp, bad]
      exact iff_of_false nofun nofun
  · intro x hx
    cases ends with
    | released _ _ hp released attested =>
      obtain ⟨y, hy, tag, branch⟩ := released
      rw [hp] at hx
      obtain rfl : y = x := Option.some.inj (hy.symm.trans hx)
      exact ⟨tag, branch, attested y hy⟩
    | stopped _ hp _ _ _ _ _ =>
      rw [hp] at hx
      cases hx
  · intro e he
    cases ends with
    | released _ none _ _ _ =>
      rw [none] at he
      cases he
    | stopped _ _ failed hm named hs own =>
      obtain rfl := Option.some.inj (failed.symm.trans he)
      exact ⟨_, hm, named, hs, own⟩
  · intro before s later taken q hs passes hk
    obtain ⟨staging, found⟩ := artifact_of_passes hs passes hk
    unfold Run.Point.perform
    rw [staging, Staging.action_execute found]

end Release
end Plan

end GatedRelease
