import GatedRelease.Config.Validate
import GatedRelease.Proofs.Plan.Gating
import GatedRelease.Proofs.Run.Shape
import GatedRelease.Proofs.Staging.Course

/-! # Destinations that are refused too late

A configuration says where in the checkout the artifact belongs.  It is judged when it is read, and
again when the artifact is staged, and the two judgements agree but for paths that stray: relative
ones that go up, or that do not name anything (`Stray`).  Those are taken for paths inside the
checkout when the configuration is read (`validate_eq`), and refused by the stager.

A release with such a destination cannot get past staging (`wasted_of_refused`): it fails there,
once the build has been run, unless it has failed before.
-/
namespace GatedRelease
open PathText (isAbsolute pieces)

namespace Config

/-- The configuration, with another place for the artifact. -/
def placing (c : Config) (path : String) : Config :=
  { c with target := { c.target with artifactPath := path } }

/-- **Nothing but the place of the artifact** can be wrong. -/
def SoundElsewhere (c : Config) : Prop := ∃ path, (c.placing path).validate = .ok ()

/-- **A path that strays**: it is relative, but goes up or does not name anything. -/
def Stray (path : String) : Prop :=
  path ≠ "" ∧ isAbsolute path = false ∧
    (".." ∈ pieces path ∨ ∀ s ∈ pieces path, s = "" ∨ s = ".")

theorem validate_eq_ok_iff {c : Config} : c.validate = .ok () ↔ c.defect? = none := by
  unfold validate
  cases c.defect? <;> simp

/-- **How the place of the artifact is judged** when a configuration is read. -/
theorem validate_eq {c : Config} (sound : c.SoundElsewhere) : c.validate =
    if c.target.artifactPath = "" ∨ isAbsolute c.target.artifactPath = true then
      .error .artifactOutside
    else .ok () := by
  obtain ⟨path, h⟩ := sound
  rw [validate_eq_ok_iff] at h
  unfold defect? placing at h
  unfold validate defect?
  split_ifs at h with h₁ h₂ h₃ h₄ h₅ h₆ h₇ h₈
  rw [if_neg h₁, if_neg h₂, if_neg h₃, if_neg h₄, if_neg h₆, if_neg h₇, if_neg h₈]
  by_cases outside : c.target.artifactPath = "" ∨ isAbsolute c.target.artifactPath = true
  · rw [if_pos outside, if_pos outside]
  · rw [if_neg outside, if_neg outside, h]

theorem accepts_iff {c : Config} (sound : c.SoundElsewhere) : c.validate = .ok () ↔
    c.target.artifactPath ≠ "" ∧ isAbsolute c.target.artifactPath = false := by
  rw [validate_eq sound, ← Bool.not_eq_true, ne_eq, ← not_or]
  by_cases outside : c.target.artifactPath = "" ∨ isAbsolute c.target.artifactPath = true
  · rw [if_pos outside]
    exact ⟨nofun, fun h => absurd outside h⟩
  · rw [if_neg outside]
    exact ⟨fun _ => outside, fun _ => rfl⟩

end Config

namespace Staging
variable {f : StagingFailure}

/-- A path that strays is refused by the stager. -/
theorem destination_of_stray {path : String} (stray : Config.Stray path) (checkout : String) :
    destination path checkout =
      .error (if ".." ∈ pieces path then .outsideCheckout path else .checkoutRoot) := by
  obtain ⟨-, relative, idle⟩ := stray
  rw [destination_eq, relative]
  by_cases up : ".." ∈ pieces path
  · rw [if_pos (Or.inr up), if_pos up]
  · have nowhere : ¬∃ s ∈ pieces path, ¬(s = "" ∨ s = ".") := fun ⟨s, hs, counts⟩ =>
      counts (idle.resolve_left up s hs)
    rw [if_neg (not_or.mpr ⟨Bool.false_ne_true, up⟩), if_neg nowhere, if_neg up]

/-- **Staging fails for a destination that is refused**, if not for want of a checkout. -/
theorem action_refused {ctx : Context} {artifact : Artifact} {repo : Repository}
    {notes : List Note} {a : Except ReleaseError Unit × Context}
    (ha : ctx.artifact = some artifact)
    (refused : destination artifact.dest repo.checkout = .error f)
    (h : ((action repo).execute ctx).Yields notes a) :
    a.1 = .error f.toError ∨
      ∃ failure, a.1 = .error (StagingFailure.noCheckout failure).toError := by
  rw [action_execute ha] at h
  obtain ⟨r, _, _, ran, ended, -⟩ := Script.yields_bind.mp h
  unfold checkoutAndStage stage at ran
  rcases Attempt.yields_orElseSay_bind.mp ran with ⟨failure, -, rfl⟩ | ⟨_, _, _, -, staged, -⟩
  · obtain ⟨-, rfl⟩ := ended
    exact Or.inr ⟨failure, rfl⟩
  · obtain ⟨suffix, _, _, -, replaced, -⟩ := Attempt.yields_lift_bind.mp staged
    obtain ⟨-, fs, hr⟩ := Attempt.yields_files.mp replaced
    rw [replace_refused refused] at hr
    subst hr
    obtain ⟨-, rfl⟩ := ended
    exact Or.inl rfl

end Staging

/-! ## Runs that fail -/

/-- The run has failed at a stage of this name, with this error. -/
def Ending.FailedAt (e : Ending) (name : String) (error : ReleaseError) : Prop :=
  ∃ position, e.failure = some (position, error) ∧
    e.stages[position]?.map (·.name) = some name

namespace Run
variable {σ : Type} {o : Outside σ} {p : Point σ} {s : Stage} {later : List Stage} {name : String}
  {error : ReleaseError}

theorem report_failedAt {e : Ending} (release : Release) (h : e.FailedAt name error) :
    (report release e).success = false ∧ (report release e).failedStage = some name ∧
      (report release e).error = some error := by
  obtain ⟨position, failure, named⟩ := h
  refine ⟨?_, ?_, ?_⟩
  · rw [success_report, failure]
    rfl
  · simpa [report, failedStage?, failure] using named
  · simp [report, failure]

/-- A run that ends at a stage has failed there, and has run at most the commands of the stage. -/
theorem Halts.failedAt {commands : List Command} {x : Played σ Ending}
    (h : Halts o p (s :: later) x) (hs : s.Commands commands) :
    ∃ e, x.value.FailedAt s.name e ∧ (commandRuns x.notes).map (·.1) <+: commands ∧
      (e = .cancelled s.name ∨ unmetDependency? p.before s ≠ none ∨
        (p.perform o s).value.1 = .error e) := by
  cases h with
  | cancelled _ => exact ⟨_, ⟨_, rfl, by simp⟩, List.nil_prefix, Or.inl rfl⟩
  | unmet _ missing =>
    refine ⟨_, ⟨_, rfl, by simp⟩, List.nil_prefix, Or.inr (Or.inl ?_)⟩
    rw [missing]
    exact nofun
  | failed _ failed =>
    refine ⟨_, ⟨_, rfl, by simp⟩, ?_, Or.inr (Or.inr failed)⟩
    rw [commandRuns_told]
    exact (perform_inTurn hs).inOrder

end Run

/-! ## Releases with such a destination -/

namespace Plan
variable {σ : Type} {o : Outside σ} {w : World σ} {c : Config} {provider : CredentialProvider}
  {release : Release} {f : StagingFailure}

/-- **Where a release ends, and with which error**, if its destination is refused. -/
inductive EndsEarly (f : StagingFailure) : String → ReleaseError → Prop
  /-- The build comes first, and it can fail, or not be started, for reasons of its own. -/
  | building (e : ReleaseError) : EndsEarly f StageKind.build.text e
  | cancelled : EndsEarly f StageKind.stage.text (.cancelled StageKind.stage.text)
  | uncloned (failure : CheckoutFailure) :
      EndsEarly f StageKind.stage.text (StagingFailure.noCheckout failure).toError
  | refused : EndsEarly f StageKind.stage.text f.toError

/-- **A release that does not get past staging.** -/
structure Wasted (c : Config) (f : StagingFailure) (played : Played σ RunReport) : Prop where
  failed : played.value.success = false
  ended : ∃ name e, EndsEarly f name e ∧ played.value.failedStage = some name ∧
    played.value.error = some e
  /-- Nothing but the build is run. -/
  commands : (commandRuns played.notes).map (·.1) <+: [Build.command c.build]
  unpublishing : Unpublishing played.notes

theorem refused_of_perform {q : Run.Point σ} {s : Stage} {artifact : Artifact}
    (hs : s.action = Staging.action c.repository) (ha : q.context.artifact = some artifact)
    (refused : Staging.destination artifact.dest c.target.checkoutDir = .error f) :
    (q.perform o s).value.1 = .error f.toError ∨
      ∃ failure, (q.perform o s).value.1 = .error (StagingFailure.noCheckout failure).toError := by
  unfold Run.Point.perform
  rw [hs]
  exact Staging.action_refused ha refused (Script.yields_play o _ _)

/-- **The stages are not gone through** if the destination is refused. -/
theorem advance_refused (o : Outside σ) (w : World σ) (provider : CredentialProvider)
    (release : Release)
    (refused : Staging.destination c.target.artifactPath c.target.checkoutDir = .error f) :
    let e := (⟨[], .start release.tag, w⟩ : Run.Point σ).advance o (stages c provider)
    (∃ name error, EndsEarly f name error ∧ e.value.FailedAt name error) ∧
    (commandRuns e.notes).map (·.1) <+: [Build.command c.build] := by
  obtain ⟨rest, hs⟩ : ∃ rest, stages c provider = (buildStage c).chained none ::
    (stagingStage c).chained (some (buildStage c).name) :: rest := ⟨_, rfl⟩
  rw [hs]
  generalize hp : (⟨[], .start release.tag, w⟩ : Run.Point σ) = p
  rcases Run.advance_step (o := o) p ((buildStage c).chained none) _ with
    halted | ⟨-, passed, step⟩
  · -- The run has ended with the stage that builds.
    obtain ⟨e, failed, ran, -⟩ := halted.failedAt (commands_buildStage c)
    exact ⟨⟨_, e, .building e, failed⟩, ran⟩
  obtain ⟨ran, handed⟩ := built_of_perform rfl passed
  rw [step]
  simp only [commandRuns_append, Run.commandRuns_told, List.map_append, ran]
  generalize hq : p.next o ((buildStage c).chained none) = q
  have found : q.context.artifact = some ⟨Build.outputPath c.build, c.target.artifactPath⟩ := by
    rw [← hq]
    exact handed
  have met : Run.unmetDependency? q.before
      ((stagingStage c).chained (some (buildStage c).name)) = none := by
    rw [← hq, ← hp]
    rfl
  have fails := refused_of_perform (o := o)
    (s := (stagingStage c).chained (some (buildStage c).name)) rfl found refused
  rcases Run.advance_step (o := o) q ((stagingStage c).chained (some (buildStage c).name)) rest with
    halted | ⟨-, passed, -⟩
  · -- The run has ended with the stage that stages, which has no command.
    obtain ⟨e, failed, silent, why⟩ := halted.failedAt (commands_stagingStage c)
    rw [List.prefix_nil.mp silent, List.append_nil]
    refine ⟨⟨_, e, ?_, failed⟩, List.prefix_refl _⟩
    rcases why with rfl | unmet | failed
    · exact .cancelled
    · exact absurd met unmet
    · rcases fails with fails | ⟨failure, fails⟩
      · rw [Except.error.inj (failed.symm.trans fails)]
        exact .refused
      · rw [Except.error.inj (failed.symm.trans fails)]
        exact .uncloned failure
  · rcases fails with fails | ⟨failure, fails⟩ <;>
      exact absurd (passed.symm.trans fails) nofun

/-- **A release with a destination that is refused** ends with its stage that stages, or before. -/
theorem wasted_of_refused
    (refused : Staging.destination c.target.artifactPath c.target.checkoutDir = .error f) :
    Wasted c f ((script c provider release).play o w) := by
  obtain ⟨⟨name, error, early, failed⟩, ran⟩ := advance_refused o w provider release refused
  obtain ⟨unsuccessful, failedStage, reported⟩ := Run.report_failedAt release failed
  refine ⟨?_, ⟨name, error, early, ?_, ?_⟩, ?_, ?_⟩
  · rw [script, Run.play_run]
    exact unsuccessful
  · rw [script, Run.play_run]
    exact failedStage
  · rw [script, Run.play_run]
    exact reported
  · rw [script, Run.commandRuns_run]
    exact ran
  · intro call place outcome hn
    by_contra publishing
    rw [Bool.not_eq_false] at publishing
    -- All stages before would have passed, with something staged.
    obtain ⟨before, after, hn⟩ := List.append_of_mem hn
    obtain ⟨_, _, t, _, -, -, passes, -⟩ := reached_of_publishing publishing hn
    obtain ⟨_, v, staged, -, done, -⟩ := performed_of_preparation [t] passes
    have dest : Staging.destination
        (⟨Build.outputPath c.build, c.target.artifactPath⟩ : Artifact).dest c.repository.checkout =
      .error f := refused
    have stopped := Staging.play_stage o v
      ⟨Build.outputPath c.build, c.target.artifactPath⟩ c.repository
    rw [Staging.replace_refused dest, done] at stopped
    exact absurd (Prod.mk.inj stopped).1 nofun

end Plan

/-! ## The two judgements -/

/-- **The stager refuses more destinations than reading the configuration does.**  If nothing else
is wrong with a configuration, it is accepted exactly if the stager takes its destination or the
destination strays, and no defect but that of the destination is reported.  A destination that
strays is always refused by the stager, and each release with it is wasted. -/
theorem Config.accepted_iff {c : Config} (sound : c.SoundElsewhere) :
    (∀ checkout, c.validate = .ok () ↔
      (∃ p, Staging.destination c.target.artifactPath checkout = .ok p) ∨
        Stray c.target.artifactPath) ∧
    (c.validate ≠ .ok () → c.validate = .error .artifactOutside) ∧
    (Stray c.target.artifactPath → ∃ f,
      f = (if ".." ∈ pieces c.target.artifactPath then .outsideCheckout c.target.artifactPath
        else .checkoutRoot) ∧
      (∀ checkout, Staging.destination c.target.artifactPath checkout = .error f) ∧
      ∀ (σ : Type) (o : Outside σ) (w : World σ) (provider : CredentialProvider)
        (release : Release), Plan.Wasted c f ((Plan.script c provider release).play o w)) := by
  refine ⟨fun checkout => ?_, fun refused => ?_, fun stray => ?_⟩
  · rw [accepts_iff sound]
    constructor
    · rintro ⟨hne, relative⟩
      by_cases stray : Stray c.target.artifactPath
      · exact Or.inr stray
      · have down : ".." ∉ pieces c.target.artifactPath ∧
            ¬∀ s ∈ pieces c.target.artifactPath, s = "" ∨ s = "." :=
          not_or.mp fun idle => stray ⟨hne, relative, idle⟩
        simp only [not_forall, exists_prop] at down
        exact Or.inl ⟨_, Staging.destination_eq_ok_iff.mpr ⟨relative, down.1, down.2, rfl⟩⟩
    · rintro (⟨p, taken⟩ | ⟨hne, relative, -⟩)
      · obtain ⟨relative, -, ⟨s, hs, counts⟩, -⟩ := Staging.destination_eq_ok_iff.mp taken
        refine ⟨fun empty => counts (Or.inl ?_), relative⟩
        rw [empty, PathText.pieces_empty] at hs
        exact List.mem_singleton.mp hs
      · exact ⟨hne, relative⟩
  · have judged := validate_eq sound
    by_cases outside : c.target.artifactPath = "" ∨ isAbsolute c.target.artifactPath = true
    · rw [judged, if_pos outside]
    · rw [if_neg outside] at judged
      exact absurd judged refused
  · have refused := Staging.destination_of_stray stray
    exact ⟨_, rfl, refused, fun σ o w provider release => Plan.wasted_of_refused (refused _)⟩

section Sample

/-- The artifact is to be put beside the checkout. -/
def besideConfig : Config :=
  { Config.default with
    target := { TargetSettings.default with remoteUrl := "u", artifactPath := "../x" } }

def besideRun : Played Rehearsal.Cast RunReport :=
  (Plan.script besideConfig (.environment "TOKEN") Run.sampleRelease).play Rehearsal.outside
    Run.builtWorld

theorem sound_sample : besideConfig.SoundElsewhere := ⟨"x", by decide +kernel⟩

/-- The destination is accepted, and the release wasted. -/
theorem accepted_iff_sample : besideConfig.SoundElsewhere ∧ Config.Stray "../x" ∧
    besideConfig.validate = .ok () ∧
    Plan.Wasted besideConfig (.outsideCheckout "../x") besideRun := by
  have stray : Config.Stray "../x" :=
    ⟨by decide, by decide, Or.inl (by decide +kernel)⟩
  obtain ⟨accepted, -, late⟩ := Config.accepted_iff sound_sample
  obtain ⟨f, hf, -, wasted⟩ := late stray
  rw [if_pos (by decide +kernel)] at hf
  subst hf
  exact ⟨sound_sample, stray, (accepted "target-repo").mpr (Or.inr stray),
    wasted Rehearsal.Cast Rehearsal.outside Run.builtWorld _ _⟩

/-- **A path out of the checkout is found out too late.**  Nothing is wrong when the configuration
is read, and then the build is run, and staging fails for the destination. -/
theorem stray_accepted : besideConfig.SoundElsewhere ∧ besideConfig.validate = .ok () ∧
    (∀ checkout, Staging.destination "../x" checkout = .error (.outsideCheckout "../x")) ∧
    (commandRuns besideRun.notes).map (·.1) = [Build.command besideConfig.build] ∧
    besideRun.value.failedStage = some "stage" ∧
    besideRun.value.error = some (StagingFailure.outsideCheckout "../x").toError := by
  refine ⟨sound_sample, by decide +kernel, fun _ => rfl, ?_, ?_, ?_⟩
  all_goals decide +kernel

end Sample
end GatedRelease
