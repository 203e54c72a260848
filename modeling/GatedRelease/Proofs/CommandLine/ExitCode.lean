import GatedRelease.CommandLine.Program
import GatedRelease.Proofs.Plan.Gating
import GatedRelease.Proofs.Publish.Guard
import GatedRelease.Proofs.Publish.Recovery
import GatedRelease.Proofs.Run.Shape

/-! # The exit code tells whether the release was published

The push decides: a program that was asked to release or to publish pushes at most once, as the last
thing it asks git for, and ends with code 0 exactly if that push was made and ended well.  A blank
tag, a configuration that cannot be used and every failure before the push are then complaints
without a push.

The push is followed outwards from `Publisher.enter` by one property of the calls of git and the
result (`Decides`), through the stages of a run and the tasks of the program.
-/
namespace GatedRelease
variable {σ : Type} {o : Outside σ}

/-- **The push decides**: there is none, and no success, or it comes last and success is its own. -/
inductive Decides : Git.History → Bool → Prop
  | without {calls : Git.History} : (∀ x ∈ calls, x.1.action.isPush = false) → Decides calls false
  | last {before : Git.History} {call : Git.Call} {outcome : Git.Outcome} :
      (∀ x ∈ before, x.1.action.isPush = false) → call.action.isPush = true →
      Decides (before ++ [(call, outcome)]) outcome.succeeded

namespace Decides
variable {calls : Git.History} {good : Bool}

theorem nil : Decides [] false := .without fun _ hx => absurd hx List.not_mem_nil

end Decides

/-! ## What does not push -/

theorem isPush_of_isPublishing {action : Git.Action} (h : action.isPublishing = false) :
    action.isPush = false := by
  cases action <;> first | rfl | cases h

/-- What is not of publishing does not push. -/
theorem Unpublishing.isPush {notes : List Note} (h : Unpublishing notes) :
    ∀ x ∈ gitCalls notes, x.1.action.isPush = false := by
  rintro ⟨call, outcome⟩ hx
  obtain ⟨place, hn⟩ := mem_gitCalls.mp hx
  exact isPush_of_isPublishing (h call place outcome hn)

namespace Publisher
variable {p : Publisher} {tag : String} {c : Credential} {mode : Mode} {notes : List Note}

end Publisher

/-! ## The run of a release -/

namespace Run
variable {p : Point σ} {s : Stage} {stages : List Stage}

end Run

namespace Plan
variable {w : World σ} {c : Config} {provider : CredentialProvider} {tag : String}

/-- Carrying out a release ends with the report of a run. -/
theorem carryOut_value (c : Config) (tag : String) (provider : CredentialProvider) (w : World σ) :
    ∃ release w', ((carryOut c tag provider).play o w).value =
      ((script c provider release).play o w').value := by
  have hs : carryOut c tag provider = (Release.identify tag c.build.workingDir
      (stageNames (stages c provider))).bind (script c provider) := rfl
  rw [hs, Script.value_bind]
  exact ⟨_, _, rfl⟩

/-- **A release succeeds exactly if all its stages do**, and otherwise it has an error, and a stage
that it failed at. -/
theorem carryOut_succeeded (c : Config) (tag : String) (provider : CredentialProvider)
    (w : World σ) :
    let r := ((carryOut c tag provider).play o w).value
    (r.success = true ↔ ∀ s ∈ r.stages, s.status = .succeeded) ∧ r.error.isNone = r.success ∧
      r.failedStage.isNone = r.success := by
  obtain ⟨release, w', hv⟩ := carryOut_value (o := o) c tag provider w
  rw [hv]
  refine ⟨Run.run_succeeded stages_pending, ?_, Run.run_failedStage release _ w'⟩
  unfold script
  rw [Run.play_run]
  exact Run.error_report release _

end Plan

/-! ## The program -/

namespace CommandLine
variable {w : World σ} {t : Timing} {i : Invocation} {tag : String} {asJson : Bool}

theorem uses_configured {path : String} {overrides : Overrides} :
    (configured path overrides).run.Uses Request.Reading := by
  unfold configured
  have loaded : (ExceptT.mk (Script.inspect fun fs =>
      (Config.load fs path).mapError (Complaint.unloadable path)) :
      Attempt Complaint Config).run.Uses Request.Reading := ⟨trivial, fun _ => trivial⟩
  exact Attempt.uses_bind loaded fun c => Attempt.uses_bind trivial fun _ => trivial

/-- What the configuration comes to. -/
def configuration (o : Outside σ) (w : World σ) (i : Invocation) : Except Complaint Config :=
  ((configured i.config i.overrides).run.play o w).value

/-- **The report of a run**: there is one if the tag is not blank and the configuration can be used,
and then it is that of the release. -/
def Reported (o : Outside σ) (w : World σ) (i : Invocation) (tag : String) (r : RunReport) : Prop :=
  Text.isBlank tag = false ∧ ∃ c, configuration o w i = .ok c ∧
    r = ((Plan.carryOut c tag (Plan.provider c)).play o w).value

/-- The end of the program that is asked for a task is the end of the task. -/
theorem play_program {arguments : List String}
    (h : Invocation.parse (lookUpVariable w.vars tagVariable) arguments = .ok i) :
    (program t arguments).play o w =
      ⟨((i.perform t).play o w).value.ended, ((i.perform t).play o w).world,
        ((i.perform t).play o w).notes⟩ := by
  unfold program
  rw [Script.bind_eq]
  simp only [Script.readVariable, Script.bind, Script.play, h]
  rw [Script.bind_eq, Script.play_bind]
  simp [Script.play]

/-- A task that fails ends with a complaint. -/
theorem play_perform (i : Invocation) :
    (i.perform t).play o w =
      ⟨match ((i.attempt t).run.play o w).value with
        | .ok p => p
        | .error c => .failed c,
        ((i.attempt t).run.play o w).world, ((i.attempt t).run.play o w).notes⟩ := by
  have hs : i.perform t = (i.attempt t).run.bind fun
      | .ok p => .done p
      | .error c => .done (.failed c) := rfl
  rw [hs, Script.play_bind]
  obtain ⟨value, world, notes⟩ := (i.attempt t).run.play o w
  cases value <;> simp [Script.play]

/-- Insisting on a tag and reading the configuration: either ends the task, or the task goes on with
the configuration. -/
theorem play_prepared (i : Invocation) (tag : String) (f : Config → Attempt Complaint Performed)
    (w : World σ) :
    (∃ e, (∀ r, ¬ Reported o w i tag r) ∧
        (Attempt.ofExcept (tagGiven tag) >>= fun _ =>
          configured i.config i.overrides >>= f).run.play o w = ⟨.error e, w, []⟩) ∨
      ∃ c, Text.isBlank tag = false ∧ configuration o w i = .ok c ∧
        (Attempt.ofExcept (tagGiven tag) >>= fun _ =>
          configured i.config i.overrides >>= f).run.play o w = (f c).run.play o w := by
  cases hb : Text.isBlank tag with
  | true =>
    have ht : tagGiven tag = .error .noTag := by simp [tagGiven, hb]
    refine Or.inl ⟨.noTag, ?_, by rw [ht]; rfl⟩
    rintro r ⟨given, -⟩
    rw [hb] at given
    exact absurd given (by decide)
  | false =>
    have ht : tagGiven tag = .ok () := by simp [tagGiven, hb]
    -- The configuration is only read, so that what follows starts in the same world.
    have hc : (configured i.config i.overrides).run.play o w = ⟨configuration o w i, w, []⟩ :=
      Script.play_of_reading uses_configured w
    rw [ht]
    show (∃ e, (∀ r, ¬ Reported o w i tag r) ∧
        (configured i.config i.overrides >>= f).run.play o w = ⟨.error e, w, []⟩) ∨
      ∃ c, false = false ∧ configuration o w i = .ok c ∧
        (configured i.config i.overrides >>= f).run.play o w = (f c).run.play o w
    rw [ExceptT.run_bind, Script.bind_eq, Script.play_bind, hc]
    cases hr : configuration o w i with
    | error e =>
      refine Or.inl ⟨e, ?_, rfl⟩
      rintro r ⟨-, c, hc, -⟩
      rw [hr] at hc
      exact absurd hc nofun
    | ok c => exact Or.inr ⟨c, rfl, rfl, rfl⟩

/-- **The complaint about a release is its error**, at the stage that it failed at: that a stage has
failed and no error is reported does not happen. -/
theorem complaintAfter_carryOut (c : Config) (tag : String) (provider : CredentialProvider)
    (w : World σ) :
    let r := ((Plan.carryOut c tag provider).play o w).value
    complaintAfter tag r =
      r.error.map fun e => .stageFailed tag (r.failedStage.getD "") (some e) := by
  intro r
  obtain ⟨-, errorless, unfailed⟩ := Plan.carryOut_succeeded (o := o) c tag provider w
  have both : r.error.isNone = r.failedStage.isNone := errorless.trans unfailed.symm
  unfold complaintAfter
  cases he : r.error with
  | none =>
    rw [he] at both
    rw [Option.isNone_iff_eq_none.mp both.symm]
    rfl
  | some e =>
    rw [he] at both
    obtain ⟨stage, hs⟩ := Option.isSome_iff_exists.mp (Option.isNone_eq_false_iff.mp both.symm)
    rw [hs]
    rfl

/-- There is nothing to complain about exactly if the release succeeded. -/
theorem isNone_complaintAfter (c : Config) (tag : String) (provider : CredentialProvider)
    (w : World σ) :
    let r := ((Plan.carryOut c tag provider).play o w).value
    (complaintAfter tag r).isNone = r.success := by
  intro r
  have errorless : r.error.isNone = r.success :=
    (Plan.carryOut_succeeded (o := o) c tag provider w).2.1
  rw [complaintAfter_carryOut, Option.isNone_map]
  exact errorless

/-- A release that comes to a report prints it, and complains exactly if the run has failed. -/
theorem play_release (i : Invocation) (tag : String) (asJson : Bool) (w : World σ) :
    (∃ e, (∀ r, ¬ Reported o w i tag r) ∧
        (release t i.config i.overrides tag asJson).run.play o w = ⟨.error e, w, []⟩) ∨
      ∃ c, Text.isBlank tag = false ∧ configuration o w i = .ok c ∧
        (release t i.config i.overrides tag asJson).run.play o w =
          let carried := (Plan.carryOut c tag (Plan.provider c)).play o w
          ⟨.ok ⟨if asJson then [(carried.value.json t).pretty] else carried.value.lines t,
            complaintAfter tag carried.value⟩, carried.world, carried.notes⟩ := by
  rcases play_prepared (o := o) i tag (fun c =>
    ExceptT.lift (Plan.carryOut c tag (Plan.provider c)) >>= fun r =>
      pure ⟨if asJson then [(r.json t).pretty] else r.lines t, complaintAfter tag r⟩) w with
    stopped | ⟨c, hb, hc, hp⟩
  · exact Or.inl stopped
  · refine Or.inr ⟨c, hb, hc, hp.trans ?_⟩
    have hs : (ExceptT.lift (Plan.carryOut c tag (Plan.provider c)) >>= fun r =>
        (pure ⟨if asJson then [(r.json t).pretty] else r.lines t, complaintAfter tag r⟩ :
          Attempt Complaint Performed)).run =
        (Plan.carryOut c tag (Plan.provider c)).bind fun r =>
          .done (.ok ⟨if asJson then [(r.json t).pretty] else r.lines t,
            complaintAfter tag r⟩) := by
      simp
      rfl
    rw [hs, Script.play_bind]
    simp [Script.play]

/-- A release is content exactly if it comes to a report on stages that have all succeeded, and the
report is what it prints. -/
theorem perform_release (hk : i.task = .run tag asJson) :
    (((i.perform t).play o w).value.complaint.isNone = true ↔
      ∃ r, Reported o w i tag r ∧ ∀ s ∈ r.stages, s.status = .succeeded) ∧
    ∀ r, Reported o w i tag r → ((i.perform t).play o w).value.lines =
      if asJson then [(r.json t).pretty] else r.lines t := by
  have ha : i.attempt t = release t i.config i.overrides tag asJson := by
    unfold Invocation.attempt
    rw [hk]
  rw [play_perform, ha]
  rcases play_release (o := o) (t := t) i tag asJson w with ⟨e, none, hr⟩ | ⟨c, hb, hc, hr⟩ <;>
    rw [hr]
  · refine ⟨⟨nofun, ?_⟩, fun r hr => absurd hr (none r)⟩
    rintro ⟨r, hr, -⟩
    exact absurd hr (none r)
  have succeeded := (Plan.carryOut_succeeded (o := o) c tag (Plan.provider c) w).1
  have good := isNone_complaintAfter (o := o) c tag (Plan.provider c) w
  dsimp only at succeeded good ⊢
  generalize hv : ((Plan.carryOut c tag (Plan.provider c)).play o w).value = v at *
  -- There is no report but the one of this run.
  have unique : ∀ r, Reported o w i tag r → r = v := by
    rintro r ⟨-, c', hc', rfl⟩
    rw [hc] at hc'
    obtain rfl := Except.ok.inj hc'
    exact hv
  refine ⟨?_, ?_⟩
  · rw [good, succeeded]
    constructor
    · intro all
      exact ⟨v, ⟨hb, c, hc, hv.symm⟩, all⟩
    · rintro ⟨r, hr, all⟩
      rw [← unique r hr]
      exact all
  · intro r hr
    rw [unique r hr]

/-- A clock that stands still. -/
def bareTiming : Timing := ⟨"", "", 0, fun _ => 0⟩

/-- There is something new to release, and a credential. -/
def newsWorld : World Unit :=
  { Run.newsWorld with vars := [("PACKAGE_REPO_TOKEN", Text.utf8 "alpha")] }

end CommandLine
end GatedRelease
