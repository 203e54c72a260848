import GatedRelease.Proofs.Plan.HandOver
import GatedRelease.Proofs.Run.Continuation
import GatedRelease.Proofs.Secrecy.Confinement
import GatedRelease.Proofs.Text.Utf8

/-! # The credential is looked for when publishing starts, and not before

The stages before publishing read no variables (`blind_preparation`), and what reads no variables is
the same whatever they are (`Uses.play_withVars`).  Two runs of a release with different variables
and different providers therefore go the same way up to publishing.  If they stop before that, they
have come to the same; otherwise all that is left of either is what publishing comes to (`settle`),
and without a credential that is nothing but an error (`Publisher.play_action_lacking`).  `Deferral`
says which of the two it is.

There is no credential in a variable exactly if it is not set, holds bytes that are no text, or holds
blanks only (`CredentialProvider.find?_environment_eq_none`).
-/
namespace GatedRelease
variable {σ α : Type} {o : Outside σ}

/-! ## Scripts that do not read variables -/

/-- The world with other variables. -/
def World.withVars (w : World σ) (vars : List (String × Bytes)) : World σ := { w with vars := vars }

/-- The request is not for a variable. -/
def Request.Blind : Request → Prop
  | .environment _ => False
  | _ => True

namespace Script

/-- **What does not read variables is the same with others**, and leaves them as they are. -/
theorem Uses.play_withVars {s : Script α} (hs : s.Uses Request.Blind) (w : World σ)
    (vars : List (String × Bytes)) :
    s.play o (w.withVars vars) =
      ⟨(s.play o w).value, (s.play o w).world.withVars vars, (s.play o w).notes⟩ := by
  induction s generalizing w with
  | done a => rfl
  | look next ih => exact ih w.files (hs.2 _) w
  | store fs next ih => exact ih hs.2 { w with files := fs }
  | git call next ih =>
    have same : (w.withVars vars).callGit o call =
        ((w.callGit o call).1, (w.callGit o call).2.1, (w.callGit o call).2.2.withVars vars) := by
      unfold World.callGit
      cases call.holdsNul with
      | true => rfl
      | false =>
        simp only [Bool.false_eq_true, if_false, World.withVars]
        cases w.files.workplace call.directory <;> rfl
    simp only [play, same, ih _ (hs.2 _) _]
    rfl
  | command c next ih =>
    have same : (w.withVars vars).runCommand o c =
        ((w.runCommand o c).1, (w.runCommand o c).2.withVars vars) := rfl
    simp only [play, same, ih _ (hs.2 _) _]
    rfl
  | environment name next ih => exact absurd hs.1 id
  | cancelled next ih => exact ih w.cancelled (hs.2 _) w
  | raise next ih => exact ih hs.2 { w with cancelled := true }
  | suffix next ih => exact ih _ (hs.2 _) { w with nonce := w.nonce + 1 }
  | note n next ih =>
    simp only [play, ih hs.2.2 w]
    rfl

end Script

/-- What is reported of stages does not tell whether they are chained. -/
@[simp] theorem Stage.reported_linearAfter (status : StageStatus) (error : Option ReleaseError)
    (previous : Option String) (stages : List Stage) :
    (linearAfter previous stages).map (reported status error) =
      stages.map (reported status error) := by
  induction stages generalizing previous with
  | nil => rfl
  | cons s later ih =>
    unfold linearAfter
    rw [List.map_cons, List.map_cons, ih]
    simp [reported]

/-- The point with other variables. -/
def Run.Point.withVars (p : Run.Point σ) (vars : List (String × Bytes)) : Run.Point σ :=
  { p with world := p.world.withVars vars }

/-! ## Looking for the credential -/

/-- **When there is no credential in a variable**: it is not set, it is no text, or it is blank. -/
theorem CredentialProvider.find?_environment_eq_none (name : String)
    (vars : List (String × Bytes)) : (environment name).find? vars = none ↔
      lookUpVariable vars name = none ∨
      (∃ bytes, lookUpVariable vars name = some bytes ∧ ∀ text, Text.utf8 text ≠ bytes) ∨
      ∃ text, lookUpVariable vars name = some (Text.utf8 text) ∧
        ∀ x ∈ text.toList, Text.isBlankChar x = true := by
  show ofValue? (lookUpVariable vars name) = none ↔ _
  generalize lookUpVariable vars name = value
  unfold ofValue?
  cases value with
  | none => simp
  | some bytes =>
    rw [Option.bind_some]
    cases ht : Text.ofUtf8? bytes with
    | none =>
      have unreadable (text : String) : Text.utf8 text ≠ bytes := by
        rintro rfl
        rw [Text.ofUtf8?_eq_some.mpr rfl] at ht
        cases ht
      simp [unreadable]
    | some text =>
      obtain rfl := Text.ofUtf8?_eq_some.mp ht
      have blank : (∃ other, some (Text.utf8 text) = some (Text.utf8 other) ∧
          ∀ x ∈ other.toList, Text.isBlankChar x = true) ↔ Text.isBlank text = true := by
        rw [Text.isBlank, List.all_eq_true]
        constructor
        · rintro ⟨other, same, h⟩
          rwa [Text.utf8_injective (Option.some.inj same)]
        · exact fun h => ⟨text, rfl, h⟩
      have readable : ¬ ∀ other, Text.utf8 other ≠ Text.utf8 text := fun h => h text rfl
      rw [blank]
      simp [readable]

/-- **Publishing without a credential does nothing.** -/
theorem Publisher.play_action_lacking {p : Publisher} {ctx : Context} {w : World σ}
    (missing : p.provider.find? w.vars = none) :
    (p.action.execute ctx).play o w =
      ⟨(.error (.credentialMissing p.provider.name), ctx), w, []⟩ := by
  have resolved := p.provider.play_resolve o w
  rw [missing] at resolved
  have lacking : p.credential.run.play o w =
      ⟨.error (.credential (.credentialMissing p.provider.name)), w, []⟩ := by
    show Script.play o (Script.bind p.provider.resolve.run _) w = _
    rw [Script.play_bind, resolved]
    rfl
  have unpublished : (p.publish ctx.tag).run.play o w =
      ⟨.error (.credential (.credentialMissing p.provider.name)), w, []⟩ := by
    unfold publish
    rw [ExceptT.run_bind, Script.bind_eq, Script.play_bind, lacking]
    rfl
  show Script.play o (Script.bind (p.publish ctx.tag).run _) w = _
  rw [Script.play_bind, unpublished]
  rfl

/-! ## The two runs -/

namespace Plan

/-- Publishing is the last stage, and what it is chained to does not depend on the provider. -/
theorem stages_last (c : Config) : ∃ name, ∀ provider, stages c provider =
    Stage.linear (preparation c) ++ [(publishStage c provider).chained name] := by
  obtain ⟨name, h⟩ := Stage.linearAfter_append none (preparation c)
  exact ⟨name, fun provider => h (publishStage c provider)⟩

/-- The stages before publishing do not read variables. -/
theorem blind_preparation (c : Config) : ∀ s ∈ Stage.linear (preparation c),
    ∀ ctx, (s.action.execute ctx).Uses Request.Blind := by
  intro s hs ctx
  obtain ⟨t, ht, he, -⟩ := Stage.exists_of_mem_linearAfter hs
  rw [he]
  refine uses_preparation ?_ ?_ ?_ ?_ ?_ (fun _ => ?_) ht ctx <;> trivial

theorem pending_preparation (c : Config) :
    ∀ s ∈ Stage.linear (preparation c), s.status = .pending := by
  intro s hs
  obtain ⟨t, ht, -, he⟩ := Stage.exists_of_mem_linearAfter hs
  rw [he]
  simp only [preparation, List.mem_cons, List.mem_map] at ht
  rcases ht with rfl | rfl | ⟨suite, -, rfl⟩ <;> rfl

/-- **A run that comes to publishing.** The stages before have passed, with the notes `taken`, and
have led the run to a point from which publishing has come to `x`. -/
def settle (c : Config) (release : Release) (taken : List Note) (q : Run.Point σ)
    (x : Played σ (Except ReleaseError Unit × Context)) : Played σ RunReport :=
  let position := (preparation c).length
  let passed := (preparation c).map (Stage.reported .succeeded none)
  let before : List Note := .event (.runStarted release.tag (position + 1)) :: (taken ++
    [.moved position .pending .running true, .event (.stageStarted "publish" position),
      .entered position q.context])
  match x.value.1 with
  | .ok () =>
    ⟨⟨.succeeded, release, passed ++ [⟨"publish", .publish, .succeeded, none⟩], none,
      x.value.2.published, none⟩, x.world,
      before ++ x.notes ++ [.moved position .running .succeeded true,
        .event (.stageFinished "publish" true), .event (.runFinished true "-")]⟩
  | .error e =>
    ⟨⟨.failed, release, passed ++ [⟨"publish", .publish, .failed, some e⟩], some "publish",
      x.value.2.published, some e⟩, x.world,
      before ++ x.notes ++ [.moved position .running .failed true,
        .event (.stageFinished "publish" false), .event (.runFinished false "publish")]⟩

/-- **What becomes of two runs of a release**, of which the second looks in vain for the
credential. -/
inductive Deferral (o : Outside σ) (c : Config) (provider lacking : CredentialProvider)
    (release : Release) (w : World σ) (vars : List (String × Bytes)) :
    Played σ RunReport → Played σ RunReport → Prop
  /-- Both stop before publishing has started, and come to the same. -/
  | stopped {report : RunReport} {world : World σ} {notes : List Note}
      {error : Option ReleaseError} :
      report.success = false →
      report.stages.getLast? = some ⟨"publish", .publish, .pending, error⟩ →
      Deferral o c provider lacking release w vars ⟨report, world, notes⟩
        ⟨report, world.withVars vars, notes⟩
  /-- Both come to publishing at one point, and from there the second does nothing. -/
  | parted {taken : List Note} {q : Run.Point σ} :
      Run.Passes o ⟨[], .start release.tag, w⟩ (Stage.linear (preparation c)) taken q →
      q.world.cancelled = false →
      Deferral o c provider lacking release w vars
        (settle c release taken q
          (((publisher c provider).action.execute q.context).play o q.world))
        (settle c release taken q
          ⟨(.error (.credentialMissing lacking.name), q.context), q.world.withVars vars, []⟩)

/-- **The run of a release whose preparation has passed** is told by what publishing comes to. -/
theorem settle_eq {c : Config} {provider : CredentialProvider} {name : Option String}
    {q : Run.Point σ} (release : Release) (taken : List Note)
    (before : q.before = (Stage.linear (preparation c)).map (·.ended true))
    (admitted : q.Admits ((publishStage c provider).chained name)) :
    let last := ((Run.goOn [(publishStage c provider).chained name]
      ⟨q.before, q.context, none⟩).bind (Run.conclude release)).play o q.world
    (⟨last.value, last.world, .event (.runStarted release.tag ((preparation c).length + 1)) ::
      (taken ++ last.notes)⟩ : Played σ RunReport) = settle c release taken q
          (((publisher c provider).action.execute q.context).play o q.world) := by
  have pending := pending_preparation c
  have length : q.before.length = (preparation c).length := by
    rw [before, List.length_map, Stage.linear, Stage.length_linearAfter]
  have named : ((publishStage c provider).chained name).name = "publish" :=
    Stage.chained_name _ _
  have kind : ((publishStage c provider).chained name).kind = .publish := Stage.chained_kind _ _
  have fresh : ((publishStage c provider).chained name).status = .pending :=
    Stage.chained_status _ _
  have performed : q.perform o ((publishStage c provider).chained name) =
      ((publisher c provider).action.execute q.context).play o q.world := by
    unfold Run.Point.perform
    rw [Stage.chained_action]
    rfl
  have last : (Run.goOn [(publishStage c provider).chained name]
      ⟨q.before, q.context, none⟩).play o q.world = _ := Run.advance_last (o := o) admitted
  generalize (publishStage c provider).chained name = s at *
  simp only [Script.play_bind, last, Run.play_conclude, Run.Point.told, performed]
  generalize ((publisher c provider).action.execute q.context).play o q.world = x
  have opened := Run.opening_of_pending fresh (preparation c).length q.context
  have closed := Run.closing_of_pending fresh (preparation c).length
  rw [named] at opened closed
  unfold settle
  cases hx : x.value.1 with
  | ok u =>
    have reports := Run.report_ended (List.forall_mem_append.mpr ⟨pending,
      List.forall_mem_singleton.mpr fresh⟩) none (by simp)
    rw [List.map_append, List.map_singleton, ← before] at reports
    have report : Run.report release ⟨q.before ++ [s.ended true], x.value.2, none⟩ =
        ⟨.succeeded, release, (preparation c).map (Stage.reported .succeeded none) ++
          [⟨"publish", .publish, .succeeded, none⟩], none, x.value.2.published, none⟩ := by
      simp [Run.report, Run.failedStage?, reports, Stage.linear, Stage.reported, named, kind]
    simp [Run.farewell, Except.isOk, Except.toBool, length, opened, closed, report,
      RunReport.success, Stage.outcome]
  | error e =>
    have state : (s.ended false).status = .failed := Run.ended_status fresh false
    have reports := Run.report_stopped release (s := s.ended false) x.value.2 e
      (List.forall_mem_append.mpr ⟨pending, List.forall_mem_nil _⟩)
    rw [← before, show (Stage.linear (preparation c)).length = _ from
      Stage.length_linearAfter none _] at reports
    have report : Run.report release ⟨q.before ++ [s.ended false], x.value.2,
        some ((preparation c).length, e)⟩ =
        ⟨.failed, release, (preparation c).map (Stage.reported .succeeded none) ++
          [⟨"publish", .publish, .failed, some e⟩], some "publish", x.value.2.published,
          some e⟩ := by
      rw [reports]
      simp [state, Stage.linear, Stage.reported, named, kind]
    have nothing : (q.before ++ [s.ended false]).drop ((preparation c).length + 1) = [] :=
      List.drop_of_length_le (by simp [length])
    have failed : (RunStatus.failed == RunStatus.succeeded) = false := rfl
    simp only [length, opened, closed, report, nothing, Run.farewell, Except.isOk, Except.toBool,
      RunReport.success, failed]
    simp [Stage.outcome]

section Runs
variable {c : Config} {provider lacking : CredentialProvider} {release : Release} {w : World σ}
  {vars : List (String × Bytes)}

/-- The stages before publishing go the same way with other variables. -/
theorem advance_preparation_withVars :
    (⟨[], .start release.tag, w.withVars vars⟩ : Run.Point σ).advance o
        (Stage.linear (preparation c)) =
      let e := (⟨[], .start release.tag, w⟩ : Run.Point σ).advance o (Stage.linear (preparation c))
      ⟨e.value, e.world.withVars vars, e.notes⟩ := by
  have asks : (Run.advance [] (.start release.tag) (Stage.linear (preparation c))).Uses
      Request.Blind := Run.uses_advance trivial trivial (blind_preparation c) [] _
  exact asks.play_withVars w vars

/-- Runs that have ended before publishing end alike. -/
theorem deferral_of_ended {name : Option String} {before : List Stage} {ctx : Context}
    {failure : Nat × ReleaseError} {v : World σ} {started : Note} {notes : List Note} :
    let s := (publishStage c provider).chained name
    let t := (publishStage c lacking).chained name
    let last := (Run.conclude release ⟨before ++ [s], ctx, some failure⟩).play o v
    let last' := (Run.conclude release ⟨before ++ [t], ctx, some failure⟩).play o
      (v.withVars vars)
    Deferral o c provider lacking release w vars
      ⟨last.value, last.world, started :: (notes ++ last.notes)⟩
      ⟨last'.value, last'.world, started :: (notes ++ last'.notes)⟩ := by
  have same : Run.conclude release
        ⟨before ++ [(publishStage c lacking).chained name], ctx, some failure⟩ =
      Run.conclude release
        ⟨before ++ [(publishStage c provider).chained name], ctx, some failure⟩ := by
    refine Run.conclude_congr ?_ rfl rfl
    simp [Stage.shown, publishStage, Stage.new]
  intro s t
  obtain ⟨error, pending⟩ : ∃ error,
      (Run.report release ⟨before ++ [s], ctx, some failure⟩).stages.getLast? =
        some ⟨"publish", .publish, .pending, error⟩ := by
    refine ⟨(Run.reportStage (some failure) before.length s).error, ?_⟩
    simp [Run.report, Run.reportStage, s, publishStage, Stage.new, StageKind.text]
  simp only [s, t, same, Run.play_conclude]
  exact .stopped (Run.success_report _ _) pending

/-- Publishing waits for none but the stages before it. -/
theorem admits_publishing {name : Option String} {q : Run.Point σ}
    (hs : stages c provider =
      Stage.linear (preparation c) ++ [(publishStage c provider).chained name])
    (before : q.before = (Stage.linear (preparation c)).map (·.ended true))
    (down : q.world.cancelled = false) : q.Admits ((publishStage c provider).chained name) := by
  refine ⟨down, ?_⟩
  rw [before, Run.unmetDependency?_ended (pending_preparation c), List.find?_eq_none]
  intro d hd
  simpa using dependsOn_stages c provider hs d hd

/-- **Two runs of a release** of which the second looks in vain for the credential. -/
theorem deferral (missing : lacking.find? vars = none) :
    Deferral o c provider lacking release w vars ((script c provider release).play o w)
      ((script c lacking release).play o (w.withVars vars)) := by
  obtain ⟨name, hs⟩ := stages_last c
  have length : (Stage.linear (preparation c)).length = (preparation c).length :=
    Stage.length_linearAfter none _
  unfold script
  rw [hs provider, hs lacking, Run.play_run_append, Run.play_run_append, length,
    advance_preparation_withVars]
  have split (done : ((⟨[], .start release.tag, w⟩ : Run.Point σ).advance o
      (Stage.linear (preparation c))).value.failure = none) := Run.passes_of_advance done
  generalize (⟨[], .start release.tag, w⟩ : Run.Point σ).advance o
    (Stage.linear (preparation c)) = e at split ⊢
  dsimp only
  cases hf : e.value.failure with
  | some failure =>
    have ended (s : Stage) : Run.goOn [s] e.value =
        .done ⟨e.value.stages ++ [s], e.value.context, some failure⟩ := by
      unfold Run.goOn
      rw [hf]
    rw [ended, ended]
    exact deferral_of_ended
  | none =>
    obtain ⟨q, passes, value, world⟩ := split hf
    rw [value, world]
    cases hc : q.world.cancelled with
    | true =>
      have up : (q.world.withVars vars).cancelled = true := hc
      rw [Run.play_goOn_of_cancelled hc, Run.play_goOn_of_cancelled up]
      simp only [Stage.chained_name]
      exact deferral_of_ended
    | false =>
      have before : q.before = (Stage.linear (preparation c)).map (·.ended true) := by
        simpa using passes.before
      have first := settle_eq (o := o) release e.notes before
        (admits_publishing (hs provider) before hc)
      have second := settle_eq (o := o) (q := q.withVars vars) release e.notes before
        (admits_publishing (hs lacking) before hc)
      have unpublished : ((publisher c lacking).action.execute q.context).play o
          (q.world.withVars vars) = ⟨(.error (.credentialMissing lacking.name), q.context),
            q.world.withVars vars, []⟩ := Publisher.play_action_lacking missing
      have parted : Deferral o c provider lacking release w vars _ _ := .parted passes hc
      rw [← unpublished] at parted
      dsimp only at first second
      rw [first]
      exact second ▸ parted

end Runs
end Plan

/-- **The credential is looked for when publishing starts, and not before.** Looking for it writes
nothing down and changes nothing, and in a variable there is none exactly if the variable is not
set, is no text, or is blank.  Of two runs of a release of which the second looks in vain for the
credential, either both stop before publishing and come to the same, or both come to publishing at
one point, and the second stops there with the error that names what is missing. -/
theorem credential_deferred (o : Outside σ) :
    (∀ (provider : CredentialProvider) (w : World σ), provider.resolve.run.play o w =
      ⟨(provider.find? w.vars).elim (.error (.credentialMissing provider.name)) .ok, w, []⟩) ∧
    (∀ (name : String) (vars : List (String × Bytes)),
      (CredentialProvider.environment name).find? vars = none ↔
        lookUpVariable vars name = none ∨
        (∃ bytes, lookUpVariable vars name = some bytes ∧ ∀ text, Text.utf8 text ≠ bytes) ∨
        ∃ text, lookUpVariable vars name = some (Text.utf8 text) ∧
          ∀ x ∈ text.toList, Text.isBlankChar x = true) ∧
    ∀ (c : Config) (release : Release) (w : World σ) (vars : List (String × Bytes))
      (provider lacking : CredentialProvider), lacking.find? vars = none →
      Plan.Deferral o c provider lacking release w vars
        ((Plan.script c provider release).play o w)
        ((Plan.script c lacking release).play o (w.withVars vars)) := by
  refine ⟨?_, CredentialProvider.find?_environment_eq_none, ?_⟩
  · exact fun provider w => provider.play_resolve o w
  · intro c release w vars provider lacking missing
    exact Plan.deferral missing

section Sample

/-- A release without suites. -/
def suiteless : Config := { Config.default with suites := [] }

/-- There is something to stage, and a credential. -/
def preparedWorld : World Rehearsal.Cast :=
  Run.builtWorld.withVars [("TOKEN", Text.utf8 "alpha")]

theorem credential_deferred_sample :
    (CredentialProvider.environment "TOKEN").find? [("TOKEN", Text.utf8 " ")] = none ∧
    ((Plan.script suiteless (.environment "TOKEN") Run.sampleRelease).play Rehearsal.outside
      (preparedWorld.withVars [("TOKEN", Text.utf8 " ")])).value.stages.map (·.error) =
        [none, none, some (.credentialMissing "TOKEN")] ∧
    Plan.Deferral Rehearsal.outside suiteless (.environment "TOKEN") (.environment "TOKEN")
      Run.sampleRelease preparedWorld [("TOKEN", Text.utf8 " ")]
      ((Plan.script suiteless (.environment "TOKEN") Run.sampleRelease).play Rehearsal.outside
        preparedWorld)
      ((Plan.script suiteless (.environment "TOKEN") Run.sampleRelease).play Rehearsal.outside
        (preparedWorld.withVars [("TOKEN", Text.utf8 " ")])) := by
  have missing : (CredentialProvider.environment "TOKEN").find? [("TOKEN", Text.utf8 " ")] =
      none := by decide +kernel
  refine ⟨missing, by decide +kernel, ?_⟩
  exact (credential_deferred Rehearsal.outside).2.2 suiteless Run.sampleRelease preparedWorld
    [("TOKEN", Text.utf8 " ")] _ _ missing

end Sample
end GatedRelease
