import GatedRelease.Proofs.Run.Execution

/-! # Dependencies are decided by the list of stages

A run looks up what a stage depends on among the states of the stages before it.  When it does so,
all of those have succeeded, so that the states say nothing which the names do not: the verdict is
known from the names and the dependencies in the list (`Reaches.unmetDependency?_eq`), whatever the
actions are, and whenever the run is asked to stop.  A dependency on a later stage, on the stage
itself or on none at all is never met, and one on the name of an earlier stage always is, even if
the name is given twice.
-/
namespace GatedRelease

/-- What is known of a stage before it runs that others may depend on, or that it depends on. -/
def Stage.wiring (s : Stage) : String × List String := (s.name, s.dependsOn)

namespace Run
variable {σ τ : Type} {o : Outside σ} {p q : Point σ} {s : Stage} {stages later : List Stage}
  {done : List Stage} {taken : List Note} {i : Nat} {d : String}

/-! ## The verdict -/

/-- A stage before the position has the name. -/
def Earlier (stages : List Stage) (i : Nat) (name : String) : Prop :=
  ∃ j < i, ∃ t, stages[j]? = some t ∧ t.name = name

/-- **The verdict on the stage at a position**, by the list alone: the first of its dependencies
that no stage before it is named after. -/
def verdict (stages : List Stage) (i : Nat) : Option String :=
  stages[i]?.bind fun s => s.dependsOn.find? (· ∉ (stages.take i).map (·.name))

theorem mem_names_take : d ∈ (stages.take i).map (·.name) ↔ Earlier stages i d := by
  simp only [List.mem_map, List.mem_take_iff_getElem, Earlier, List.getElem?_eq_some_iff]
  constructor
  · rintro ⟨_, ⟨j, hj, rfl⟩, named⟩
    exact ⟨j, by omega, _, ⟨by omega, rfl⟩, named⟩
  · rintro ⟨j, hj, _, ⟨length, rfl⟩, named⟩
    exact ⟨_, ⟨j, by omega, rfl⟩, named⟩

theorem verdict_of_getElem? (here : stages[i]? = some s) :
    verdict stages i = s.dependsOn.find? (· ∉ (stages.take i).map (·.name)) := by
  unfold verdict
  rw [here, Option.bind_some]

/-- The verdict names the first dependency that is not the name of an earlier stage. -/
theorem verdict_eq_some_iff (here : stages[i]? = some s) : verdict stages i = some d ↔
    ∃ met others, s.dependsOn = met ++ d :: others ∧ (∀ x ∈ met, Earlier stages i x) ∧
      ¬ Earlier stages i d := by
  rw [verdict_of_getElem? here, List.find?_eq_some_iff_append]
  simp only [decide_eq_true_eq, Bool.not_eq_true', decide_eq_false_iff_not, not_not,
    mem_names_take]
  constructor
  · rintro ⟨unmet, met, others, split, all⟩
    exact ⟨met, others, split, all, unmet⟩
  · rintro ⟨met, others, split, all, unmet⟩
    exact ⟨unmet, met, others, split, all⟩

/-- Nothing is unmet of dependencies that are all names of earlier stages. -/
theorem verdict_eq_none_iff (here : stages[i]? = some s) :
    verdict stages i = none ↔ ∀ d ∈ s.dependsOn, Earlier stages i d := by
  rw [verdict_of_getElem? here, List.find?_eq_none]
  simp only [decide_eq_true_eq, not_not, mem_names_take]

/-- **The verdict knows names and dependencies**, and nothing else of the stages. -/
theorem verdict_congr {stages' : List Stage}
    (same : stages.map Stage.wiring = stages'.map Stage.wiring) (i : Nat) :
    verdict stages i = verdict stages' i := by
  have names : (stages.take i).map (·.name) = (stages'.take i).map (·.name) := by
    have first := congrArg (fun wirings => (wirings.take i).map Prod.fst) same
    simp only [← List.map_take, List.map_map] at first
    exact first
  have wired : stages[i]?.map Stage.wiring = stages'[i]?.map Stage.wiring := by
    rw [← List.getElem?_map, ← List.getElem?_map, same]
  unfold verdict
  rw [names]
  cases hs : stages[i]? <;> cases ht : stages'[i]? <;> simp_all [Stage.wiring]

/-- **The dependencies of a stage that is reached** are decided by the list. -/
theorem Reaches.unmetDependency?_eq {ctx : Context} {w : World σ}
    (h : Reaches o ⟨[], ctx, w⟩ stages i s q) (pending : ∀ s ∈ stages, s.status = .pending) :
    unmetDependency? q.before s = verdict stages i := by
  have before : q.before = (stages.take i).map (·.ended true) := h.before
  rw [before, unmetDependency?_ended fun t ht => pending t (List.mem_of_mem_take ht),
    verdict_of_getElem? h.here]

/-! ## Stages whose dependencies are unmet -/

/-- A run ends before a stage of which a dependency is unmet. -/
theorem advance_of_unmet (later : List Stage) (down : q.world.cancelled = false)
    (unmet : unmetDependency? q.before s = some d) :
    q.advance o (s :: later) = ⟨⟨q.before ++ (s.transition .failed).2 :: later, q.context,
        some (q.before.length, .dependencyNotSatisfied s.name d)⟩, q.world,
      [.moved q.before.length s.status .failed (s.transition .failed).1]⟩ := by
  rcases advance_step (o := o) q s later with halted | ⟨admitted, -⟩
  · generalize q.advance o (s :: later) = e at halted
    cases halted with
    | cancelled up => exact absurd (up.symm.trans down) nofun
    | unmet _ unmet' =>
      obtain rfl := Option.some.inj (unmet.symm.trans unmet')
      rfl
    | failed admitted _ => exact absurd (unmet.symm.trans admitted.2) nofun
  · exact absurd (unmet.symm.trans admitted.2) nofun

/-- What is said at the end of a run that has stopped at a stage. -/
theorem farewell_stopped (release : Release) (done later : List Stage) (s : Stage) (ctx : Context)
    (e : ReleaseError) :
    farewell release ⟨done.map (·.ended true) ++ s :: later, ctx, some (done.length, e)⟩ =
      later.map skipNote ++ [.event (.runFinished false s.name)] := by
  have skipped : (done.map (·.ended true) ++ s :: later).drop (done.length + 1) = later :=
    drop_succ (by simp)
  unfold farewell
  rw [success_report]
  simp [skipped, report, failedStage?]

/-- **What a run comes to that finds a dependency unmet.** -/
theorem Asks.play_run {release : Release} {w : World σ}
    (h : Asks o ⟨[], .start release.tag, w⟩ stages i s q)
    (pending : ∀ s ∈ stages, s.status = .pending) (unmet : verdict stages i = some d) :
    (run release stages).play o w =
      ⟨⟨.failed, release, (stages.take i).map (Stage.reported .succeeded none) ++
          s.reported .failed (some (.dependencyNotSatisfied s.name d)) ::
            (stages.drop (i + 1)).map (Stage.reported .pending none),
          some s.name, q.context.published, some (.dependencyNotSatisfied s.name d)⟩, q.world,
        .event (.runStarted release.tag stages.length) ::
          (course o ⟨[], .start release.tag, w⟩ (stages.take i) ++
            .moved i .pending .failed true ::
              ((stages.drop (i + 1)).map skipNote ++ [.event (.runFinished false s.name)]))⟩ := by
  obtain ⟨taken, passes⟩ := h.passed
  have here := h.lt_length
  have fresh : s.status = .pending := pending s (List.mem_of_getElem? h.here)
  have before : q.before = (stages.take i).map (·.ended true) := h.before
  have length : (stages.take i).length = i := List.length_take_of_le (Nat.le_of_lt here)
  have position : q.before.length = i := by rw [before, List.length_map, length]
  have split : stages.take i ++ s :: stages.drop (i + 1) = stages := by
    obtain ⟨_, rfl⟩ := List.getElem?_eq_some_iff.mp h.here
    rw [← List.drop_eq_getElem_cons here, List.take_append_drop]
  have left : s.transition .failed = (true, { s with status := .failed }) := by
    simp [Stage.transition, fresh, StageStatus.canMoveTo]
  have halted := advance_of_unmet (o := o) (stages.drop (i + 1)) h.uncancelled
    ((h.unmetDependency?_eq pending).trans unmet)
  rw [position, before, left, fresh] at halted
  have others : ∀ t ∈ stages.take i ++ stages.drop (i + 1), t.status = .pending :=
    List.forall_mem_append.mpr ⟨fun t ht => pending t (List.mem_of_mem_take ht),
      fun t ht => pending t (List.mem_of_mem_drop ht)⟩
  have reports := report_stopped release (s := { s with status := .failed }) q.context
    (.dependencyNotSatisfied s.name d) others
  have farewell := farewell_stopped release (stages.take i) (stages.drop (i + 1))
    { s with status := .failed } q.context (.dependencyNotSatisfied s.name d)
  rw [length] at reports farewell
  have gone := advance_of_passes passes (s :: stages.drop (i + 1))
  rw [split, halted] at gone
  rw [Run.play_run]
  simp only [gone, reports, farewell, passes.course_eq, List.append_assoc]
  rfl

/-! ## Every run -/

/-- **What dependencies have to do with a run.** -/
structure Decided (o : Outside σ) (release : Release) (w : World σ) (stages : List Stage)
    (played : Played σ RunReport) : Prop where
  /-- Whether a stage is executed is told by the notes. -/
  executed : ∃ n, Executed o release w stages played.notes n
  /-- What an executed stage depends on was executed before it, and has succeeded. -/
  met {i : Nat} {s : Stage} {q : Point σ} :
    Executes o ⟨[], .start release.tag, w⟩ stages i s q → ∀ d ∈ s.dependsOn,
      ∃ j t r, j < i ∧ Executes o ⟨[], .start release.tag, w⟩ stages j t r ∧ t.name = d ∧
        (r.perform o t).value.1 = .ok ()
  /-- What is found unmet is known from the list. -/
  found {i : Nat} {s : Stage} {q : Point σ} : Asks o ⟨[], .start release.tag, w⟩ stages i s q →
    unmetDependency? q.before s = verdict stages i
  /-- The first dependency that is not the name of an earlier stage. -/
  first {i : Nat} {s : Stage} {d : String} : stages[i]? = some s → (verdict stages i = some d ↔
    ∃ met others, s.dependsOn = met ++ d :: others ∧ (∀ x ∈ met, Earlier stages i x) ∧
      ¬ Earlier stages i d)
  /-- A dependency is unmet exactly if no earlier stage has its name. -/
  free {i : Nat} {s : Stage} : stages[i]? = some s →
    (verdict stages i = none ↔ ∀ d ∈ s.dependsOn, Earlier stages i d)
  /-- The run ends where a dependency is unmet, and says which. -/
  unmet {i : Nat} {s : Stage} {q : Point σ} {d : String} :
    Asks o ⟨[], .start release.tag, w⟩ stages i s q → verdict stages i = some d →
      played = ⟨⟨.failed, release, (stages.take i).map (Stage.reported .succeeded none) ++
          s.reported .failed (some (.dependencyNotSatisfied s.name d)) ::
            (stages.drop (i + 1)).map (Stage.reported .pending none),
          some s.name, q.context.published, some (.dependencyNotSatisfied s.name d)⟩, q.world,
        .event (.runStarted release.tag stages.length) ::
          (course o ⟨[], .start release.tag, w⟩ (stages.take i) ++
            .moved i .pending .failed true ::
              ((stages.drop (i + 1)).map skipNote ++ [.event (.runFinished false s.name)]))⟩
  /-- **Two runs come to the same verdict**, with other actions, in other surroundings, and asked to
  stop at other times. -/
  alike {τ : Type} {o' : Outside τ} {release' : Release} {w' : World τ} {stages' : List Stage}
    {i : Nat} {s s' : Stage} {q : Point σ} {q' : Point τ} :
    (∀ s ∈ stages', s.status = .pending) → stages'.map Stage.wiring = stages.map Stage.wiring →
      Asks o ⟨[], .start release.tag, w⟩ stages i s q →
      Asks o' ⟨[], .start release'.tag, w'⟩ stages' i s' q' →
      unmetDependency? q'.before s' = unmetDependency? q.before s

/-- **Dependencies are decided by the list of stages**, in every run of it. -/
theorem run_decided (o : Outside σ) (release : Release) (w : World σ) {stages : List Stage}
    (pending : ∀ s ∈ stages, s.status = .pending) :
    Decided o release w stages ((run release stages).play o w) where
  executed := run_executed release w stages
  met h d hd := by
    have none := (h.unmetDependency?_eq pending).symm.trans h.met
    obtain ⟨j, before, t, there, named⟩ := (verdict_eq_none_iff h.here).mp none d hd
    obtain ⟨t', r, executes, performed⟩ := h.earlier before
    obtain rfl := Option.some.inj (there.symm.trans executes.here)
    exact ⟨j, t, r, before, executes, named, performed⟩
  found h := h.unmetDependency?_eq pending
  first here := verdict_eq_some_iff here
  free here := verdict_eq_none_iff here
  unmet h unmet := h.play_run pending unmet
  alike pending' same h h' := by
    rw [h.unmetDependency?_eq pending, h'.unmetDependency?_eq pending', verdict_congr same]

section Sample

/-- Two stages of one name: the second depends on that name, and on a stage that comes later. -/
def tangledStages : List Stage := [.new "gate" .testGate passing,
  ((Stage.new "gate" .testGate passing).after "gate").after "publish",
  (Stage.new "publish" .publish passing).after "gate"]

theorem run_decided_sample : (∀ s ∈ tangledStages, s.status = .pending) ∧
    ((run sampleRelease tangledStages).play Rehearsal.outside emptyWorld).value.error =
      some (.dependencyNotSatisfied "gate" "publish") ∧
    Decided Rehearsal.outside sampleRelease emptyWorld tangledStages
      ((run sampleRelease tangledStages).play Rehearsal.outside emptyWorld) := by
  have pending : ∀ s ∈ tangledStages, s.status = .pending := by
    simp [tangledStages, Stage.new, Stage.after]
  exact ⟨pending, rfl, run_decided Rehearsal.outside sampleRelease emptyWorld pending⟩

end Sample
end Run
end GatedRelease
