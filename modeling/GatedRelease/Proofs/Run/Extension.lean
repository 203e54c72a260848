import GatedRelease.Proofs.Run.Dependencies

/-! # Later stages never affect earlier ones

A run of stages and of more stages after them begins as the run of the first ones alone: the same
actions are executed, each with the same context and in the same world, and the same is reported of
them (`Agrees`).  If that run fails, the stages after it are reported as not started, and nothing
else is different (`Unreached`); if it succeeds, the other run is the same way through the stages
continued from what it leaves (`Continued`).
-/
namespace GatedRelease.Run
variable {σ : Type} {o : Outside σ} {p q : Point σ} {s : Stage} {stages later : List Stage}
  {i j : Nat} {failure : Nat × ReleaseError}

/-! ## How far an ending reaches -/

/-- An ending keeps the stages it was given, and has failed at one of those it went through. -/
theorem advance_extent (p : Point σ) (stages : List Stage) :
    ∃ rest, (p.advance o stages).value.stages = p.before ++ rest ∧ rest.length = stages.length ∧
      ∀ x ∈ (p.advance o stages).value.failure,
        p.before.length ≤ x.1 ∧ x.1 < p.before.length + stages.length := by
  obtain ⟨done, rest, taken, q, e, rfl, passes, halts, he⟩ := advance_split (o := o) p stages
  have length : q.before.length = p.before.length + done.length := by simp [passes.before]
  rw [he]
  cases halts with
  | finished => exact ⟨done.map (·.ended true), passes.before, by simp, nofun⟩
  | @cancelled s later _ | @unmet s later _ _ _ | @failed s later _ _ _ =>
    have shape (left : Stage) :
        q.before ++ left :: later = p.before ++ (done.map (·.ended true) ++ left :: later) := by
      rw [passes.before, List.append_assoc]
    refine ⟨_, shape _, by simp, ?_⟩
    rintro _ ⟨⟩
    exact ⟨by omega, by simp [length]⟩

/-- A run that has failed has come to its end. -/
theorem advance_append_of_failed (h : (p.advance o stages).value.failure = some failure)
    (later : List Stage) : p.advance o (stages ++ later) =
      ⟨⟨(p.advance o stages).value.stages ++ later, (p.advance o stages).value.context,
        some failure⟩, (p.advance o stages).world, (p.advance o stages).notes⟩ := by
  have played : (Run.advance p.before p.context stages).play o p.world = p.advance o stages := rfl
  have whole : p.advance o (stages ++ later) =
      (Run.advance p.before p.context (stages ++ later)).play o p.world := rfl
  rw [whole, advance_append, Script.play_bind, played]
  simp [goOn, h, Script.play]

/-- Stages that have not started are reported as they are. -/
theorem report_append (release : Release) {e : Ending} (failed : e.failure = some failure)
    (within : failure.1 < e.stages.length) (pending : ∀ s ∈ later, s.status = .pending) :
    report release { e with stages := e.stages ++ later } =
      { report release e with
        stages := (report release e).stages ++ later.map (Stage.reported .pending none) } := by
  have unreached : (later.mapIdx fun i => reportStage (some failure) (i + e.stages.length)) =
      later.map (Stage.reported .pending none) := by
    refine mapIdx_eq_map fun i hi => ?_
    have apart : failure.1 ≠ i + e.stages.length := by omega
    simp [reportStage, Stage.reported, apart, pending _ (List.getElem_mem hi)]
  have halted : (e.stages ++ later)[failure.1]? = e.stages[failure.1]? :=
    List.getElem?_append_left within
  unfold report failedStage?
  simp only [List.mapIdx_append, unreached, failed, Option.bind_some, halted]

/-- What has come before a stage that is reached has passed. -/
theorem Reaches.passes_of_le (h : Reaches o p stages i s q) (hj : j ≤ i) :
    ∃ taken r, Passes o p (stages.take j) taken r := by
  rcases Nat.lt_or_eq_of_le hj with before | rfl
  · obtain ⟨t, r, executes, -⟩ := h.earlier before
    obtain ⟨taken, passes⟩ := executes.passed
    exact ⟨taken, r, passes⟩
  · obtain ⟨taken, passes⟩ := h.passed
    exact ⟨taken, q, passes⟩

/-- At the positions of the first stages, the others make no difference to what is executed. -/
theorem executes_append_iff (hi : i < stages.length) :
    Executes o p (stages ++ later) i s q ↔ Executes o p stages i s q := by
  have here : (stages ++ later)[i]? = stages[i]? := List.getElem?_append_left hi
  have before : (stages ++ later).take i = stages.take i :=
    List.take_append_of_le_length (Nat.le_of_lt hi)
  constructor <;> rintro ⟨⟨⟨there, passed⟩, uncancelled⟩, met⟩
  · exact ⟨⟨⟨here ▸ there, before ▸ passed⟩, uncancelled⟩, met⟩
  · exact ⟨⟨⟨here.symm ▸ there, before.symm ▸ passed⟩, uncancelled⟩, met⟩

/-! ## Two runs -/

section Runs
variable {release : Release} {w : World σ} {first both : Played σ RunReport}

/-- **The later stages are not reached**: they are reported as not started, and that is all. -/
structure Unreached (o : Outside σ) (release : Release) (w : World σ) (stages later : List Stage)
    (first both : Played σ RunReport) : Prop where
  /-- Error, failed stage and what was published are the same. -/
  value : both.value = { first.value with
    stages := first.value.stages ++ later.map (Stage.reported .pending none) }
  world : both.world = first.world
  /-- They are said to be skipped where the first run says its farewell. -/
  notes : ∃ told last, first.notes =
      .event (.runStarted release.tag stages.length) :: (told ++ [last]) ∧
    both.notes = .event (.runStarted release.tag (stages ++ later).length) ::
      (told ++ later.map skipNote ++ [last])
  unexecuted {i : Nat} {s : Stage} {q : Point σ} :
    Executes o ⟨[], .start release.tag, w⟩ (stages ++ later) i s q → i < stages.length

/-- **The later stages are gone through** from where the first ones have left the run. -/
structure Continued (o : Outside σ) (release : Release) (w : World σ) (stages later : List Stage)
    (first both : Played σ RunReport) (q : Point σ) : Prop where
  passes : Passes o ⟨[], .start release.tag, w⟩ stages
    (course o ⟨[], .start release.tag, w⟩ stages) q
  first_eq : first = ⟨⟨.succeeded, release, stages.map (Stage.reported .succeeded none), none,
      q.context.published, none⟩, q.world, .event (.runStarted release.tag stages.length) ::
        (course o ⟨[], .start release.tag, w⟩ stages ++ [.event (.runFinished true "-")])⟩
  both_eq : both =
    let rest := (advance (stages.map (·.ended true)) q.context later).play o q.world
    ⟨report release rest.value, rest.world,
      .event (.runStarted release.tag (stages ++ later).length) ::
        (course o ⟨[], .start release.tag, w⟩ stages ++ rest.notes ++ farewell release rest.value)⟩
  /-- Dependencies are looked up among the names of all stages before. -/
  looked {i : Nat} {s : Stage} {r : Point σ} : Reaches o q later i s r →
    unmetDependency? r.before s =
      s.dependsOn.find? (· ∉ (stages ++ later.take i).map (·.name))

/-- **The run of more stages agrees with the run of the first ones.** -/
structure Agrees (o : Outside σ) (release : Release) (w : World σ) (stages later : List Stage)
    (first both : Played σ RunReport) : Prop where
  /-- The same actions of the first stages are executed, each with the same context. -/
  executes {i : Nat} {s : Stage} {q : Point σ} : i < stages.length →
    (Executes o ⟨[], .start release.tag, w⟩ (stages ++ later) i s q ↔
      Executes o ⟨[], .start release.tag, w⟩ stages i s q)
  /-- Which is what the notes of both runs tell. -/
  executed : ∃ n m, Executed o release w stages first.notes n ∧
    Executed o release w (stages ++ later) both.notes m ∧ n = min m stages.length
  /-- The states and the errors of the first stages. -/
  reports : both.value.stages.take stages.length = first.value.stages
  failed : first.value.success = false → Unreached o release w stages later first both
  succeeded : first.value.success = true → ∃ q, Continued o release w stages later first both q

theorem unreached_of_failed (pending : ∀ s ∈ later, s.status = .pending)
    (failed : ((run release stages).play o w).value.success = false) :
    Unreached o release w stages later ((run release stages).play o w)
      ((run release (stages ++ later)).play o w) := by
  rw [play_run] at failed
  simp only [success_report, Option.isNone_eq_false_iff, Option.isSome_iff_exists] at failed
  obtain ⟨failure, failed⟩ := failed
  obtain ⟨rest, shape, length, within⟩ :=
    advance_extent (o := o) (⟨[], .start release.tag, w⟩ : Point σ) stages
  have whole := advance_append_of_failed failed later
  have unpassed {taken : List Note} {q : Point σ} :
      ¬ Passes o ⟨[], .start release.tag, w⟩ stages taken q := by
    intro passes
    have finished := advance_of_passes passes []
    rw [List.append_nil] at finished
    rw [finished] at failed
    exact absurd failed nofun
  rw [play_run, play_run]
  generalize (⟨[], .start release.tag, w⟩ : Point σ).advance o stages = e at *
  have inside : failure.1 < e.value.stages.length := by
    have := (within failure failed).2
    simp only [shape, List.nil_append, length, List.length_nil, Nat.zero_add] at this ⊢
    exact this
  have report := report_append release failed inside pending
  rw [failed] at report
  refine ⟨?_, ?_, ?_, ?_⟩
  · simp only [whole]
    exact report
  · simp only [whole]
  · refine ⟨e.notes ++ (e.value.stages.drop (failure.1 + 1)).map skipNote,
      .event (.runFinished (Run.report release e.value).success
        ((Run.report release e.value).failedStage.getD "-")), ?_, ?_⟩
    · simp [farewell, failed]
    · have dropped : (e.value.stages ++ later).drop (failure.1 + 1) =
          e.value.stages.drop (failure.1 + 1) ++ later := List.drop_append_of_le_length inside
      simp only [whole, farewell, report, dropped, List.map_append, List.append_assoc]
      rfl
  · intro i s q executes
    by_contra behind
    obtain ⟨taken, r, passes⟩ := executes.passes_of_le (Nat.le_of_not_lt behind)
    rw [List.take_left' rfl] at passes
    exact unpassed passes

theorem continued_of_succeeded (pending : ∀ s ∈ stages ++ later, s.status = .pending)
    (succeeded : ((run release stages).play o w).value.success = true) :
    ∃ q, Continued o release w stages later ((run release stages).play o w)
      ((run release (stages ++ later)).play o w) q := by
  rw [play_run] at succeeded
  simp only [success_report, Option.isNone_iff_eq_none] at succeeded
  obtain ⟨q, passes, value, world⟩ := passes_of_advance succeeded
  have first : ∀ s ∈ stages, s.status = .pending := fun s hs =>
    pending s (List.mem_append_left later hs)
  have before : q.before = stages.map (·.ended true) := by simpa using passes.before
  have told := passes.course_eq
  have gone := advance_of_passes passes later
  rw [told] at passes gone
  refine ⟨q, passes, ?_, ?_, ?_⟩
  · have reports := report_ended first none nofun
    rw [play_run]
    simp only [value, world, told, before]
    simp [report, failedStage?, farewell, reports, RunReport.success]
  · rw [play_run]
    simp only [gone, ← before, List.append_assoc]
    rfl
  · intro i s r reached
    have all : r.before = (stages ++ later.take i).map (·.ended true) := by
      rw [reached.before, before, List.map_append]
    rw [all]
    refine unmetDependency?_ended (fun t ht => pending t ?_) s
    rcases List.mem_append.mp ht with ht | ht
    · exact List.mem_append_left later ht
    · exact List.mem_append_right stages (List.mem_of_mem_take ht)

/-- How many stages are executed of the first ones. -/
theorem executed_append (release : Release) (w : World σ) (stages later : List Stage) :
    ∃ n m, Executed o release w stages ((run release stages).play o w).notes n ∧
      Executed o release w (stages ++ later) ((run release (stages ++ later)).play o w).notes m ∧
      n = min m stages.length := by
  obtain ⟨n, first⟩ := run_executed (o := o) release w stages
  obtain ⟨m, both⟩ := run_executed (o := o) release w (stages ++ later)
  have same (i : Nat) : i < n ↔ i < m ∧ i < stages.length := by
    rw [← first.positions, ← both.positions]
    constructor
    · rintro ⟨s, q, executes⟩
      have within := executes.lt_length
      exact ⟨⟨s, q, (executes_append_iff within).mpr executes⟩, within⟩
    · rintro ⟨⟨s, q, executes⟩, within⟩
      exact ⟨s, q, (executes_append_iff within).mp executes⟩
  refine ⟨n, m, first, both, ?_⟩
  have := same n
  have := same (min m stages.length)
  omega

/-- Stages that have succeeded are reported so, whatever comes after them. -/
theorem Continued.reports (h : Continued o release w stages later first both q)
    (pending : ∀ s ∈ stages, s.status = .pending) :
    both.value.stages.take stages.length = first.value.stages := by
  obtain ⟨rest, shape, -, within⟩ :=
    advance_extent (o := o) (⟨stages.map (·.ended true), q.context, q.world⟩ : Point σ) later
  rw [List.length_map] at within
  have reports := report_ended pending _ fun x hx => (within x hx).1
  have played : (advance (stages.map (·.ended true)) q.context later).play o q.world =
      (⟨stages.map (·.ended true), q.context, q.world⟩ : Point σ).advance o later := rfl
  rw [h.both_eq, h.first_eq]
  simp only [played, report, shape, List.mapIdx_append, reports]
  exact List.take_left' (by simp)

/-- **Later stages never affect earlier ones.** -/
theorem run_append (o : Outside σ) (release : Release) (w : World σ) {stages later : List Stage}
    (pending : ∀ s ∈ stages ++ later, s.status = .pending) :
    Agrees o release w stages later ((run release stages).play o w)
      ((run release (stages ++ later)).play o w) := by
  have rest : ∀ s ∈ later, s.status = .pending := fun s hs =>
    pending s (List.mem_append_right stages hs)
  refine ⟨executes_append_iff, executed_append release w stages later, ?_,
    unreached_of_failed rest, continued_of_succeeded pending⟩
  cases success : ((run release stages).play o w).value.success with
  | false =>
    have length : ((run release stages).play o w).value.stages.length = stages.length := by
      obtain ⟨kept, shape, length, -⟩ :=
        advance_extent (o := o) (⟨[], .start release.tag, w⟩ : Point σ) stages
      rw [play_run]
      simp [report, shape, length]
    rw [(unreached_of_failed rest success).value]
    exact List.take_left' length
  | true =>
    obtain ⟨q, continued⟩ := continued_of_succeeded pending success
    exact continued.reports fun s hs => pending s (List.mem_append_left later hs)

end Runs

section Sample

theorem run_append_sample : (∀ s ∈ sampleStages ++ tangledStages, s.status = .pending) ∧
    ((run sampleRelease sampleStages).play Rehearsal.outside emptyWorld).value.success = false ∧
    Agrees Rehearsal.outside sampleRelease emptyWorld sampleStages tangledStages
      ((run sampleRelease sampleStages).play Rehearsal.outside emptyWorld)
      ((run sampleRelease (sampleStages ++ tangledStages)).play Rehearsal.outside emptyWorld) := by
  have pending : ∀ s ∈ sampleStages ++ tangledStages, s.status = .pending := by
    simp [sampleStages, tangledStages, Stage.new, Stage.after]
  exact ⟨pending, rfl, run_append Rehearsal.outside sampleRelease emptyWorld pending⟩

end Sample
end GatedRelease.Run
