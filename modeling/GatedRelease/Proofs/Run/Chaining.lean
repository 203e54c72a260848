import GatedRelease.Proofs.Run.Continuation
import GatedRelease.Proofs.Run.Shape
import GatedRelease.Proofs.Stage.Chain

/-! # Chaining stages changes nothing

When a run comes to a stage, all stages before it have succeeded, and so has the one that it is
chained to.  What a chain adds to the dependencies is therefore met, and since it stands behind the
others, the first unmet one stays the first (`unmetDependency?_chained`).  The two runs, of the
stages in a chain and of the stages as they are, are one script (`advance_linearAfter`): they do the
same whatever they are answered.

A run of stages without dependencies of their own is never halted by a dependency.  It may still end
with the error that says so, since that is for every action to return.
-/
namespace GatedRelease

/-- The stage without its dependencies. -/
def Stage.unlinked (s : Stage) : Stage := { s with dependsOn := [] }

namespace Stage

@[simp] theorem unlinked_chained (previous : Option String) (s : Stage) :
    (s.chained previous).unlinked = s.unlinked := by
  obtain ⟨names, h⟩ := chained_eq previous s
  rw [h]
  rfl

@[simp] theorem unlinked_linearAfter (previous : Option String) (stages : List Stage) :
    (linearAfter previous stages).map unlinked = stages.map unlinked := by
  induction stages generalizing previous with
  | nil => rfl
  | cons s later ih =>
    unfold linearAfter
    rw [List.map_cons, List.map_cons, unlinked_chained, ih]

end Stage

/-- The end of a run, its stages without their dependencies. -/
def Ending.unlinked (e : Ending) : Ending := { e with stages := e.stages.map Stage.unlinked }

namespace Run
variable {before before' : List Stage} {s : Stage} {previous : Option String}

/-! ## Dependencies -/

/-- What is unmet is known from the names and states of the stages before. -/
theorem unmetDependency?_congr (h : before.map Stage.unlinked = before'.map Stage.unlinked)
    (s : Stage) : unmetDependency? before s = unmetDependency? before' s := by
  have met (d : String) : (before.any fun b => b.name == d && b.status == .succeeded) =
      before'.any fun b => b.name == d && b.status == .succeeded := by
    have all := congrArg (List.any · fun b => b.name == d && b.status == .succeeded) h
    simp only [List.any_map] at all
    exact all
  unfold unmetDependency?
  simp only [met]

/-- **A dependency that is met and comes last changes nothing**: the first one that is unmet is
the same. -/
theorem unmetDependency?_chained
    (met : ∀ name ∈ previous, ∃ b ∈ before, b.name = name ∧ b.status = .succeeded) :
    unmetDependency? before (s.chained previous) = unmetDependency? before s := by
  cases previous with
  | none => rfl
  | some name =>
    by_cases declared : name ∈ s.dependsOn
    · have same : s.chained (some name) = s := if_pos declared
      rw [same]
    · have added : s.chained (some name) = s.after name := if_neg declared
      obtain ⟨b, hb, named, succeeded⟩ := met name rfl
      have there : (before.any fun b => b.name == name && b.status == .succeeded) = true := by
        refine List.any_eq_true.mpr ⟨b, hb, ?_⟩
        simp [named, succeeded]
      have last : ([name].find? fun d =>
          !before.any fun b => b.name == d && b.status == .succeeded) = none := by
        simp [there]
      rw [added]
      unfold unmetDependency? Stage.after
      rw [List.find?_append, last, Option.or_none]

/-! ## The two runs -/

/-- Executing a stage that has not started: two moves, and the action between them. -/
theorem execute_of_pending (h : s.status = .pending) (position : Nat) (ctx : Context) :
    execute position s ctx =
      .note (.moved position .pending .running true)
        (.note (.event (.stageStarted s.name position))
          (.note (.entered position ctx)
            ((s.action.execute ctx).bind fun a =>
              .note (.moved position .running (Stage.outcome a.1.isOk) true)
                (.note (.event (.stageFinished s.name a.1.isOk))
                  (.done ({ s with status := Stage.outcome a.1.isOk }, a)))))) := by
  have started : s.transition .running = (true, { s with status := .running }) := by
    simp [Stage.transition, h, StageStatus.canMoveTo]
  unfold execute move
  simp only [started, h, Script.bind_eq, Script.record, Script.emit, Script.pure_eq, Script.bind]
  congr 4
  refine funext ?_
  rintro ⟨result, ctx'⟩
  cases result <;> rfl

/-- **Going through stages in a chain** is going through them as they are, if what the first is
chained to has succeeded: the same is asked for, and the ends differ in what stages depend on. -/
theorem advance_linearAfter {stages : List Stage} (pending : ∀ s ∈ stages, s.status = .pending)
    (same : before.map Stage.unlinked = before'.map Stage.unlinked)
    (met : ∀ name ∈ previous, ∃ b ∈ before', b.name = name ∧ b.status = .succeeded)
    (ctx : Context) :
    (advance before ctx (Stage.linearAfter previous stages)).bind (fun e => .done e.unlinked) =
      (advance before' ctx stages).bind (fun e => .done e.unlinked) := by
  induction stages generalizing before before' previous ctx with
  | nil => simp [Stage.linearAfter, advance, Script.bind, Ending.unlinked, same]
  | cons s later ih =>
    obtain ⟨fresh, rest⟩ := List.forall_mem_cons.mp pending
    obtain ⟨names, linked⟩ := Stage.chained_eq previous s
    have length : before.length = before'.length := by simpa using congrArg List.length same
    have unmet : unmetDependency? before (s.chained previous) = unmetDependency? before' s := by
      rw [unmetDependency?_congr same, unmetDependency?_chained met]
    have others := Stage.unlinked_linearAfter (some s.name) later
    unfold Stage.linearAfter
    rw [linked] at unmet ⊢
    show Script.bind (Script.bind Script.isCancelled _) _ =
      Script.bind (Script.bind Script.isCancelled _) _
    rw [Script.bind_assoc, Script.bind_assoc]
    congr 1
    funext raised
    cases raised with
    | true => simp [Script.bind, Ending.unlinked, same, length, others, Stage.unlinked]
    | false =>
      simp only [Bool.false_eq_true, if_false, unmet]
      cases unmetDependency? before' s with
      | some dependency =>
        simp [move, Stage.transition, fresh, StageStatus.canMoveTo, Script.record, Script.bind,
          Ending.unlinked, same, length, others, Stage.unlinked]
      | none =>
        have still : ({ s with dependsOn := names } : Stage).status = .pending := fresh
        simp only [execute_of_pending fresh, execute_of_pending still, Script.bind_eq,
          Script.bind, Script.bind_assoc, length]
        congr 4
        refine funext ?_
        rintro ⟨result, ctx'⟩
        cases result with
        | error e => simp [Script.bind, Ending.unlinked, same, others, Stage.unlinked]
        | ok _ =>
          -- The stage has succeeded, and so the next one may be chained to it.
          have same' : (before ++ [{ s with dependsOn := names, status := .succeeded }]).map
              Stage.unlinked = (before' ++ [{ s with status := .succeeded }]).map
              Stage.unlinked := by
            simp [same, Stage.unlinked]
          have met' : ∀ name ∈ some s.name, ∃ b ∈ before' ++ [{ s with status := .succeeded }],
              b.name = name ∧ b.status = .succeeded := by
            simp
          exact congrArg (fun next => Script.note _ (.note _ next)) (ih rest same' met' ctx')

/-- **Runs of stages in a chain and as they are** are one script. -/
theorem run_chained (release : Release) {stages : List Stage}
    (pending : ∀ s ∈ stages, s.status = .pending) :
    run release (Stage.linear stages) = run release stages := by
  have length : (Stage.linear stages).length = stages.length := by
    have all := congrArg List.length (Stage.unlinked_linearAfter none stages)
    rwa [List.length_map, List.length_map] at all
  have blind (e : Ending) : conclude release e = conclude release e.unlinked :=
    conclude_congr (by simp [Ending.unlinked, Stage.shown, Stage.unlinked]) rfl rfl
  -- What is said at the end does not know the dependencies, so that they may be forgotten before.
  have forget (script : Script Ending) : script.bind (conclude release) =
      (script.bind fun e => .done e.unlinked).bind (conclude release) := by
    rw [Script.bind_assoc]
    exact congrArg _ (funext blind)
  have goes : (advance [] (.start release.tag) (Stage.linear stages)).bind
        (fun e => .done e.unlinked) =
      (advance [] (.start release.tag) stages).bind (fun e => .done e.unlinked) :=
    advance_linearAfter pending rfl (by simp) _
  rw [run_eq, run_eq, length, forget, forget (advance _ _ stages)]
  exact congrArg _ (funext fun _ => congrArg (Script.bind · (conclude release)) goes)

/-- Stages that depend on nothing are never halted by a dependency: a run that ends with an error of
that kind has it from an action. -/
theorem returned_of_unlinked {σ : Type} {o : Outside σ} {w : World σ} {release : Release}
    {stages : List Stage} {name dependency : String} (free : ∀ s ∈ stages, s.dependsOn = [])
    (h : ((run release stages).play o w).value.error =
      some (.dependencyNotSatisfied name dependency)) :
    ∃ done s later taken q, stages = done ++ s :: later ∧
      Passes o ⟨[], .start release.tag, w⟩ done taken q ∧ q.Admits s ∧
      (q.perform o s).value.1 = .error (.dependencyNotSatisfied name dependency) := by
  obtain ⟨done, rest, taken, q, e, rfl, passes, halts, he⟩ :=
    advance_split (o := o) (⟨[], .start release.tag, w⟩ : Point σ) stages
  rw [play_run] at h
  simp only [he, report] at h
  -- Of the ways to stop, only the last can have given this error.
  cases halts with
  | finished => exact absurd h (by simp)
  | cancelled up => exact absurd h (by simp)
  | @unmet s later _ down first =>
    have none : s.dependsOn = [] := free s (by simp)
    unfold unmetDependency? at first
    rw [none, List.find?_nil] at first
    exact absurd first (by simp)
  | @failed s later _ admitted failed =>
    refine ⟨done, s, later, taken, q, rfl, passes, admitted, ?_⟩
    rw [failed]
    simpa using h

/-- **Chaining never changes a run.** Stages that have not started, whatever their names,
dependencies and actions, run in a chain as they run without: the two runs are one script, which
asks for the same, tells the same and reports the same.  And where no stage depends on anything, the
run of the chain ends with an unmet dependency only if it is an action that says so. -/
theorem run_linear (release : Release) {stages : List Stage}
    (pending : ∀ s ∈ stages, s.status = .pending) :
    run release (Stage.linear stages) = run release stages ∧
      ((∀ s ∈ stages, s.dependsOn = []) →
        ∀ {σ : Type} (o : Outside σ) (w : World σ) (name dependency : String),
          ((run release (Stage.linear stages)).play o w).value.error =
            some (.dependencyNotSatisfied name dependency) →
          ∃ done s later taken q, stages = done ++ s :: later ∧
            Passes o ⟨[], .start release.tag, w⟩ done taken q ∧ q.Admits s ∧
            (q.perform o s).value.1 = .error (.dependencyNotSatisfied name dependency)) := by
  have same := run_chained release pending
  refine ⟨same, ?_⟩
  intro free σ o w name dependency ended
  rw [same] at ended
  exact returned_of_unlinked free ended

section Sample

/-- An action that blames a dependency. -/
def misreporting : Action :=
  ⟨"misreport", fun ctx => .done (.error (.dependencyNotSatisfied "stage" "build"), ctx)⟩

/-- Two stages that depend on nothing, of which the second blames the first. -/
def misreportedStages : List Stage :=
  [.new "build" .build passing, .new "stage" .stage misreporting]

theorem run_linear_misreported :
    (∀ s ∈ misreportedStages, s.status = .pending) ∧
    run sampleRelease (Stage.linear misreportedStages) = run sampleRelease misreportedStages ∧
    (∀ s ∈ misreportedStages, s.dependsOn = []) ∧
    ((run sampleRelease (Stage.linear misreportedStages)).play Rehearsal.outside
      emptyWorld).value.error = some (.dependencyNotSatisfied "stage" "build") ∧
    ∃ done s later taken q, misreportedStages = done ++ s :: later ∧
      Passes Rehearsal.outside ⟨[], .start sampleRelease.tag, emptyWorld⟩ done taken q ∧
      q.Admits s ∧ (q.perform Rehearsal.outside s).value.1 =
        .error (.dependencyNotSatisfied "stage" "build") := by
  have pending : ∀ s ∈ misreportedStages, s.status = .pending := by
    simp [misreportedStages, Stage.new]
  have free : ∀ s ∈ misreportedStages, s.dependsOn = [] := by
    simp [misreportedStages, Stage.new]
  have ended : ((run sampleRelease (Stage.linear misreportedStages)).play Rehearsal.outside
      emptyWorld).value.error = some (.dependencyNotSatisfied "stage" "build") := rfl
  obtain ⟨same, returned⟩ := run_linear sampleRelease pending
  exact ⟨pending, same, free, ended, returned free Rehearsal.outside emptyWorld _ _ ended⟩

/-- **An unmet dependency may be reported where there is none**: no stage depends on anything, the
stage that is blamed has succeeded, and the run of the chain ends with that error all the same,
which an action has returned. -/
theorem run_misreported :
    (∀ s ∈ misreportedStages, s.status = .pending ∧ s.dependsOn = []) ∧
    ((run sampleRelease (Stage.linear misreportedStages)).play Rehearsal.outside
      emptyWorld).value.stages.map (·.status) = [.succeeded, .failed] ∧
    ((run sampleRelease (Stage.linear misreportedStages)).play Rehearsal.outside
      emptyWorld).value.error = some (.dependencyNotSatisfied "stage" "build") := by
  refine ⟨?_, rfl, rfl⟩
  simp [misreportedStages, Stage.new]

end Sample

end Run
end GatedRelease
