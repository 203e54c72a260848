import GatedRelease.Proofs.Run.Advance

/-! # A run as one script

What holds of a run before anybody has answered it.  Going through one list of stages and then
through another is going through both of them (`advance_append`); what stages can ask for, all of
them together, is what each can ask for (`uses_advance`); and what is reported and said at the end
knows the names, the kinds and the states of the stages, and neither what they depend on nor what
their actions are (`report_congr`, `conclude_congr`).  So a run is told by what its last stage comes
to, once the stages before it have passed (`play_run_append`, `advance_last`).
-/
namespace GatedRelease

namespace Stage

/-- What a report shows of a stage. -/
def shown (s : Stage) : String × StageKind × StageStatus := (s.name, s.kind, s.status)

end Stage

namespace Run

/-! ## One list of stages after another -/

/-- Going on with other stages where a run of stages has ended. -/
def goOn (later : List Stage) (e : Ending) : Script Ending :=
  match e.failure with
  | none => advance e.stages e.context later
  | some failure => .done ⟨e.stages ++ later, e.context, some failure⟩

/-- **One list of stages after another**: the second is gone through if the first has not failed. -/
theorem advance_append (before : List Stage) (ctx : Context) (stages later : List Stage) :
    advance before ctx (stages ++ later) = (advance before ctx stages).bind (goOn later) := by
  induction stages generalizing before ctx with
  | nil => rfl
  | cons s rest ih =>
    -- Both scripts first ask for the stop signal, and then do what is decided by it.
    show Script.bind Script.isCancelled _ = Script.bind (Script.bind Script.isCancelled _) _
    rw [Script.bind_assoc]
    congr 1
    funext raised
    cases raised with
    | true => simp [goOn, Script.bind]
    | false =>
      simp only [Bool.false_eq_true, if_false]
      cases unmetDependency? before s with
      | some dependency => simp [goOn, Script.bind, move, Script.record]
      | none =>
        simp only [Script.bind_eq, Script.bind_assoc]
        congr 1
        refine funext ?_
        rintro ⟨ended, result, ctx'⟩
        cases result with
        | ok _ => exact ih (before ++ [ended]) ctx'
        | error e => simp [goOn, Script.bind]

/-! ## What a run asks for -/

section Uses
variable {allowed : Request → Prop}

theorem uses_record {n : Note} (hn : n.request = .remark) (remark : allowed .remark) :
    (Script.record n).Uses allowed :=
  ⟨hn, remark, trivial⟩

theorem uses_move (remark : allowed .remark) (position : Nat) (s : Stage) (next : StageStatus) :
    (move position s next).Uses allowed :=
  ⟨rfl, remark, trivial⟩

theorem uses_execute (remark : allowed .remark) {s : Stage} {ctx : Context}
    (h : (s.action.execute ctx).Uses allowed) (position : Nat) :
    (execute position s ctx).Uses allowed := by
  refine (uses_move remark position s .running).bind fun running => ?_
  refine (uses_record rfl remark).bind fun _ => (uses_record rfl remark).bind fun _ => ?_
  refine h.bind fun a => ?_
  exact (uses_move remark position running _).bind fun _ =>
    (uses_record rfl remark).bind fun _ => trivial

/-- **What stages ask for** is the stop signal, and what one of their actions asks for. -/
theorem uses_advance (remark : allowed .remark) (cancelled : allowed .cancelled)
    {stages : List Stage} (h : ∀ s ∈ stages, ∀ ctx, (s.action.execute ctx).Uses allowed)
    (before : List Stage) (ctx : Context) : (advance before ctx stages).Uses allowed := by
  induction stages generalizing before ctx with
  | nil => trivial
  | cons s later ih =>
    refine ⟨cancelled, fun raised => ?_⟩
    cases raised with
    | true => trivial
    | false =>
      simp only [Bool.false_eq_true, if_false, Script.bind]
      cases unmetDependency? before s with
      | some dependency => exact (uses_move remark _ s .failed).bind fun _ => trivial
      | none =>
        refine (uses_execute remark (h s List.mem_cons_self ctx) before.length).bind ?_
        rintro ⟨ended, result, ctx'⟩
        cases result with
        | ok _ => exact ih (fun t ht => h t (List.mem_cons_of_mem s ht)) _ _
        | error e => trivial

end Uses

/-! ## What is told at the end -/

section Told
variable {release : Release} {e f : Ending}

/-- **A report knows the names, kinds and states** of the stages, and nothing else of them. -/
theorem report_congr (stages : e.stages.map Stage.shown = f.stages.map Stage.shown)
    (context : e.context = f.context) (failure : e.failure = f.failure) :
    report release e = report release f := by
  have same (i : Nat) : e.stages[i]?.map Stage.shown = f.stages[i]?.map Stage.shown := by
    rw [← List.getElem?_map, ← List.getElem?_map, stages]
  have reports :
      e.stages.mapIdx (reportStage e.failure) = f.stages.mapIdx (reportStage f.failure) := by
    rw [failure]
    refine List.ext_getElem? fun i => ?_
    have shown := same i
    rw [List.getElem?_mapIdx, List.getElem?_mapIdx]
    cases he : e.stages[i]? <;> cases hf : f.stages[i]? <;>
      simp_all [Stage.shown, reportStage]
  have names : e.stages.map (·.name) = f.stages.map (·.name) := by
    have first := congrArg (List.map Prod.fst) stages
    rw [List.map_map, List.map_map] at first
    exact first
  have failed : failedStage? e = failedStage? f := by
    unfold failedStage?
    rw [failure]
    simp only [← List.getElem?_map, names]
  unfold report
  rw [reports, failed, failure, context]

theorem announceSkipped_congr {stages stages' : List Stage}
    (h : stages.map Stage.shown = stages'.map Stage.shown) :
    announceSkipped stages = announceSkipped stages' := by
  induction stages generalizing stages' with
  | nil =>
    obtain rfl : stages' = [] := by simpa using h.symm
    rfl
  | cons s later ih =>
    cases stages' with
    | nil => exact absurd h (by simp)
    | cons t later' =>
      rw [List.map_cons, List.map_cons, List.cons.injEq] at h
      have name : s.name = t.name := congrArg Prod.fst h.1
      unfold announceSkipped
      rw [name, ih h.2]

/-- What a run says at its end, and what it returns. -/
def conclude (release : Release) (e : Ending) : Script RunReport := do
  match e.failure with
  | some (position, _) => announceSkipped (e.stages.drop (position + 1))
  | none => pure ()
  let r := report release e
  Script.emit (.runFinished r.success (r.failedStage.getD "-"))
  return r

theorem conclude_congr (stages : e.stages.map Stage.shown = f.stages.map Stage.shown)
    (context : e.context = f.context) (failure : e.failure = f.failure) :
    conclude release e = conclude release f := by
  have reported : report release e = report release f := report_congr stages context failure
  unfold conclude
  rw [reported, failure]
  have rest (n : Nat) :
      announceSkipped (e.stages.drop n) = announceSkipped (f.stages.drop n) :=
    announceSkipped_congr (by rw [List.map_drop, List.map_drop, stages])
  simp only [rest]

theorem run_eq (release : Release) (stages : List Stage) :
    run release stages = (Script.emit (.runStarted release.tag stages.length)).bind fun _ =>
      (advance [] (.start release.tag) stages).bind (conclude release) :=
  rfl

end Told

/-! ## The last stage -/

section Last
variable {σ : Type} {o : Outside σ} {p q : Point σ} {s : Stage} {first later : List Stage}

theorem play_conclude (release : Release) (e : Ending) (w : World σ) :
    (conclude release e).play o w = ⟨report release e, w, farewell release e⟩ := by
  unfold conclude farewell
  cases e.failure with
  | none => rfl
  | some failed =>
    simp only [Script.bind_eq, Script.play_bind, play_announceSkipped, Script.emit, play_record]
    simp [Script.play]

/-- **A run, by what its last stage comes to.** -/
theorem play_run_append (release : Release) (first : List Stage) (s : Stage) (w : World σ) :
    (run release (first ++ [s])).play o w =
      let e := (⟨[], .start release.tag, w⟩ : Point σ).advance o first
      let last := ((goOn [s] e.value).bind (conclude release)).play o e.world
      ⟨last.value, last.world,
        .event (.runStarted release.tag (first.length + 1)) :: (e.notes ++ last.notes)⟩ := by
  have length : (first ++ [s]).length = first.length + 1 := by simp
  have start : (advance [] (.start release.tag) first).play o w =
      (⟨[], .start release.tag, w⟩ : Point σ).advance o first := rfl
  rw [run_eq, advance_append, Script.bind_assoc, length, Script.play_bind]
  simp only [Script.emit, play_record, Script.play_bind o (advance _ _ first), start]
  rfl

/-- Stages that are gone through without a failure have passed. -/
theorem passes_of_advance (h : (p.advance o first).value.failure = none) :
    ∃ q, Passes o p first (p.advance o first).notes q ∧
      (p.advance o first).value = ⟨q.before, q.context, none⟩ ∧
      (p.advance o first).world = q.world := by
  obtain ⟨done, rest, taken, q, e, rfl, passes, halts, he⟩ := advance_split (o := o) p first
  rw [he] at h ⊢
  cases halts with
  | finished =>
    rw [List.append_nil]
    exact ⟨q, by simpa using passes, rfl, rfl⟩
  | cancelled _ | unmet _ _ | failed _ _ => exact absurd h nofun

/-- A run that is to stop does not start a stage. -/
theorem advance_of_cancelled (up : p.world.cancelled = true) :
    p.advance o (s :: later) = ⟨⟨p.before ++ s :: later, p.context,
      some (p.before.length, .cancelled s.name)⟩, p.world, []⟩ := by
  rcases advance_step (o := o) p s later with halted | ⟨admitted, -⟩
  · generalize p.advance o (s :: later) = e at halted
    cases halted with
    | cancelled _ => rfl
    | unmet down _ => exact absurd (up.symm.trans down) nofun
    | failed admitted _ => exact absurd (up.symm.trans admitted.1) nofun
  · exact absurd (up.symm.trans admitted.1) nofun

/-- A run that is to stop ends before its last stage. -/
theorem play_goOn_of_cancelled {release : Release} {before : List Stage} {ctx : Context}
    {w : World σ} (up : w.cancelled = true) :
    ((goOn [s] ⟨before, ctx, none⟩).bind (conclude release)).play o w =
      (conclude release ⟨before ++ [s], ctx,
        some (before.length, .cancelled s.name)⟩).play o w := by
  have ended : (goOn [s] ⟨before, ctx, none⟩).play o w = _ :=
    advance_of_cancelled (p := ⟨before, ctx, w⟩) up
  rw [Script.play_bind, ended]
  rfl

/-- A run ends with its last stage. -/
theorem advance_last (admitted : q.Admits s) :
    q.advance o [s] = ⟨⟨q.before ++ [s.ended (q.perform o s).value.1.isOk], (q.perform o s).value.2,
      match (q.perform o s).value.1 with
      | .ok _ => none
      | .error e => some (q.before.length, e)⟩, (q.perform o s).world, q.told o s⟩ := by
  rcases advance_step (o := o) q s [] with halted | ⟨-, passed, step⟩
  · generalize q.advance o [s] = e at halted
    cases halted with
    | cancelled up => exact absurd (up.symm.trans admitted.1) nofun
    | unmet _ first => exact absurd (first.symm.trans admitted.2) nofun
    | failed _ failed =>
      rw [failed]
      rfl
  · rw [step, passed]
    simp [Point.advance, advance, Script.play, Point.next, Except.isOk, Except.toBool]

theorem opening_of_pending (fresh : s.status = .pending) (position : Nat) (ctx : Context) :
    opening position s ctx = [.moved position .pending .running true,
      .event (.stageStarted s.name position), .entered position ctx] := by
  simp [opening, Stage.transition, fresh, StageStatus.canMoveTo]

theorem closing_of_pending (fresh : s.status = .pending) (position : Nat) (success : Bool) :
    closing position s success = [.moved position .running (Stage.outcome success) true,
      .event (.stageFinished s.name success)] := by
  have running : s.running.status = .running := by
    simp [Stage.running, Stage.transition, fresh, StageStatus.canMoveTo]
  cases success <;> simp [closing, Stage.transition, running, Stage.outcome, StageStatus.canMoveTo]

end Last
end Run
end GatedRelease
