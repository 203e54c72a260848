import GatedRelease.Proofs.Script.Performance
import GatedRelease.Run

/-! # How far a run comes

`Run.advance` goes through stages one after the other.  A run of it falls into the stages that have
succeeded (`Passes`), each started where the one before it has left the world, and the place at
which it ends (`Halts`): after the last stage, before a stage that may not start, or after one that
has failed.  Nothing is assumed of the stages or of their actions.

What the notes tell of an action was done by the action of one stage, and all stages before that one
have passed (`advance_note`).
-/
namespace GatedRelease

namespace Stage

/-- The stage while its action is executed. -/
def running (s : Stage) : Stage := (s.transition .running).2

/-- The state that a stage is told to move to after its action. -/
def outcome (success : Bool) : StageStatus := if success then .succeeded else .failed

/-- The stage after its action. -/
def ended (s : Stage) (success : Bool) : Stage := (s.running.transition (outcome success)).2

end Stage

namespace Run
variable {σ : Type} {o : Outside σ}

/-- The notes before an action. -/
def opening (position : Nat) (s : Stage) (ctx : Context) : List Note :=
  [.moved position s.status .running (s.transition .running).1,
    .event (.stageStarted s.name position), .entered position ctx]

/-- The notes after an action. -/
def closing (position : Nat) (s : Stage) (success : Bool) : List Note :=
  [.moved position s.running.status (Stage.outcome success)
      (s.running.transition (Stage.outcome success)).1,
    .event (.stageFinished s.name success)]

/-- How far a run has come: the stages that have succeeded, what they hand on, and the world that
they leave. -/
structure Point (σ : Type) where
  before : List Stage
  context : Context
  world : World σ

namespace Point

/-- The stage may start. -/
def Admits (p : Point σ) (s : Stage) : Prop :=
  p.world.cancelled = false ∧ unmetDependency? p.before s = none

/-- What comes of the action of a stage. -/
def perform (o : Outside σ) (p : Point σ) (s : Stage) :
    Played σ (Except ReleaseError Unit × Context) :=
  (s.action.execute p.context).play o p.world

/-- The notes on a stage. -/
def told (o : Outside σ) (p : Point σ) (s : Stage) : List Note :=
  opening p.before.length s p.context ++ (p.perform o s).notes ++
    closing p.before.length s (p.perform o s).value.1.isOk

/-- How far the run has come once a stage has succeeded. -/
def next (o : Outside σ) (p : Point σ) (s : Stage) : Point σ :=
  ⟨p.before ++ [s.ended true], (p.perform o s).value.2, (p.perform o s).world⟩

/-- What comes of going through stages from here. -/
def advance (o : Outside σ) (p : Point σ) (stages : List Stage) : Played σ Ending :=
  (Run.advance p.before p.context stages).play o p.world

end Point

/-- **Stages that succeed**, one after the other, with the notes on them. -/
inductive Passes (o : Outside σ) : Point σ → List Stage → List Note → Point σ → Prop
  | nil {p : Point σ} : Passes o p [] [] p
  | cons {p q : Point σ} {s : Stage} {later : List Stage} {taken : List Note} :
      p.Admits s → (p.perform o s).value.1 = .ok () → Passes o (p.next o s) later taken q →
      Passes o p (s :: later) (p.told o s ++ taken) q

/-- **The place at which a run ends.** -/
inductive Halts (o : Outside σ) : Point σ → List Stage → Played σ Ending → Prop
  | finished {p : Point σ} : Halts o p [] ⟨⟨p.before, p.context, none⟩, p.world, []⟩
  | cancelled {p : Point σ} {s : Stage} {later : List Stage} :
      p.world.cancelled = true →
      Halts o p (s :: later) ⟨⟨p.before ++ s :: later, p.context,
        some (p.before.length, .cancelled s.name)⟩, p.world, []⟩
  | unmet {p : Point σ} {s : Stage} {later : List Stage} {dependency : String} :
      p.world.cancelled = false → unmetDependency? p.before s = some dependency →
      Halts o p (s :: later) ⟨⟨p.before ++ (s.transition .failed).2 :: later, p.context,
          some (p.before.length, .dependencyNotSatisfied s.name dependency)⟩, p.world,
        [.moved p.before.length s.status .failed (s.transition .failed).1]⟩
  | failed {p : Point σ} {s : Stage} {later : List Stage} {e : ReleaseError} :
      p.Admits s → (p.perform o s).value.1 = .error e →
      Halts o p (s :: later) ⟨⟨p.before ++ s.ended false :: later, (p.perform o s).value.2,
        some (p.before.length, e)⟩, (p.perform o s).world, p.told o s⟩

/-! ## One stage -/

theorem play_record (n : Note) (w : World σ) : (Script.record n).play o w = ⟨(), w, [n]⟩ := rfl

theorem play_move (position : Nat) (s : Stage) (goal : StageStatus) (w : World σ) :
    (move position s goal).play o w =
      ⟨(s.transition goal).2, w, [.moved position s.status goal (s.transition goal).1]⟩ := rfl

theorem play_execute (position : Nat) (s : Stage) (ctx : Context) (w : World σ) :
    (execute position s ctx).play o w =
      let a := (s.action.execute ctx).play o w
      ⟨(s.ended a.value.1.isOk, a.value), a.world,
        opening position s ctx ++ a.notes ++ closing position s a.value.1.isOk⟩ := by
  unfold execute
  simp only [Script.bind_eq, Script.play_bind, Script.emit, play_record, play_move]
  simp [opening, closing, Stage.ended, Stage.running, Stage.outcome, Script.play]

/-- **One step of a run**: it ends at the stage, or the stage succeeds and the run goes on. -/
theorem advance_step (p : Point σ) (s : Stage) (later : List Stage) :
    Halts o p (s :: later) (p.advance o (s :: later)) ∨
      p.Admits s ∧ (p.perform o s).value.1 = .ok () ∧
        p.advance o (s :: later) = ⟨((p.next o s).advance o later).value,
          ((p.next o s).advance o later).world,
          p.told o s ++ ((p.next o s).advance o later).notes⟩ := by
  have hs : p.advance o (s :: later) = _ := Script.play_bind o Script.isCancelled _ p.world
  have hw : Script.isCancelled.play o p.world = ⟨p.world.cancelled, p.world, []⟩ := rfl
  simp only [hw] at hs
  -- The stop signal comes first, then the dependencies, and only then the action.
  cases hc : p.world.cancelled with
  | true =>
    rw [hs, hc]
    exact Or.inl (.cancelled hc)
  | false =>
    cases hd : unmetDependency? p.before s with
    | some dependency =>
      rw [hs, hc, hd]
      exact Or.inl (.unmet hc hd)
    | none =>
      rw [hs, hc, hd]
      simp only [Bool.false_eq_true, if_false, Script.bind_eq, Script.play_bind, play_execute]
      have hp : (s.action.execute p.context).play o p.world = p.perform o s := rfl
      rw [hp]
      cases hr : (p.perform o s).value.1 with
      | ok u =>
        refine Or.inr ⟨⟨hc, hd⟩, rfl, ?_⟩
        simp only [Point.told, hr, List.nil_append]
        rfl
      | error e =>
        have halted : Halts o p (s :: later) _ := .failed ⟨hc, hd⟩ hr
        have hf : (Except.error e : Except ReleaseError Unit).isOk = false := rfl
        simp only [Point.told, hr, hf] at halted ⊢
        refine Or.inl ?_
        simpa [Script.play] using halted

/-- **How a run of stages goes**: some pass, and then it ends. -/
theorem advance_split (p : Point σ) (stages : List Stage) :
    ∃ done rest taken q e, stages = done ++ rest ∧ Passes o p done taken q ∧ Halts o q rest e ∧
      p.advance o stages = ⟨e.value, e.world, taken ++ e.notes⟩ := by
  induction stages generalizing p with
  | nil => exact ⟨[], [], [], p, _, rfl, .nil, .finished, rfl⟩
  | cons s later ih =>
    rcases advance_step (o := o) p s later with halted | ⟨admitted, passed, hs⟩
    · exact ⟨[], s :: later, [], p, _, rfl, .nil, halted, rfl⟩
    · obtain ⟨done, rest, taken, q, e, rfl, passes, halts, he⟩ := ih (p.next o s)
      refine ⟨s :: done, rest, p.told o s ++ taken, q, e, rfl, .cons admitted passed passes, halts,
        ?_⟩
      rw [hs, he, List.append_assoc]

/-! ## The states of stages -/

theorem ended_status {s : Stage} (h : s.status = .pending) (success : Bool) :
    (s.ended success).status = Stage.outcome success := by
  have running : s.running.status = .running := by
    simp [Stage.running, Stage.transition, h, StageStatus.canMoveTo]
  cases success <;>
    simp [Stage.ended, Stage.outcome, Stage.transition, running, StageStatus.canMoveTo]

/-- **A run succeeds exactly if all its stages do**, stages being given as not started. -/
theorem advance_succeeded {p : Point σ} {stages : List Stage}
    (pending : ∀ s ∈ stages, s.status = .pending) (before : ∀ s ∈ p.before, s.status = .succeeded) :
    (p.advance o stages).value.failure.isNone = true ↔
      ∀ s ∈ (p.advance o stages).value.stages, s.status = .succeeded := by
  induction stages generalizing p with
  | nil => exact ⟨fun _ => before, fun _ => rfl⟩
  | cons s later ih =>
    have hs : s.status = .pending := pending s List.mem_cons_self
    rcases advance_step (o := o) p s later with halted | ⟨-, -, step⟩
    · generalize p.advance o (s :: later) = e at halted ⊢
      -- The stage that the run ended at is among those reported, and has not succeeded.
      cases halted with
      | cancelled _ =>
        refine ⟨nofun, fun h => ?_⟩
        have all : s.status = .succeeded := h s (by simp)
        rw [hs] at all
        exact absurd all nofun
      | unmet _ _ =>
        refine ⟨nofun, fun h => ?_⟩
        have all : (s.transition .failed).2.status = .succeeded := h _ (by simp)
        simp [Stage.transition, hs, StageStatus.canMoveTo] at all
      | failed _ _ =>
        refine ⟨nofun, fun h => ?_⟩
        have all : (s.ended false).status = .succeeded := h _ (by simp)
        rw [ended_status hs] at all
        exact absurd all nofun
    · rw [step]
      refine ih (fun t ht => pending t (List.mem_cons_of_mem s ht)) ?_
      intro t ht
      rcases List.mem_append.mp ht with ht | ht
      · exact before t ht
      · rw [List.mem_singleton.mp ht, ended_status hs]
        rfl

/-! ## What stands where in the notes -/

/-- Around an action there are only remarks. -/
theorem not_mem_of_request {n : Note} (hn : n.request ≠ .remark) (position : Nat) (s : Stage)
    (ctx : Context) (success : Bool) :
    n ∉ opening position s ctx ∧ n ∉ closing position s success := by
  constructor <;> intro h <;> refine hn ?_ <;>
    simp only [opening, closing, List.mem_cons, List.not_mem_nil, or_false] at h
  · rcases h with rfl | rfl | rfl <;> rfl
  · rcases h with rfl | rfl <;> rfl

/-- What the notes on a stage tell of besides remarks was done by its action. -/
theorem Point.told_note {p : Point σ} {s : Stage} {n : Note} {before after : List Note}
    (hn : n.request ≠ .remark) (h : p.told o s = before ++ n :: after) :
    ∃ first last, before = opening p.before.length s p.context ++ first ∧
      (p.perform o s).notes = first ++ n :: last := by
  obtain ⟨ho, hc⟩ := not_mem_of_request hn p.before.length s p.context
    (p.perform o s).value.1.isOk
  unfold told at h
  rcases append_eq_append_cons h with ⟨rest, ha, -⟩ | ⟨rest, -, hl⟩
  · rcases append_eq_append_cons ha with ⟨_, hf, -⟩ | ⟨first, rfl, hp⟩
    · exact absurd (by rw [hf]; simp) ho
    · exact ⟨first, rest, rfl, hp⟩
  · exact absurd (by rw [hl]; simp) hc

/-- The beginning of what an action does stands at the beginning of the notes on its stage. -/
theorem Point.prefix_told {p : Point σ} {s : Stage} {first : List Note}
    (h : first <+: (p.perform o s).notes) :
    opening p.before.length s p.context ++ first <+: p.told o s := by
  unfold told
  rw [List.append_assoc, List.prefix_append_right_inj]
  exact h.trans (List.prefix_append _ _)

/-- **What was done was done by one stage**, and all stages before that one have passed. -/
theorem advance_note {p : Point σ} {stages : List Stage} {n : Note} {before after : List Note}
    (hn : n.request ≠ .remark) (h : (p.advance o stages).notes = before ++ n :: after) :
    ∃ done s later taken q first last, stages = done ++ s :: later ∧ Passes o p done taken q ∧
      q.Admits s ∧ before = taken ++ opening q.before.length s q.context ++ first ∧
      (q.perform o s).notes = first ++ n :: last := by
  induction stages generalizing p before with
  | nil => exact absurd h (by simp [Point.advance, Run.advance, Script.play])
  | cons s later ih =>
    rcases advance_step (o := o) p s later with halted | ⟨admitted, passed, hs⟩
    · generalize p.advance o (s :: later) = e at halted h
      cases halted with
      | cancelled _ => exact absurd h (by simp)
      | unmet _ _ =>
        have moved : n ∈ before ++ n :: after := by simp
        rw [← h] at moved
        rw [List.mem_singleton.mp moved] at hn
        exact absurd rfl hn
      | failed admitted _ =>
        obtain ⟨first, last, rfl, hp⟩ := Point.told_note hn h
        exact ⟨[], s, later, [], p, first, last, rfl, .nil, admitted, rfl, hp⟩
    · -- The note stands among those on this stage, or among those on a later one.
      rw [hs] at h
      rcases append_eq_append_cons h with ⟨_, here, -⟩ | ⟨rest, rfl, there⟩
      · obtain ⟨first, last, rfl, hp⟩ := Point.told_note hn here
        exact ⟨[], s, later, [], p, first, last, rfl, .nil, admitted, rfl, hp⟩
      · obtain ⟨done, t, later, taken, q, first, last, rfl, passes, admits, rfl, hp⟩ := ih there
        exact ⟨s :: done, t, later, p.told o s ++ taken, q, first, last, rfl,
          .cons admitted passed passes, admits, by simp, hp⟩

/-! ## The whole run -/

/-- The note that a stage is not started. -/
def skipNote (s : Stage) : Note := .event (.stageSkipped s.name skipReason)

/-- The notes at the end of a run. -/
def farewell (release : Release) (e : Ending) : List Note :=
  (match e.failure with
    | some (position, _) => (e.stages.drop (position + 1)).map skipNote
    | none => []) ++
  [.event (.runFinished (report release e).success ((report release e).failedStage.getD "-"))]

theorem play_announceSkipped (stages : List Stage) (w : World σ) :
    (announceSkipped stages).play o w = ⟨(), w, stages.map skipNote⟩ := by
  induction stages with
  | nil => rfl
  | cons s later ih =>
    unfold announceSkipped
    rw [Script.bind_eq, Script.play_bind, Script.emit, play_record]
    dsimp only
    rw [ih]
    rfl

/-- **A run**: it says what is run, goes through the stages, and says how that went. -/
theorem play_run (release : Release) (stages : List Stage) (w : World σ) :
    (run release stages).play o w =
      let e := (⟨[], .start release.tag, w⟩ : Point σ).advance o stages
      ⟨report release e.value, e.world,
        .event (.runStarted release.tag stages.length) ::
          (e.notes ++ farewell release e.value)⟩ := by
  have ha : (advance [] (.start release.tag) stages).play o w =
      (⟨[], .start release.tag, w⟩ : Point σ).advance o stages := rfl
  unfold run
  simp only [Script.bind_eq, Script.play_bind, Script.emit, play_record, ha]
  generalize (⟨[], .start release.tag, w⟩ : Point σ).advance o stages = e
  unfold farewell
  cases e.value.failure with
  | none => rfl
  | some failed =>
    simp only [Script.play_bind, play_announceSkipped, play_record]
    simp [Script.play]

/-- At the end of a run there are only remarks. -/
theorem not_mem_farewell {n : Note} (hn : n.request ≠ .remark) (release : Release) (e : Ending) :
    n ∉ farewell release e := by
  intro h
  refine hn ?_
  unfold farewell at h
  rcases List.mem_append.mp h with h | h
  · cases hf : e.failure with
    | none =>
      rw [hf] at h
      exact absurd h List.not_mem_nil
    | some failed =>
      rw [hf] at h
      obtain ⟨s, -, rfl⟩ := List.mem_map.mp h
      rfl
  · rw [List.mem_singleton.mp h]
    rfl

/-- What was done in a run was done on the way through the stages. -/
theorem run_note {release : Release} {stages : List Stage} {w : World σ} {n : Note}
    {before after : List Note} (hn : n.request ≠ .remark)
    (h : ((run release stages).play o w).notes = before ++ n :: after) :
    ∃ early late, before = .event (.runStarted release.tag stages.length) :: early ∧
      ((⟨[], .start release.tag, w⟩ : Point σ).advance o stages).notes = early ++ n :: late := by
  rw [play_run] at h
  have hs : [Note.event (.runStarted release.tag stages.length)] ++ _ = before ++ n :: after := h
  rcases append_eq_append_cons hs with ⟨rest, he, -⟩ | ⟨early, rfl, he⟩
  · have told : n ∈ before ++ n :: rest := by simp
    rw [← he] at told
    rw [List.mem_singleton.mp told] at hn
    exact absurd rfl hn
  · rcases append_eq_append_cons he with ⟨late, hs, -⟩ | ⟨rest, -, hf⟩
    · exact ⟨early, late, rfl, hs⟩
    · have told : n ∈ rest ++ n :: after := by simp
      rw [← hf] at told
      exact absurd told (not_mem_farewell hn release _)

theorem success_report (release : Release) (e : Ending) :
    (report release e).success = e.failure.isNone := by
  unfold report RunReport.success
  cases e.failure <;> rfl

theorem error_report (release : Release) (e : Ending) :
    (report release e).error.isNone = (report release e).success := by
  rw [success_report]
  unfold report
  cases e.failure <;> rfl

/-- The place at which a run has failed is that of a stage. -/
theorem Halts.failedStage {p : Point σ} {rest : List Stage} {e : Played σ Ending}
    (h : Halts o p rest e) : (failedStage? e.value).isNone = e.value.failure.isNone := by
  cases h with
  | finished => rfl
  | cancelled _ | unmet _ _ | failed _ _ => simp [failedStage?]

/-- **A report names the stage that the run failed at**, if it failed, and no stage else. -/
theorem run_failedStage (release : Release) (stages : List Stage) (w : World σ) :
    ((run release stages).play o w).value.failedStage.isNone =
      ((run release stages).play o w).value.success := by
  obtain ⟨done, rest, taken, q, e, -, -, halts, he⟩ :=
    advance_split (o := o) (⟨[], .start release.tag, w⟩ : Point σ) stages
  rw [play_run]
  dsimp only
  rw [success_report, he]
  exact halts.failedStage

/-- A report shows the states in which the stages ended. -/
theorem report_succeeded (release : Release) (e : Ending) :
    (∀ s ∈ (report release e).stages, s.status = .succeeded) ↔
      ∀ s ∈ e.stages, s.status = .succeeded := by
  unfold report
  constructor
  · intro h s hs
    obtain ⟨position, hp, rfl⟩ := List.mem_iff_getElem.mp hs
    exact h (reportStage e.failure position e.stages[position])
      (List.mem_mapIdx.mpr ⟨position, hp, rfl⟩)
  · intro h s hs
    obtain ⟨position, hp, rfl⟩ := List.mem_mapIdx.mp hs
    exact h _ (List.getElem_mem hp)

/-- A run of stages that have not started reports success exactly if it reports it of each. -/
theorem run_succeeded {release : Release} {stages : List Stage} {w : World σ}
    (pending : ∀ s ∈ stages, s.status = .pending) :
    ((run release stages).play o w).value.success = true ↔
      ∀ s ∈ ((run release stages).play o w).value.stages, s.status = .succeeded := by
  rw [play_run]
  dsimp only
  rw [success_report, report_succeeded]
  exact advance_succeeded pending nofun

/-! ## What is performed on the way -/

/-- What follows upon the action of a stage. -/
def follow (before later : List Stage) : Stage × Except ReleaseError Unit × Context → Script Ending
  | (ended, .ok (), ctx) => advance (before ++ [ended]) ctx later
  | (ended, .error e, ctx) => pure ⟨before ++ ended :: later, ctx, some (before.length, e)⟩

section Performed
variable {α : Type} {t : Script α} {v : World σ} {p : Point σ} {s : Stage} {later : List Stage}
  {taken : List Note}

/-- A stage that may start is executed. -/
theorem performed_of_execute (admitted : p.Admits s)
    (h : t.Performed o v ((execute p.before.length s p.context).bind (follow p.before later))
      p.world taken) :
    t.Performed o v (Run.advance p.before p.context (s :: later)) p.world taken := by
  -- Asking for the stop signal is the first part of the script; the rest is decided by the answer.
  obtain ⟨hc, hd⟩ := admitted
  have hs : Run.advance p.before p.context (s :: later) = Script.isCancelled.bind _ := rfl
  rw [hs]
  refine .second ?_
  show Script.Performed o t v (if p.world.cancelled = true then _ else _) p.world taken
  rw [hc, if_neg Bool.false_ne_true, hd]
  show Script.Performed o t v (Script.bind (execute p.before.length s p.context) _) p.world taken
  refine Eq.mp ?_ h
  congr 2
  funext ⟨ended, result, ctx⟩
  cases result <;> rfl

/-- What is performed in the action of a stage that may start is performed in the run. -/
theorem performed_of_action (admitted : p.Admits s)
    (h : t.Performed o v (s.action.execute p.context) p.world taken) :
    t.Performed o v (Run.advance p.before p.context (s :: later)) p.world
      (opening p.before.length s p.context ++ taken) := by
  refine performed_of_execute admitted (.first ?_)
  exact .second (s := move p.before.length s .running)
    (.second (s := Script.emit _) (.second (s := Script.record _) (.first h)))

/-- What is performed after a stage that has succeeded is performed in the run. -/
theorem performed_of_next (admitted : p.Admits s) (passed : (p.perform o s).value.1 = .ok ())
    (h : t.Performed o v (Run.advance (p.next o s).before (p.next o s).context later)
      (p.next o s).world taken) :
    t.Performed o v (Run.advance p.before p.context (s :: later)) p.world
      (p.told o s ++ taken) := by
  have hp : (execute p.before.length s p.context).play o p.world =
      ⟨(s.ended true, .ok (), (p.perform o s).value.2), (p.perform o s).world, p.told o s⟩ := by
    have ha : (s.action.execute p.context).play o p.world = p.perform o s := rfl
    have hv : (p.perform o s).value = (.ok (), (p.perform o s).value.2) := Prod.ext passed rfl
    have hk : (p.perform o s).value.1.isOk = true := by
      rw [passed]
      rfl
    rw [play_execute, ha]
    simp only [Point.told, hk]
    rw [← hv]
  have second : t.Performed o v
      ((execute p.before.length s p.context).bind (follow p.before later)) p.world
      (((execute p.before.length s p.context).play o p.world).notes ++ taken) := by
    refine .second ?_
    rw [hp]
    exact h
  rw [hp] at second
  exact performed_of_execute admitted second

/-- What is performed after stages that have passed is performed in the run. -/
theorem performed_of_passes {q : Point σ} {done rest : List Stage} {first : List Note}
    (passes : Passes o p done taken q)
    (h : t.Performed o v (Run.advance q.before q.context rest) q.world first) :
    t.Performed o v (Run.advance p.before p.context (done ++ rest)) p.world (taken ++ first) := by
  induction passes with
  | nil => exact h
  | cons admitted passed _ ih =>
    rw [List.append_assoc]
    exact performed_of_next admitted passed (ih h)

/-- What is performed on the way through the stages is performed in the run. -/
theorem performed_run {release : Release} {stages : List Stage} {w : World σ}
    (h : t.Performed o v (advance [] (.start release.tag) stages) w taken) :
    t.Performed o v (run release stages) w
      (.event (.runStarted release.tag stages.length) :: taken) := by
  have hs : run release stages = (Script.emit (.runStarted release.tag stages.length)).bind fun _ =>
      (advance [] (.start release.tag) stages).bind _ := rfl
  rw [hs]
  exact .second (s := Script.emit _) (.first h)

end Performed

end Run
end GatedRelease
