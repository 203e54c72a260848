import GatedRelease.Proofs.Run.Chronicle
import GatedRelease.Proofs.Run.Continuation

/-! # What a run executes

A run comes to a stage once all stages before it have succeeded (`Reaches`).  It looks at what the
stage depends on unless it has been asked to stop meanwhile (`Asks`), and it executes the stage if
nothing of that is unmet (`Executes`).  The positions at which a run executes a stage are the first
ones, up to some number, and the notes tell of those executions, one after the other, and of no
other (`run_executed`).
-/
namespace GatedRelease.Run
variable {σ : Type} {o : Outside σ} {p q r : Point σ} {s t : Stage}
  {stages done rest later : List Stage} {taken : List Note} {i j : Nat}

/-- **A run comes to a stage**: the stages before it have succeeded, which is how far it has come. -/
structure Reaches (o : Outside σ) (p : Point σ) (stages : List Stage) (i : Nat) (s : Stage)
    (q : Point σ) : Prop where
  here : stages[i]? = some s
  passed : ∃ taken, Passes o p (stages.take i) taken q

/-- **A run looks at what a stage depends on**: it comes to the stage and is not to stop. -/
structure Asks (o : Outside σ) (p : Point σ) (stages : List Stage) (i : Nat) (s : Stage)
    (q : Point σ) : Prop extends Reaches o p stages i s q where
  uncancelled : q.world.cancelled = false

/-- **A run executes a stage**: nothing is unmet of what the stage depends on. -/
structure Executes (o : Outside σ) (p : Point σ) (stages : List Stage) (i : Nat) (s : Stage)
    (q : Point σ) : Prop extends Asks o p stages i s q where
  met : unmetDependency? q.before s = none

/-- The notes on stages that are executed one after the other, each where the one before it leaves
the run. -/
def course (o : Outside σ) : Point σ → List Stage → List Note
  | _, [] => []
  | p, s :: later => p.told o s ++ course o (p.next o s) later

/-- **What a run has executed**: the stages at the first positions, and the notes tell so. -/
structure Executed (o : Outside σ) (release : Release) (w : World σ) (stages : List Stage)
    (notes : List Note) (n : Nat) : Prop where
  positions (i : Nat) : (∃ s q, Executes o ⟨[], .start release.tag, w⟩ stages i s q) ↔ i < n
  told : ∃ rest, notes = .event (.runStarted release.tag stages.length) ::
      (course o ⟨[], .start release.tag, w⟩ (stages.take n) ++ rest) ∧
    ∀ position ctx, .entered position ctx ∉ rest

/-! ## Stages that have passed -/

theorem course_append (p : Point σ) (stages later : List Stage) :
    course o p (stages ++ later) = course o p stages ++ course o (p.past o stages) later := by
  induction stages generalizing p with
  | nil => rfl
  | cons s rest ih =>
    rw [List.cons_append, course, course, ih, List.append_assoc]
    rfl

theorem Passes.course_eq (h : Passes o p done taken q) : taken = course o p done := by
  induction h with
  | nil => rfl
  | cons _ _ _ ih => rw [course, ← ih]

/-- Each stage of those that have passed was executed, and has succeeded. -/
theorem Passes.each (h : Passes o p done taken q) (hi : i < done.length) :
    ∃ first r, Passes o p (done.take i) first r ∧ r.Admits done[i] ∧
      (r.perform o done[i]).value.1 = .ok () := by
  induction h generalizing i with
  | nil => exact absurd hi (Nat.not_lt_zero i)
  | @cons p _ s later _ admitted passed _ ih =>
    cases i with
    | zero => exact ⟨[], p, .nil, admitted, passed⟩
    | succ i =>
      obtain ⟨first, r, before, admits, performed⟩ := ih (Nat.lt_of_succ_lt_succ hi)
      exact ⟨p.told o s ++ first, r, .cons admitted passed before, admits, performed⟩

theorem Passes.executes (h : Passes o p done taken q) (hi : i < done.length) (rest : List Stage) :
    ∃ r, Executes o p (done ++ rest) i done[i] r ∧ (r.perform o done[i]).value.1 = .ok () := by
  obtain ⟨first, r, before, admits, performed⟩ := h.each hi
  have here : (done ++ rest)[i]? = some done[i] := by
    rw [List.getElem?_append_left hi, List.getElem?_eq_getElem hi]
  have taken : (done ++ rest).take i = done.take i :=
    List.take_append_of_le_length (Nat.le_of_lt hi)
  exact ⟨r, ⟨⟨⟨here, first, by rwa [taken]⟩, admits.1⟩, admits.2⟩, performed⟩

/-- A run that has come through some stages goes on from there. -/
theorem advance_of_passes (h : Passes o p done taken q) (later : List Stage) :
    p.advance o (done ++ later) = ⟨(q.advance o later).value, (q.advance o later).world,
      taken ++ (q.advance o later).notes⟩ := by
  induction h with
  | nil => rfl
  | @cons p _ s rest _ admitted passed _ ih =>
    rcases advance_step (o := o) p s (rest ++ later) with halted | ⟨-, -, step⟩
    · generalize p.advance o (s :: (rest ++ later)) = e at halted
      cases halted with
      | cancelled up => exact absurd (up.symm.trans admitted.1) nofun
      | unmet _ unmet => exact absurd (unmet.symm.trans admitted.2) nofun
      | failed _ failed => exact absurd (failed.symm.trans passed) nofun
    · rw [List.cons_append, step, ih, List.append_assoc]

/-! ## Stages that are reached -/

theorem Reaches.lt_length (h : Reaches o p stages i s q) : i < stages.length :=
  (List.getElem?_eq_some_iff.mp h.here).1

theorem Reaches.past (h : Reaches o p stages i s q) : q = p.past o (stages.take i) := by
  obtain ⟨taken, passes⟩ := h.passed
  exact passes.past

/-- What has passed before a stage that is reached. -/
theorem Reaches.before (h : Reaches o p stages i s q) :
    q.before = p.before ++ (stages.take i).map (·.ended true) := by
  obtain ⟨taken, passes⟩ := h.passed
  exact passes.before

theorem reaches_of_passes (h : Passes o p done taken q) (s : Stage) (later : List Stage) :
    Reaches o p (done ++ s :: later) done.length s q :=
  ⟨by simp, taken, by simpa using h⟩

/-- There is one way at most to come to a position. -/
theorem Reaches.unique (h : Reaches o p stages i s q) (h' : Reaches o p stages i t r) :
    t = s ∧ r = q := by
  refine ⟨?_, h'.past.trans h.past.symm⟩
  have same : some t = some s := h'.here.symm.trans h.here
  exact Option.some.inj same

/-- **All stages before one that is reached were executed, and have succeeded.** -/
theorem Reaches.earlier (h : Reaches o p stages i s q) (hj : j < i) :
    ∃ t r, Executes o p stages j t r ∧ (r.perform o t).value.1 = .ok () := by
  obtain ⟨taken, passes⟩ := h.passed
  have length : (stages.take i).length = i := List.length_take_of_le (Nat.le_of_lt h.lt_length)
  obtain ⟨r, executes, performed⟩ := passes.executes (by rwa [length]) (stages.drop i)
  rw [List.take_append_drop] at executes
  exact ⟨_, r, executes, performed⟩

/-- Nothing is reached behind the place at which a run ends. -/
theorem Reaches.le_of_halts {e : Played σ Ending} (h : Reaches o p (done ++ rest) i s r)
    (passes : Passes o p done taken q) (halts : Halts o q rest e) : i ≤ done.length := by
  by_contra behind
  obtain ⟨t, r', executes, performed⟩ := h.earlier (Nat.lt_of_not_le behind)
  -- The stage at which the run has ended would have passed.
  have there := executes.here
  cases rest with
  | nil => exact absurd executes.lt_length (by simp)
  | cons u later =>
    obtain ⟨rfl, rfl⟩ := executes.unique (reaches_of_passes passes u later)
    cases halts with
    | cancelled up => exact absurd (up.symm.trans executes.uncancelled) nofun
    | unmet _ unmet => exact absurd (unmet.symm.trans executes.met) nofun
    | failed _ failed => exact absurd (failed.symm.trans performed) nofun

/-! ## The whole run -/

theorem entered_not_mem_farewell (release : Release) (e : Ending) (position : Nat)
    (ctx : Context) : .entered position ctx ∉ farewell release e := by
  intro h
  unfold farewell at h
  rcases List.mem_append.mp h with skipped | last
  · cases hf : e.failure with
    | none =>
      rw [hf] at skipped
      exact absurd skipped List.not_mem_nil
    | some failed =>
      rw [hf] at skipped
      obtain ⟨s, -, noted⟩ := List.mem_map.mp skipped
      exact absurd noted nofun
  · exact absurd (List.mem_singleton.mp last) nofun

/-- The positions at which stages are executed that a run has come to the end of. -/
theorem executes_iff {e : Played σ Ending} (passes : Passes o p done taken q)
    (halts : Halts o q rest e) (i : Nat) :
    (∃ s r, Executes o p (done ++ rest) i s r) ↔
      i < done.length ∨ i = done.length ∧ ∃ s ∈ rest.head?, q.Admits s := by
  constructor
  · rintro ⟨s, r, executes⟩
    rcases Nat.lt_or_eq_of_le (executes.le_of_halts passes halts) with before | rfl
    · exact Or.inl before
    · cases rest with
      | nil => exact absurd executes.lt_length (by simp)
      | cons u later =>
        obtain ⟨rfl, rfl⟩ := executes.unique (reaches_of_passes passes u later)
        exact Or.inr ⟨rfl, _, rfl, executes.uncancelled, executes.met⟩
  · rintro (before | ⟨rfl, s, head, uncancelled, met⟩)
    · obtain ⟨r, executes, -⟩ := passes.executes before rest
      exact ⟨_, r, executes⟩
    · obtain ⟨later, rfl⟩ : ∃ later, rest = s :: later := List.head?_eq_some_iff.mp head
      exact ⟨s, q, ⟨reaches_of_passes passes s later, uncancelled⟩, met⟩

/-- **What a run executes**: the stages at its first positions, each where the one before it leaves
the run, and nothing else. -/
theorem run_executed (release : Release) (w : World σ) (stages : List Stage) :
    ∃ n, Executed o release w stages ((run release stages).play o w).notes n := by
  obtain ⟨done, rest, taken, q, e, rfl, passes, halts, he⟩ :=
    advance_split (o := o) (⟨[], .start release.tag, w⟩ : Point σ) stages
  have positions := executes_iff passes halts
  have reached := passes.past
  rw [play_run]
  simp only [he, passes.course_eq, List.append_assoc]
  -- One more than those that have passed, if the run has ended with a failed action.
  cases halts with
  | finished =>
    refine ⟨done.length, fun i => by simpa using positions i, _, by simp; rfl, ?_⟩
    exact fun _ _ => entered_not_mem_farewell release _ _ _
  | cancelled up =>
    refine ⟨done.length, fun i => ?_, _, by simp; rfl, ?_⟩
    · simpa [Point.Admits, up] using positions i
    · exact fun _ _ => entered_not_mem_farewell release _ _ _
  | unmet down unmet =>
    refine ⟨done.length, fun i => ?_, _, by simp; rfl, ?_⟩
    · simpa [Point.Admits, unmet] using positions i
    · intro position ctx h
      rcases List.mem_cons.mp h with moved | last
      · exact absurd moved nofun
      · exact entered_not_mem_farewell release _ _ _ last
  | @failed s later _ admitted _ =>
    have one : (done ++ s :: later).take (done.length + 1) = done ++ [s] :=
      List.take_length_add_append 1
    have last : course o q [s] = q.told o s := by simp [course]
    refine ⟨done.length + 1, fun i => ?_, _, by rw [one, course_append, ← reached, last,
      List.append_assoc], ?_⟩
    · rw [positions i]
      simp only [List.head?_cons, Option.mem_def, Option.some.injEq, exists_eq_left', admitted,
        and_true]
      omega
    · exact fun _ _ => entered_not_mem_farewell release _ _ _

end GatedRelease.Run
