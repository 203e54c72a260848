import GatedRelease.Proofs.Run.Chaining
import GatedRelease.Proofs.Run.Shape
import GatedRelease.Proofs.Stage.Chain

/-! # The phases of a run

A run does one thing after the other (`Act`): it tells a stage to move on, performs the action of a
stage, or tells those who watch.  What an action writes down itself is kept apart, as part of its
performance.  A run is in one of few phases at any time (`Phase`), each act leads from one phase to
the next (`Goes`), and the states of all stages, and what has become of each, are known from the
phase alone (`Goes.states_eq`, `Goes.past_eq`).  So what holds of the states at every point of every
run is read off the phases (`Runs.disciplined`).

Nothing is assumed of the actions, nor of who asks the run to stop and when.
-/
namespace GatedRelease

namespace Stage

/-- **Stages as they are made**: new, then made to depend on others, one by one or in a chain. -/
inductive Made : Stage → Prop
  | new (name : String) (kind : StageKind) (action : Action) : Made (.new name kind action)
  | after {s : Stage} (dependency : String) : Made s → Made (s.after dependency)
  | linear {stages : List Stage} {s : Stage} :
      (∀ t ∈ stages, Made t) → s ∈ Stage.linear stages → Made s

/-- No stage is made that has started. -/
theorem Made.pending {s : Stage} (h : s.Made) : s.status = .pending := by
  induction h with
  | new => rfl
  | after _ _ ih => exact ih
  | linear _ hs ih =>
    obtain ⟨t, ht, -, status⟩ := exists_of_mem_linearAfter hs
    exact status.trans (ih t ht)

end Stage

namespace Run

/-- **What a run does**, one thing after the other. -/
inductive Act
  /-- A stage is told to move on. -/
  | move (position : Nat) (before after : StageStatus) (permitted : Bool)
  /-- The action of a stage is performed, and takes notes of its own. -/
  | perform (position : Nat) (context : Context) (own : List Note)
  /-- Those who watch are told. -/
  | tell (event : Event)

namespace Act

/-- The notes that are taken. -/
def notes : Act → List Note
  | move position before after permitted => [.moved position before after permitted]
  | perform position context own => .entered position context :: own
  | tell event => [.event event]

/-- The states of the stages afterwards. A move that is not permitted changes nothing. -/
def apply (states : List StageStatus) : Act → List StageStatus
  | move position _ after true => states.set position after
  | _ => states

/-- The state that the stage at a position moves to. -/
def goal? (position : Nat) : Act → Option StageStatus
  | move p _ after true => if p = position then some after else none
  | _ => none

end Act

/-- The states of the stages after what was done. -/
def statesAfter (stages : List Stage) (acts : List Act) : List StageStatus :=
  acts.foldl Act.apply (stages.map (·.status))

/-- All states of the stage at a position, the first one first. -/
def history (s : Stage) (position : Nat) (acts : List Act) : List StageStatus :=
  s.status :: acts.filterMap (Act.goal? position)

/-- **The stage at a position is being executed** between what was done and what is yet to be done:
it was told to run, it is to be told to move on, and all there is in between is word of its start
and one performance, which is that of its own action. -/
inductive Executing (position : Nat) : List Act → List Act → Prop
  | intro {lead front back rest : List Act} {event : Event} {ctx : Context} {own : List Note}
      {after : StageStatus} : front ≠ [] → back ≠ [] →
      front ++ back = [.move position .pending .running true, .tell event,
        .perform position ctx own, .move position .running after true] →
      Executing position (lead ++ front) (back ++ rest)

/-- **How the states of stages change in a run.** -/
structure Disciplined (stages : List Stage) (acts : List Act) (r : RunReport) : Prop where
  /-- Every move is permitted, and is made from the state that the stage has. -/
  permitted (past future : List Act) (position : Nat) (before after : StageStatus)
    (permitted : Bool) : acts = past ++ .move position before after permitted :: future →
      permitted = true ∧ (statesAfter stages past)[position]? = some before
  /-- While an action is performed, its stage is running, all stages before that one have succeeded
  and all stages behind it have not started. -/
  performing (past future : List Act) (position : Nat) (ctx : Context) (own : List Note) :
    acts = past ++ .perform position ctx own :: future →
      (∃ s a, stages[position]? = some s ∧ (s.action.execute ctx).Yields own a) ∧
      ∀ i < stages.length, (statesAfter stages past)[i]? = some
        (if i < position then .succeeded else if i = position then .running else .pending)
  /-- At any point one stage at most is running, and that stage is being executed. -/
  running (past future : List Act) (i : Nat) : acts = past ++ future →
    (statesAfter stages past)[i]? = some .running →
      Executing i past future ∧ ∀ j, (statesAfter stages past)[j]? = some .running → j = i
  /-- There are four courses that a stage can take. -/
  history (i : Nat) (s : Stage) : stages[i]? = some s →
    history s i acts ∈ [[.pending], [.pending, .failed], [.pending, .running, .succeeded],
      [.pending, .running, .failed]]
  reported : r.stages.map (·.status) = statesAfter stages acts

/-! ## Phases -/

/-- **Where a run is.** -/
inductive Phase
  /-- So many stages have succeeded, and no other has started. -/
  | between (done : Nat)
  /-- The stage at the position was told to run. -/
  | started (position : Nat)
  /-- It was announced, too. -/
  | announced (position : Nat)
  /-- Its action was performed. -/
  | performed (position : Nat)
  /-- The stage at the position has failed, whether it was executed or not. -/
  | stopped (position : Nat) (executed : Bool)

namespace Phase

/-- How many stages have succeeded. -/
def position : Phase → Nat
  | between k | started k | announced k | performed k | stopped k _ => k

/-- The state of the stage behind those that have succeeded. -/
def here : Phase → StageStatus
  | between _ => .pending
  | started _ | announced _ | performed _ => .running
  | stopped .. => .failed

/-- What has become of that stage. -/
def passed : Phase → List StageStatus
  | between _ => [.pending]
  | started _ | announced _ | performed _ => [.pending, .running]
  | stopped _ true => [.pending, .running, .failed]
  | stopped _ false => [.pending, .failed]

/-- The state of the stage at a position. -/
def state (φ : Phase) (i : Nat) : StageStatus :=
  if i < φ.position then .succeeded else if i = φ.position then φ.here else .pending

/-- What has become of the stage at a position. -/
def past (φ : Phase) (i : Nat) : List StageStatus :=
  if i < φ.position then [.pending, .running, .succeeded]
  else if i = φ.position then φ.passed else [.pending]

/-- The states of so many stages. -/
def states (φ : Phase) (n : Nat) : List StageStatus := (List.range n).map φ.state

/-- No stage is being executed. -/
def Idle : Phase → Prop
  | between _ | stopped .. => True
  | started _ | announced _ | performed _ => False

/-- The stage that is executed is one of so many. -/
def Bounded (n : Nat) : Phase → Prop
  | between _ | stopped .. => True
  | started k | announced k | performed k => k < n

end Phase

/-- **One act leads from one phase to the next.** -/
inductive Goes (stages : List Stage) : Phase → Act → Phase → Prop
  | tell {φ : Phase} (e : Event) : φ.Idle → Goes stages φ (.tell e) φ
  | refuse {k : Nat} : k < stages.length →
      Goes stages (.between k) (.move k .pending .failed true) (.stopped k false)
  | start {k : Nat} : k < stages.length →
      Goes stages (.between k) (.move k .pending .running true) (.started k)
  | announce {k : Nat} (e : Event) : Goes stages (.started k) (.tell e) (.announced k)
  | perform {k : Nat} {s : Stage} {ctx : Context} {own : List Note}
      {a : Except ReleaseError Unit × Context} :
      stages[k]? = some s → (s.action.execute ctx).Yields own a →
      Goes stages (.announced k) (.perform k ctx own) (.performed k)
  | succeed {k : Nat} :
      Goes stages (.performed k) (.move k .running .succeeded true) (.between (k + 1))
  | fail {k : Nat} :
      Goes stages (.performed k) (.move k .running .failed true) (.stopped k true)

/-- Several acts lead from one phase to another. -/
inductive Runs (stages : List Stage) : Phase → List Act → Phase → Prop
  | nil {φ : Phase} : Runs stages φ [] φ
  | cons {φ χ ψ : Phase} {a : Act} {acts : List Act} :
      Goes stages φ a χ → Runs stages χ acts ψ → Runs stages φ (a :: acts) ψ

section Phases
variable {stages : List Stage} {φ χ ψ : Phase} {a : Act} {acts more past future : List Act}
  {i k n : Nat}

theorem Phase.getElem?_states (φ : Phase) (h : i < n) : (φ.states n)[i]? = some (φ.state i) := by
  simp [states, h]

theorem Phase.eq_of_getElem?_states {x : StageStatus} (h : (φ.states n)[i]? = some x) :
    i < n ∧ φ.state i = x := by
  obtain ⟨hi, rfl⟩ := List.getElem?_eq_some_iff.mp h
  exact ⟨by simpa [states] using hi, by simp [states]⟩

/-- Phases that differ in one stage. -/
theorem Phase.set_states {x : StageStatus} (h : ∀ i, χ.state i = if i = k then x else φ.state i)
    (n : Nat) : (φ.states n).set k x = χ.states n := by
  refine List.ext_getElem (by simp [states]) fun i hi _ => ?_
  simp [states, List.getElem_set, h, eq_comm]

/-- **What an act does to the states** is known from the phases. -/
theorem Goes.states_eq (h : Goes stages φ a χ) (n : Nat) : a.apply (φ.states n) = χ.states n := by
  cases h with
  | tell | announce | perform => rfl
  | refuse | start | succeed | fail =>
    refine Phase.set_states (fun i => ?_) n
    grind [Phase.state, Phase.position, Phase.here]

/-- **What becomes of each stage** is known from the phases. -/
theorem Goes.past_eq (h : Goes stages φ a χ) (i : Nat) :
    φ.past i ++ (a.goal? i).toList = χ.past i := by
  cases h with
  | tell | announce | perform => exact List.append_nil _
  | refuse | start | succeed | fail =>
    grind [Phase.past, Phase.position, Phase.passed, Act.goal?]

theorem Goes.bounded (h : Goes stages φ a χ) (hφ : φ.Bounded stages.length) :
    χ.Bounded stages.length := by
  cases h with
  | start hk => exact hk
  | tell | announce | perform => exact hφ
  | refuse | succeed | fail => trivial

/-! ## From one phase to another -/

theorem runs_append : Runs stages φ (acts ++ more) ψ ↔
    ∃ χ, Runs stages φ acts χ ∧ Runs stages χ more ψ := by
  constructor
  · intro h
    induction acts generalizing φ with
    | nil => exact ⟨φ, .nil, h⟩
    | cons a acts ih =>
      cases h with
      | cons step rest =>
        obtain ⟨χ, first, last⟩ := ih rest
        exact ⟨χ, .cons step first, last⟩
  · rintro ⟨χ, first, last⟩
    induction first with
    | nil => exact last
    | cons step _ ih => exact .cons step (ih last)

theorem Runs.states_eq (h : Runs stages φ acts ψ) (n : Nat) :
    acts.foldl Act.apply (φ.states n) = ψ.states n := by
  induction h with
  | nil => rfl
  | cons step _ ih => rw [List.foldl_cons, step.states_eq, ih]

theorem Runs.past_eq (h : Runs stages φ acts ψ) (i : Nat) :
    φ.past i ++ acts.filterMap (Act.goal? i) = ψ.past i := by
  induction h with
  | nil => exact List.append_nil _
  | @cons φ χ ψ a acts step _ ih =>
    have first : (a :: acts).filterMap (Act.goal? i) =
        (a.goal? i).toList ++ acts.filterMap (Act.goal? i) := by
      cases h : a.goal? i <;> simp [h]
    rw [first, ← List.append_assoc, step.past_eq, ih]

theorem Runs.bounded (h : Runs stages φ acts ψ) (hφ : φ.Bounded stages.length) :
    ψ.Bounded stages.length := by
  induction h with
  | nil => exact hφ
  | cons step _ ih => exact ih (step.bounded hφ)

/-! ## The stage that is being executed -/

/-- What was done last, as far as the stage at the position is concerned. -/
def Phase.Led (past : List Act) : Phase → Prop
  | between _ | stopped .. => True
  | started k => ∃ lead, past = lead ++ [.move k .pending .running true]
  | announced k => ∃ lead event, past = lead ++ [.move k .pending .running true, .tell event]
  | performed k => ∃ lead event ctx own,
      past = lead ++ [.move k .pending .running true, .tell event, .perform k ctx own]

theorem Goes.led (h : Goes stages φ a χ) (hφ : φ.Led past) : χ.Led (past ++ [a]) := by
  cases h with
  | tell e idle => cases φ <;> trivial
  | refuse | succeed | fail => trivial
  | start hk => exact ⟨past, rfl⟩
  | announce e =>
    obtain ⟨lead, rfl⟩ := hφ
    exact ⟨lead, e, by simp⟩
  | @perform k s ctx own a here yields =>
    obtain ⟨lead, e, rfl⟩ := hφ
    exact ⟨lead, e, ctx, own, by simp⟩

theorem Runs.led (h : Runs stages φ acts ψ) (hφ : φ.Led past) : ψ.Led (past ++ acts) := by
  induction h generalizing past with
  | nil => simpa using hφ
  | cons step _ ih => simpa using ih (step.led hφ)

/-- Once an action was performed, its stage is told to move on. -/
theorem Runs.of_performed (h : Runs stages (.performed k) acts ψ) (idle : ψ.Idle) :
    ∃ after rest, acts = .move k .running after true :: rest := by
  cases h with
  | nil => exact absurd idle id
  | cons step _ =>
    cases step with
    | tell _ idle => exact absurd idle id
    | succeed | fail => exact ⟨_, _, rfl⟩

/-- Once a stage was announced, its action is performed. -/
theorem Runs.of_announced (h : Runs stages (.announced k) acts ψ) (idle : ψ.Idle) :
    ∃ ctx own after rest,
      acts = .perform k ctx own :: .move k .running after true :: rest := by
  cases h with
  | nil => exact absurd idle id
  | cons step later =>
    cases step with
    | tell _ idle => exact absurd idle id
    | perform =>
      obtain ⟨after, rest, rfl⟩ := later.of_performed idle
      exact ⟨_, _, after, rest, rfl⟩

/-- Once a stage was started, it is announced. -/
theorem Runs.of_started (h : Runs stages (.started k) acts ψ) (idle : ψ.Idle) :
    ∃ e ctx own after rest,
      acts = .tell e :: .perform k ctx own :: .move k .running after true :: rest := by
  cases h with
  | nil => exact absurd idle id
  | cons step later =>
    cases step with
    | tell _ idle => exact absurd idle id
    | announce e =>
      obtain ⟨ctx, own, after, rest, rfl⟩ := later.of_announced idle
      exact ⟨e, ctx, own, after, rest, rfl⟩

/-- **A stage that is running is being executed.** -/
theorem Runs.executing (before : Runs stages (.between 0) past φ)
    (after : Runs stages φ future ψ) (idle : ψ.Idle) (running : φ.here = .running) :
    Executing φ.position past future := by
  have first : (Phase.between 0).Led [] := trivial
  have led : φ.Led past := before.led first
  cases φ with
  | between | stopped => exact absurd running nofun
  | started k =>
    obtain ⟨lead, rfl⟩ := led
    obtain ⟨e, ctx, own, state, rest, rfl⟩ := after.of_started idle
    show Executing k (lead ++ [_]) ([_, _, _] ++ rest)
    exact .intro (List.cons_ne_nil _ _) (List.cons_ne_nil _ _) rfl
  | announced k =>
    obtain ⟨lead, e, rfl⟩ := led
    obtain ⟨ctx, own, state, rest, rfl⟩ := after.of_announced idle
    show Executing k (lead ++ [_, _]) ([_, _] ++ rest)
    exact .intro (List.cons_ne_nil _ _) (List.cons_ne_nil _ _) rfl
  | performed k =>
    obtain ⟨lead, e, ctx, own, rfl⟩ := led
    obtain ⟨state, rest, rfl⟩ := after.of_performed idle
    show Executing k (lead ++ [_, _, _]) ([_] ++ rest)
    exact .intro (List.cons_ne_nil _ _) (List.cons_ne_nil _ _) rfl

/-! ## What the phases say of a run -/

theorem Phase.state_eq_running (h : φ.state i = .running) :
    i = φ.position ∧ φ.here = .running := by
  grind [Phase.state]

/-- A move is made from the state that the stage has. -/
theorem Goes.of_move {before after : StageStatus} {permitted : Bool}
    (h : Goes stages φ (.move i before after permitted) χ) (hφ : φ.Bounded stages.length) :
    permitted = true ∧ i < stages.length ∧ φ.state i = before := by
  cases h with
  | refuse hi | start hi =>
    exact ⟨rfl, hi, by simp [Phase.state, Phase.position, Phase.here]⟩
  | succeed | fail => exact ⟨rfl, hφ, by simp [Phase.state, Phase.position, Phase.here]⟩

/-- Where no stage is being executed, each has taken one of four courses. -/
theorem Phase.past_mem (idle : φ.Idle) (i : Nat) : φ.past i ∈ ([[.pending], [.pending, .failed],
    [.pending, .running, .succeeded], [.pending, .running, .failed]] :
      List (List StageStatus)) := by
  by_cases before : i < φ.position
  · simp [Phase.past, before]
  by_cases here : i = φ.position
  · rw [Phase.past, if_neg before, if_pos here]
    cases φ with
    | between => simp [passed]
    | started | announced | performed => exact absurd idle id
    | stopped k executed => cases executed <;> simp [passed]
  · simp [Phase.past, before, here]

/-- The states of stages none of which has started. -/
theorem states_of_pending (pending : ∀ s ∈ stages, s.status = .pending) :
    stages.map (·.status) = (Phase.between 0).states stages.length := by
  refine List.ext_getElem (by simp [Phase.states]) fun i _ _ => ?_
  simp [Phase.states, Phase.state, Phase.position, Phase.here, pending]

/-- **A run that goes from phase to phase is disciplined.** -/
theorem Runs.disciplined {r : RunReport} (h : Runs stages (.between 0) acts ψ) (idle : ψ.Idle)
    (pending : ∀ s ∈ stages, s.status = .pending)
    (reported : r.stages.map (·.status) = ψ.states stages.length) :
    Disciplined stages acts r := by
  have states {past : List Act} {φ : Phase} (before : Runs stages (.between 0) past φ) :
      statesAfter stages past = φ.states stages.length := by
    rw [statesAfter, states_of_pending pending, before.states_eq]
  constructor
  case permitted =>
    rintro past future position before after permitted rfl
    obtain ⟨φ, first, last⟩ := runs_append.mp h
    cases last with
    | cons step _ =>
      obtain ⟨rfl, bound, state⟩ := step.of_move (first.bounded trivial)
      rw [states first, φ.getElem?_states bound, state]
      exact ⟨rfl, rfl⟩
  case performing =>
    rintro past future position ctx own rfl
    obtain ⟨φ, first, last⟩ := runs_append.mp h
    cases last with
    | cons step _ =>
      cases step with
      | perform here own =>
        refine ⟨⟨_, _, here, own⟩, fun i hi => ?_⟩
        rw [states first, Phase.getElem?_states _ hi]
        rfl
  case running =>
    rintro past future i rfl running
    obtain ⟨φ, first, last⟩ := runs_append.mp h
    rw [states first] at running ⊢
    obtain ⟨rfl, here⟩ := Phase.state_eq_running (φ.eq_of_getElem?_states running).2
    refine ⟨first.executing last idle here, fun j hj => ?_⟩
    exact (Phase.state_eq_running (φ.eq_of_getElem?_states hj).2).1
  case history =>
    intro i s hs
    have fresh : history s i acts = (Phase.between 0).past i ++ acts.filterMap (Act.goal? i) := by
      have first : (Phase.between 0).past i = [.pending] := ite_self _
      rw [history, pending s (List.mem_of_getElem? hs), first]
      rfl
    rw [fresh, h.past_eq]
    exact Phase.past_mem idle i
  case reported => rw [reported, states h]

end Phases

/-! ## The phases of a run -/

/-- What is done at a stage that is executed. -/
def visited (position : Nat) (s : Stage) (ctx : Context) (own : List Note) (success : Bool) :
    List Act :=
  [.move position .pending .running true, .tell (.stageStarted s.name position),
    .perform position ctx own, .move position .running (Stage.outcome success) true,
    .tell (.stageFinished s.name success)]

section Ways
variable {all done later before : List Stage} {s : Stage} {ctx : Context} {notes own : List Note}
  {acts : List Act} {φ : Phase} {k : Nat} {e : Ending} {a : Except ReleaseError Unit × Context}

/-- **A way through one stage.** -/
theorem yields_execute {ended : Stage} (fresh : s.status = .pending)
    (h : (execute k s ctx).Yields notes (ended, a)) :
    ∃ own, (s.action.execute ctx).Yields own a ∧ ended.status = Stage.outcome a.1.isOk ∧
      notes = (visited k s ctx own a.1.isOk).flatMap Act.notes := by
  rw [execute_of_pending fresh] at h
  obtain ⟨_, rfl, _, rfl, _, rfl, action⟩ := h
  obtain ⟨b, own, _, first, ⟨_, rfl, _, rfl, rfl, hb⟩, rfl⟩ := Script.yields_bind.mp action
  obtain ⟨rfl, rfl⟩ := Prod.mk.inj hb
  exact ⟨own, first, rfl, by simp [visited, Act.notes]⟩

/-- The phases that a stage goes through which is executed. -/
theorem runs_visited (here : all[k]? = some s) (yields : (s.action.execute ctx).Yields own a) :
    Runs all (.between k) (visited k s ctx own a.1.isOk)
      (if a.1.isOk then .between (k + 1) else .stopped k true) := by
  obtain ⟨bound, -⟩ := List.getElem?_eq_some_iff.mp here
  refine .cons (.start bound) (.cons (.announce _) (.cons (.perform here yields) ?_))
  cases a.1.isOk with
  | true => exact .cons .succeed (.cons (.tell _ trivial) .nil)
  | false => exact .cons .fail (.cons (.tell _ trivial) .nil)

/-- The states of stages of which those before one have succeeded, and those behind it have not
started. -/
theorem map_status_eq (succeeded : ∀ t ∈ before, t.status = .succeeded)
    (pending : ∀ t ∈ later, t.status = .pending) (φ : Phase) (length : before.length = φ.position)
    (here : s.status = φ.here) :
    (before ++ s :: later).map (·.status) = φ.states (before ++ s :: later).length := by
  refine List.ext_getElem (by simp [Phase.states]) fun i hi _ => ?_
  rw [List.getElem_map]
  simp only [Phase.states, List.getElem_map, List.getElem_range, Phase.state, ← length, ← here]
  rcases Nat.lt_trichotomy i before.length with hlt | rfl | hgt
  · rw [List.getElem_append_left hlt, if_pos hlt]
    exact succeeded _ (List.getElem_mem hlt)
  · simp
  · rw [if_neg (by omega), if_neg (by omega), List.getElem_append_right (by omega)]
    obtain ⟨j, hj⟩ := Nat.exists_eq_add_of_lt hgt
    simp only [show i - before.length = j + 1 by omega, List.getElem_cons_succ]
    exact pending _ (List.getElem_mem _)

/-- The states of stages that have all succeeded. -/
theorem map_status_of_succeeded (succeeded : ∀ t ∈ before, t.status = .succeeded) :
    before.map (·.status) = (Phase.between before.length).states before.length := by
  refine List.ext_getElem (by simp [Phase.states]) fun i hi _ => ?_
  have bound : i < before.length := by simpa using hi
  simp [Phase.states, Phase.state, Phase.position, bound, succeeded]

/-- **What may happen at a stage**: the run is stopped before it, what it depends on is not met, or it
is executed, and the run goes on from there. -/
inductive Turn (before : List Stage) (ctx : Context) (s : Stage) (later : List Stage) :
    List Note → Ending → Prop
  | cancelled : Turn before ctx s later [] ⟨before ++ s :: later, ctx,
      some (before.length, .cancelled s.name)⟩
  | unmet (dependency : String) : Turn before ctx s later
      [.moved before.length s.status .failed (s.transition .failed).1]
      ⟨before ++ (s.transition .failed).2 :: later, ctx,
        some (before.length, .dependencyNotSatisfied s.name dependency)⟩
  | executed {ended : Stage} {a : Except ReleaseError Unit × Context} {first second : List Note}
      {e : Ending} : (execute before.length s ctx).Yields first (ended, a) →
      (follow before later (ended, a)).Yields second e →
      Turn before ctx s later (first ++ second) e

theorem turn_of_advance (h : (advance before ctx (s :: later)).Yields notes e) :
    Turn before ctx s later notes e := by
  -- The stop signal comes first, then the dependencies, and only then the action.
  obtain ⟨raised, h⟩ := h
  cases raised with
  | true =>
    obtain ⟨rfl, rfl⟩ := h
    exact .cancelled
  | false =>
    simp only [Bool.false_eq_true, if_false, Script.bind] at h
    cases unmet : unmetDependency? before s with
    | some dependency =>
      rw [unmet] at h
      obtain ⟨_, rfl, rfl, rfl⟩ := h
      exact .unmet dependency
    | none =>
      rw [unmet] at h
      obtain ⟨⟨ended, result, ctx'⟩, first, second, executed, followed, rfl⟩ :=
        Script.yields_bind.mp h
      refine .executed executed ?_
      cases result <;> exact followed

/-- **Going through stages goes from phase to phase**, and ends where no stage is being executed. -/
theorem yields_advance (split : all = done ++ later) (length : before.length = done.length)
    (succeeded : ∀ t ∈ before, t.status = .succeeded)
    (pending : ∀ t ∈ later, t.status = .pending)
    (h : (advance before ctx later).Yields notes e) :
    ∃ acts ψ, notes = acts.flatMap Act.notes ∧ Runs all (.between before.length) acts ψ ∧
      ψ.Idle ∧ e.stages.map (·.status) = ψ.states all.length := by
  -- The stages in `before` are those in `done` after their actions; their number is the phase.
  induction later generalizing done before ctx notes with
  | nil =>
    obtain ⟨rfl, rfl⟩ := h
    have total : all.length = before.length := by simp [split, length]
    refine ⟨[], _, rfl, .nil, trivial, ?_⟩
    rw [total]
    exact map_status_of_succeeded succeeded
  | cons s later ih =>
    have fresh : s.status = .pending := pending s List.mem_cons_self
    have unstarted : ∀ t ∈ later, t.status = .pending :=
      fun t ht => pending t (List.mem_cons_of_mem s ht)
    have here : all[before.length]? = some s := by simp [split, length]
    have total (t : Stage) : all.length = (before ++ t :: later).length := by
      simp [split, length]
    cases turn_of_advance h with
    | cancelled =>
      refine ⟨[], _, rfl, .nil, trivial, ?_⟩
      rw [total s]
      exact map_status_eq succeeded unstarted _ rfl fresh
    | unmet dependency =>
      have bound : before.length < all.length := by simp [split, length]
      have failed : s.transition .failed = (true, { s with status := .failed }) := by
        simp [Stage.transition, fresh, StageStatus.canMoveTo]
      rw [failed, fresh]
      refine ⟨_, _, rfl, .cons (.refuse bound) .nil, trivial, ?_⟩
      rw [total { s with status := .failed }]
      exact map_status_eq succeeded unstarted _ rfl rfl
    | @executed ended a _ second _ executed followed =>
      obtain ⟨own, yields, status, rfl⟩ := yields_execute fresh executed
      obtain ⟨result, ctx'⟩ := a
      have visit := runs_visited here yields
      cases result with
      | error _ =>
        obtain ⟨rfl, rfl⟩ := followed
        refine ⟨_, _, List.append_nil _, visit, trivial, ?_⟩
        rw [total ended]
        exact map_status_eq succeeded unstarted _ rfl status
      | ok _ =>
        have more : ∀ t ∈ before ++ [ended], t.status = .succeeded :=
          List.forall_mem_append.mpr ⟨succeeded, List.forall_mem_singleton.mpr status⟩
        have on : all = done ++ [s] ++ later := by simp [split]
        have longer : (before ++ [ended]).length = (done ++ [s]).length := by simp [length]
        obtain ⟨acts, ψ, rfl, runs, idle, states⟩ := ih on longer more unstarted followed
        rw [List.length_append] at runs
        exact ⟨_, ψ, List.flatMap_append.symm, runs_append.mpr ⟨_, visit, runs⟩, idle, states⟩

/-- Telling of stages that are not started. -/
theorem yields_announceSkipped {u : Unit} (h : (announceSkipped later).Yields notes u) :
    ∃ told : List Event, notes = (told.map Act.tell).flatMap Act.notes := by
  induction later generalizing notes with
  | nil => exact ⟨[], h.1⟩
  | cons s later ih =>
    obtain ⟨rest, rfl, h⟩ := h
    obtain ⟨told, rfl⟩ := ih h
    exact ⟨_ :: told, rfl⟩

/-- What is done at the end of a run is telling. -/
theorem yields_conclude {release : Release} {r : RunReport}
    (h : (conclude release e).Yields notes r) :
    r = report release e ∧ ∃ told : List Event, notes = (told.map Act.tell).flatMap Act.notes := by
  obtain ⟨stages, ctx, failure⟩ := e
  cases failure with
  | none =>
    obtain ⟨_, rfl, rfl, rfl⟩ := h
    exact ⟨rfl, [_], rfl⟩
  | some failed =>
    obtain ⟨_, _, _, skipped, ⟨_, rfl, rfl, rfl⟩, rfl⟩ := Script.yields_bind.mp
      (show ((announceSkipped (stages.drop (failed.1 + 1))).bind fun _ => _).Yields notes r from h)
    obtain ⟨told, rfl⟩ := yields_announceSkipped skipped
    let r := report release ⟨stages, ctx, some failed⟩
    refine ⟨rfl, told ++ [.runFinished r.success (r.failedStage.getD "-")], ?_⟩
    rw [List.map_append, List.flatMap_append]
    rfl

/-- Telling leads nowhere. -/
theorem runs_tell (idle : φ.Idle) (told : List Event) : Runs all φ (told.map Act.tell) φ := by
  induction told with
  | nil => exact .nil
  | cons e told ih => exact .cons (.tell e idle) ih

theorem map_status_report (release : Release) (e : Ending) :
    (report release e).stages.map (·.status) = e.stages.map (·.status) :=
  List.ext_getElem (by simp [report]) fun i _ _ => by simp [report, reportStage]

/-- **Every run goes from phase to phase.** -/
theorem yields_run_phases {release : Release} {r : RunReport}
    (pending : ∀ s ∈ all, s.status = .pending) (h : (run release all).Yields notes r) :
    ∃ acts ψ, notes = acts.flatMap Act.notes ∧ Runs all (.between 0) acts ψ ∧ ψ.Idle ∧
      r.stages.map (·.status) = ψ.states all.length := by
  obtain ⟨_, rfl, h⟩ := h
  obtain ⟨e, first, second, way, concluded, rfl⟩ := Script.yields_bind.mp
    (show ((advance [] (.start release.tag) all).bind (conclude release)).Yields _ r from h)
  have split : all = [] ++ all := rfl
  obtain ⟨acts, ψ, rfl, runs, idle, states⟩ := yields_advance split rfl (by simp) pending way
  obtain ⟨rfl, told, rfl⟩ := yields_conclude concluded
  refine ⟨.tell (.runStarted release.tag all.length) :: (acts ++ told.map .tell), ψ, ?_,
    .cons (.tell _ trivial) (runs_append.mpr ⟨ψ, runs, runs_tell idle told⟩), idle, ?_⟩
  · simp [Act.notes]
  · rw [map_status_report, states]

end Ways

/-- **The discipline of a run.** Stages that were made, however they depend on each other, whatever
their actions do and whenever the run is asked to stop: what is done is a list of acts, the notes
that are taken are theirs, and all moves of stages are permitted, one stage at most is running at
any point, and that is the one that is being executed. -/
theorem run_disciplined {stages : List Stage} (made : ∀ s ∈ stages, s.Made) (release : Release)
    {notes : List Note} {r : RunReport} (h : (run release stages).Yields notes r) :
    ∃ acts, notes = acts.flatMap Act.notes ∧ Disciplined stages acts r := by
  have pending : ∀ s ∈ stages, s.status = .pending := fun s hs => (made s hs).pending
  obtain ⟨acts, ψ, told, runs, idle, reported⟩ := yields_run_phases pending h
  exact ⟨acts, told, runs.disciplined idle pending reported⟩

theorem run_disciplined_sample : (∀ s ∈ sampleStages, s.Made) ∧
    ∃ acts, ((run sampleRelease sampleStages).play Rehearsal.outside emptyWorld).notes =
        acts.flatMap Act.notes ∧
      Disciplined sampleStages acts
        ((run sampleRelease sampleStages).play Rehearsal.outside emptyWorld).value := by
  have made : ∀ s ∈ sampleStages, s.Made := by
    intro s hs
    simp only [sampleStages, List.mem_cons, List.not_mem_nil, or_false] at hs
    rcases hs with rfl | rfl | rfl
    · exact .new _ _ _
    · exact .after _ (.new _ _ _)
    · exact .new _ _ _
  exact ⟨made, run_disciplined made sampleRelease (Script.yields_play _ _ _)⟩

end Run
end GatedRelease
