import GatedRelease.Proofs.Plan.Gating
import GatedRelease.Proofs.Publish.Steps
import GatedRelease.Proofs.Run.Shape
import Mathlib.Data.List.Basic

/-! # The log of a run

What those who watch a run are told, and what is reported at its end, tell one story (`Story`).  The
report says how many stages have succeeded from the first one on; for each of them the log tells
that it started and that it ended well, then, if an action has failed, that its stage started and
ended badly, then which stages are skipped, and then what the report says of the whole.  What an
action itself tells stands between the start and the end of its stage, and nowhere else
(`Passes.events_eq`).  The stages of a release tell of nothing but their own work, so that its story
is told without a condition on them (`Plan.script_story`).
-/
namespace GatedRelease

namespace Event

/-- The event belongs to the run, and not to the work of a stage. -/
def isLifecycle : Event → Bool
  | .publishStep .. => false
  | _ => true

/-- The stage that is told to start, with its position. -/
def started? : Event → Option (Nat × String)
  | .stageStarted stage position => some (position, stage)
  | _ => none

/-- The stage that is told to be skipped. -/
def skipped? : Event → Option String
  | .stageSkipped stage _ => some stage
  | _ => none

theorem none_of_lifecycle {e : Event} (h : e.isLifecycle = false) :
    e.started? = none ∧ e.skipped? = none := by
  cases e with
  | publishStep => exact ⟨rfl, rfl⟩
  | _ => exact absurd h nofun

end Event

/-- How many stages have succeeded, from the first one on. -/
def RunReport.lead (r : RunReport) : Nat :=
  (r.stages.takeWhile fun s => s.status == .succeeded).length

/-- Whatever it is answered, the action of the stage tells of nothing but its own work. -/
def Stage.Discreet (s : Stage) : Prop :=
  ∀ ctx notes a, (s.action.execute ctx).Yields notes a →
    ∀ e ∈ events notes, e.isLifecycle = false

namespace Run
variable {σ : Type} {o : Outside σ} {p q : Point σ} {s : Stage} {stages done later : List Stage}

namespace Point

/-- Where stages leave a run that succeed one after the other. -/
def past (o : Outside σ) (p : Point σ) (stages : List Stage) : Point σ :=
  stages.foldl (·.next o ·) p

/-- What the action of a stage tells. -/
def own (o : Outside σ) (p : Point σ) (s : Stage) : List Event := events (p.perform o s).notes

/-- What the action of a stage tells that stands at a position, the stages before it having
succeeded. -/
def heard (o : Outside σ) (p : Point σ) (stages : List Stage) (position : Nat) (s : Stage) :
    List Event :=
  (p.past o (stages.take position)).own o s

end Point

/-- What is told of a stage that is executed: that it starts, what its action tells, and how it
ended. -/
def visit (position : Nat) (name : String) (own : List Event) (success : Bool) : List Event :=
  .stageStarted name position :: (own ++ [.stageFinished name success])

/-- What is told of stages that succeed, the first of them at a position. -/
def visits (position : Nat) (own : Nat → Stage → List Event) (stages : List Stage) : List Event :=
  (stages.mapIdx fun i s => visit (position + i) s.name (own i s) true).flatten

/-- **The log of a run**, by its report: `broken` says whether the stage that the run stopped at was
executed, and `own` what actions tell. -/
def log (release : Release) (stages : List Stage) (r : RunReport) (broken : Bool)
    (own : Nat → Stage → List Event) : List Event :=
  .runStarted release.tag stages.length ::
    (visits 0 own (stages.take r.lead) ++
      (if broken then
        stages[r.lead]?.toList.flatMap fun s => visit r.lead s.name (own r.lead s) false
        else []) ++
      (if r.success then []
        else (stages.drop (r.lead + 1)).map fun s => .stageSkipped s.name skipReason) ++
      [.runFinished r.success (r.failedStage.getD "-")])

theorem Passes.past {taken : List Note} (h : Passes o p done taken q) : q = p.past o done := by
  induction h with
  | nil => rfl
  | cons _ _ _ ih => exact ih

@[simp] theorem events_opening (position : Nat) (ctx : Context) :
    events (opening position s ctx) = [.stageStarted s.name position] := rfl

@[simp] theorem events_closing (position : Nat) (success : Bool) :
    events (closing position s success) = [.stageFinished s.name success] := rfl

@[simp] theorem events_told :
    events (p.told o s) =
      visit p.before.length s.name (p.own o s) (p.perform o s).value.1.isOk := by
  simp [Point.told, visit, Point.own]

/-- **What is told of stages that have passed.** -/
theorem Passes.events_eq {taken : List Note} (h : Passes o p done taken q) :
    events taken = visits p.before.length (p.heard o done) done := by
  induction h with
  | nil => rfl
  | @cons p q s later taken _ passed _ ih =>
    have shift (i : Nat) : (p.next o s).before.length + i = p.before.length + (i + 1) := by
      simp [Point.next]
      omega
    have ok : (p.perform o s).value.1.isOk = true := by
      rw [passed]
      rfl
    rw [events_append, events_told, ih, ok]
    simp only [visits, Point.heard, shift, List.mapIdx_cons, List.flatten_cons]
    rfl

/-! ## What is told at the end -/

@[simp] theorem events_skipNotes (stages : List Stage) :
    events (stages.map skipNote) = stages.map fun s => .stageSkipped s.name skipReason := by
  induction stages with
  | nil => rfl
  | cons s later ih =>
    rw [List.map_cons, List.map_cons, ← ih]
    rfl

/-- **What is told of the stage that a run stops at**: nothing unless it was executed. -/
theorem Stops.events_eq {status : StageStatus} {e : ReleaseError} {last : Played σ Context}
    (h : Stops o q (done.map (·.name)) s status e last) (hb : q.before = done.map (·.ended true))
    (pending : ∀ t ∈ done, t.status = .pending) :
    status ≠ .succeeded ∧ ∃ broken : Bool,
      (broken = true ↔ q.Admits s ∧ ∃ e, (q.perform o s).value.1 = .error e) ∧
      events last.notes =
        if broken then visit done.length s.name (q.own o s) false else [] := by
  have length : q.before.length = done.length := by simp [hb]
  have unmet : unmetDependency? q.before s = s.dependsOn.find? (· ∉ done.map (·.name)) := by
    rw [hb]
    exact unmetDependency?_ended pending s
  cases h with
  | cancelled up =>
    have refused : ¬ q.Admits s := by
      rintro ⟨down, -⟩
      rw [up] at down
      exact absurd down nofun
    exact ⟨nofun, false, ⟨nofun, fun h => absurd h.1 refused⟩, rfl⟩
  | unmet down first =>
    have refused : ¬ q.Admits s := by
      rintro ⟨-, met⟩
      rw [unmet, first] at met
      exact absurd met nofun
    exact ⟨nofun, false, ⟨nofun, fun h => absurd h.1 refused⟩, rfl⟩
  | failed down met failed =>
    have admitted : q.Admits s := ⟨down, by rw [unmet]; simpa using met⟩
    refine ⟨nofun, true, ⟨fun _ => ⟨admitted, e, failed⟩, fun _ => rfl⟩, ?_⟩
    rw [events_told, failed, length]
    rfl

/-- The number of stages that have succeeded can be read off the reports. -/
theorem lead_eq {r : RunReport} {rest : List StageReport}
    (h : r.stages = done.map (Stage.reported .succeeded none) ++ rest)
    (stops : ∀ t ∈ rest.head?, t.status ≠ .succeeded) : r.lead = done.length := by
  unfold RunReport.lead
  rw [h, List.takeWhile_append_of_pos (by simp [Stage.reported])]
  cases rest with
  | nil => simp
  | cons t rest =>
    rw [List.takeWhile_cons_of_neg (by simpa using stops t rfl)]
    simp

/-! ## The log -/

section Log
variable {own : Nat → Stage → List Event} {release : Release} {r : RunReport} {broken : Bool}

theorem visits_cons (position : Nat) (s : Stage) (later : List Stage) :
    visits position own (s :: later) = visit position s.name (own 0 s) true ++
      visits (position + 1) (fun i => own (i + 1)) later := by
  have shift : (fun i (t : Stage) => visit (position + (i + 1)) t.name (own (i + 1) t) true) =
      fun i t => visit (position + 1 + i) t.name (own (i + 1) t) true := by
    funext i t
    rw [Nat.add_assoc, Nat.add_comm 1 i]
  unfold visits
  rw [List.mapIdx_cons, List.flatten_cons, shift]
  rfl

theorem visits_congr {own' : Nat → Stage → List Event} (position : Nat)
    (h : ∀ i < stages.length, ∀ s, own i s = own' i s) :
    visits position own stages = visits position own' stages := by
  unfold visits
  congr 1
  refine List.ext_getElem (by simp) fun i hi _ => ?_
  rw [List.length_mapIdx] at hi
  simp only [List.getElem_mapIdx, h i hi]

/-- What is told at the end of a run that has stopped. -/
theorem events_farewell {e : Ending} {position : Nat} {error : ReleaseError} {name : String}
    (failure : e.failure = some (position, error)) (success : (report release e).success = false)
    (failedStage : (report release e).failedStage = some name) :
    events (farewell release e) =
      ((e.stages.drop (position + 1)).map fun t => .stageSkipped t.name skipReason) ++
        [.runFinished false name] := by
  unfold farewell
  rw [failure, success, failedStage, events_append, events_skipNotes]
  rfl

/-- What comes after the stage at a position. -/
theorem drop_succ {n : Nat} (length : done.length = n) :
    (done ++ s :: later).drop (n + 1) = later := by
  rw [← List.drop_drop, List.drop_left' length]
  rfl

/-- The log of a run in which all stages have succeeded. -/
theorem log_finished (lead : r.lead = stages.length) (success : r.success = true)
    (failedStage : r.failedStage = none) :
    log release stages r false own = .runStarted release.tag stages.length ::
      (visits 0 own stages ++ [.runFinished true "-"]) := by
  simp [log, lead, success, failedStage]

/-- The log of a run that has stopped at a stage. -/
theorem log_stopped (lead : r.lead = done.length) (success : r.success = false)
    (failedStage : r.failedStage = some s.name) :
    log release (done ++ s :: later) r broken own =
      .runStarted release.tag (done ++ s :: later).length :: (visits 0 own done ++
        (if broken then visit done.length s.name (own done.length s) false else []) ++
        (later.map fun t => .stageSkipped t.name skipReason) ++ [.runFinished false s.name]) := by
  simp [log, lead, success, failedStage, drop_succ rfl]

end Log

/-- What is told of stages that have succeeded, as the first of others. -/
theorem visits_heard (p : Point σ) (done rest : List Stage) :
    visits 0 (p.heard o (done ++ rest)) done = visits 0 (p.heard o done) done := by
  refine visits_congr 0 fun i hi s => ?_
  unfold Point.heard
  rw [List.take_append_of_le_length (by omega)]

/-- **What is told in a run**, in full. -/
theorem events_run (release : Release) (w : World σ) (pending : ∀ s ∈ stages, s.status = .pending) :
    let played := (run release stages).play o w
    let start : Point σ := ⟨[], .start release.tag, w⟩
    ∃ broken : Bool,
      (broken = true ↔ ∃ s, stages[played.value.lead]? = some s ∧
        (start.past o (stages.take played.value.lead)).Admits s ∧
        ∃ e, ((start.past o (stages.take played.value.lead)).perform o s).value.1 = .error e) ∧
      (played.value.success = true ↔ played.value.lead = stages.length) ∧
      events played.notes = log release stages played.value broken (start.heard o stages) := by
  obtain ⟨done, rest, taken, q, ending, rfl, passes, halts, he⟩ :=
    advance_split (o := o) (⟨[], .start release.tag, w⟩ : Point σ) stages
  have hb : q.before = done.map (·.ended true) := by simpa using passes.before
  have hd : ∀ s ∈ done, s.status = .pending := fun s hs => pending s (List.mem_append_left _ hs)
  have told := passes.events_eq
  have reached := passes.past
  rw [play_run]
  simp only [he]
  cases rest with
  | nil =>
    cases halts
    have reports := report_ended hd none (by simp)
    have shown : (report release ⟨q.before, q.context, none⟩).stages =
        done.map (Stage.reported .succeeded none) ++ [] := by
      simp [report, hb, reports]
    have lead : (report release ⟨q.before, q.context, none⟩).lead = done.length :=
      lead_eq shown (by simp)
    have success : (report release ⟨q.before, q.context, none⟩).success = true := rfl
    simp only [List.append_nil] at *
    refine ⟨false, by simp [lead], by simp [lead, success], ?_⟩
    rw [log_finished lead success rfl, events_event, events_append, told]
    rfl
  | cons s later =>
    have hl : ∀ t ∈ later, t.status = .pending := fun t ht => pending t (by simp [ht])
    obtain ⟨left, status, error, said, stops, reported, named, rfl⟩ :=
      halts.stops hb hd (pending s (by simp))
    obtain ⟨unsuccessful, broken, hbroken, last⟩ := stops.events_eq hb hd
    have state : left.status = status := congrArg StageReport.status (reported none)
    have reports := report_stopped release (s := left) said.value error
      (List.forall_mem_append.mpr ⟨hd, hl⟩)
    generalize hr : report release ⟨done.map (·.ended true) ++ left :: later, said.value,
      some (done.length, error)⟩ = r at reports
    have lead : r.lead = done.length := by
      refine lead_eq (congrArg RunReport.stages reports) ?_
      rintro _ ⟨⟩
      exact state ▸ unsuccessful
    have success : r.success = false := congrArg RunReport.success reports
    have failedStage : r.failedStage = some s.name := by
      rw [reports, ← named]
    have first : (done ++ s :: later).take done.length = done := List.take_left' rfl
    have skipped : (done.map (·.ended true) ++ left :: later).drop (done.length + 1) = later :=
      drop_succ (by simp)
    have heard : (⟨[], .start release.tag, w⟩ : Point σ).heard o (done ++ s :: later)
        done.length s = q.own o s := by
      unfold Point.heard
      rw [first, ← reached]
    rw [hb]
    have goodbye := events_farewell rfl (hr ▸ success) (hr ▸ failedStage)
    rw [hr]
    refine ⟨broken, ?_, by simp [lead, success], ?_⟩
    · rw [lead, first, ← reached, hbroken]
      simp
    · rw [log_stopped lead success failedStage, visits_heard, heard, ← last, events_event,
        events_append, events_append, told, goodbye, skipped]
      simp only [List.append_assoc]
      rfl

/-! ## What starts ends -/

/-- What starts ends, and in between there is only the work of an action. -/
def Closed (told : List Event) : Prop :=
  ∀ before name position after, told = before ++ .stageStarted name position :: after →
    ∃ own success rest, after = own ++ .stageFinished name success :: rest ∧
      ∀ e ∈ own, e.isLifecycle = false

namespace Closed
variable {told more : List Event}

/-- Nothing starts here. -/
theorem of_started? (h : ∀ e ∈ told, e.started? = none) : Closed told := by
  rintro before name position after rfl
  exact absurd (h (.stageStarted name position) (by simp)) nofun

theorem append (h : Closed told) (h' : Closed more) : Closed (told ++ more) := by
  intro before name position after ht
  rcases append_eq_append_cons ht with ⟨rest, here, rfl⟩ | ⟨rest, rfl, there⟩
  · obtain ⟨own, success, later, rfl, quiet⟩ := h before name position rest here
    exact ⟨own, success, later ++ more, by simp, quiet⟩
  · exact h' rest name position after there

theorem visit (position : Nat) (name : String) (success : Bool)
    (quiet : ∀ e ∈ told, e.isLifecycle = false) : Closed (visit position name told success) := by
  intro before other place after ht
  cases before with
  | nil =>
    obtain ⟨heads, rfl⟩ := List.cons.inj ht
    obtain ⟨rfl, -⟩ := Event.stageStarted.inj heads
    exact ⟨told, success, [], rfl, quiet⟩
  | cons first before =>
    -- After the first event of a visit there is the work of the action, and then the end.
    obtain ⟨-, ht⟩ := List.cons.inj ht
    have again : Event.stageStarted other place ∈ told ++ [.stageFinished name success] := by
      rw [ht]
      simp
    rcases List.mem_append.mp again with inside | last
    · exact absurd (quiet _ inside) nofun
    · exact absurd (List.mem_singleton.mp last) nofun

theorem visits {own : Nat → Stage → List Event} (position : Nat)
    (quiet : ∀ s ∈ stages, ∀ i, ∀ e ∈ own i s, e.isLifecycle = false) :
    Closed (visits position own stages) := by
  induction stages generalizing position own with
  | nil => exact of_started? (by simp [Run.visits])
  | cons s later ih =>
    obtain ⟨here, rest⟩ := List.forall_mem_cons.mp quiet
    rw [visits_cons]
    exact (visit position s.name true (here 0)).append
      (ih (position + 1) fun t ht i => rest t ht (i + 1))

/-- **In the log of a run what starts ends.** -/
theorem log {own : Nat → Stage → List Event} (release : Release) (r : RunReport) (broken : Bool)
    (quiet : ∀ s ∈ stages, ∀ i, ∀ e ∈ own i s, e.isLifecycle = false) :
    Closed (log release stages r broken own) := by
  have passed : Closed (Run.visits 0 own (stages.take r.lead)) :=
    visits 0 fun s hs => quiet s (List.mem_of_mem_take hs)
  have last : Closed (if broken then stages[r.lead]?.toList.flatMap fun s =>
      Run.visit r.lead s.name (own r.lead s) false else []) := by
    split
    · cases hs : stages[r.lead]? with
      | none => exact of_started? (by simp)
      | some s =>
        have here := visit r.lead s.name false (quiet s (List.mem_of_getElem? hs) r.lead)
        simpa using here
    · exact of_started? (by simp)
  have skipped : Closed (if r.success then []
      else (stages.drop (r.lead + 1)).map fun s => .stageSkipped s.name skipReason) := by
    refine of_started? fun e he => ?_
    split at he
    · exact absurd he List.not_mem_nil
    · obtain ⟨s, -, rfl⟩ := List.mem_map.mp he
      rfl
  have first : Closed [.runStarted release.tag stages.length] :=
    of_started? (by simp [Event.started?])
  have final : Closed [.runFinished r.success (r.failedStage.getD "-")] :=
    of_started? (by simp [Event.started?])
  exact first.append (((passed.append last).append skipped).append final)

end Closed

/-! ## The log without what actions tell -/

section Discreet
variable {own : Nat → Stage → List Event} {release : Release} {r : RunReport} {broken : Bool}

/-- What an action of the stage tells belongs to its own work. -/
theorem isLifecycle_heard {p : Point σ} {others : List Stage} (discreet : s.Discreet)
    (position : Nat) {e : Event} (he : e ∈ p.heard o others position s) : e.isLifecycle = false :=
  discreet _ _ _ (Script.yields_play o _ _) e he

theorem lifecycle_visit (position : Nat) (name : String) {told : List Event} (success : Bool)
    (quiet : ∀ e ∈ told, e.isLifecycle = false) :
    (visit position name told success).filter Event.isLifecycle =
      visit position name [] success := by
  have none : told.filter Event.isLifecycle = [] :=
    List.filter_eq_nil_iff.mpr fun e he => by simp [quiet e he]
  simp [visit, none, List.filter_cons, Event.isLifecycle]

theorem lifecycle_visits (position : Nat)
    (quiet : ∀ s ∈ stages, ∀ i, ∀ e ∈ own i s, e.isLifecycle = false) :
    (visits position own stages).filter Event.isLifecycle =
      visits position (fun _ _ => []) stages := by
  induction stages generalizing position own with
  | nil => rfl
  | cons s later ih =>
    obtain ⟨here, rest⟩ := List.forall_mem_cons.mp quiet
    rw [visits_cons, visits_cons, List.filter_append, lifecycle_visit position s.name true (here 0),
      ih (position + 1) fun t ht i => rest t ht (i + 1)]

/-- **The log without what actions tell.** -/
theorem lifecycle_log (quiet : ∀ s ∈ stages, ∀ i, ∀ e ∈ own i s, e.isLifecycle = false) :
    (log release stages r broken own).filter Event.isLifecycle =
      log release stages r broken fun _ _ => [] := by
  have passed : (visits 0 own (stages.take r.lead)).filter Event.isLifecycle =
      visits 0 (fun _ _ => []) (stages.take r.lead) :=
    lifecycle_visits 0 fun s hs => quiet s (List.mem_of_mem_take hs)
  have last : (stages[r.lead]?.toList.flatMap fun s =>
        visit r.lead s.name (own r.lead s) false).filter Event.isLifecycle =
      stages[r.lead]?.toList.flatMap fun s => visit r.lead s.name [] false := by
    cases hs : stages[r.lead]? with
    | none => rfl
    | some s =>
      simp [lifecycle_visit r.lead s.name false (quiet s (List.mem_of_getElem? hs) r.lead)]
  have skipped (rest : List Stage) :
      (rest.map fun s => Event.stageSkipped s.name skipReason).filter Event.isLifecycle =
        rest.map fun s => .stageSkipped s.name skipReason := by
    simp [List.filter_eq_self, Event.isLifecycle]
  unfold log
  simp only [List.filter_cons, List.filter_append, apply_ite (List.filter Event.isLifecycle),
    List.filter_nil, passed, last, skipped]
  rfl

/-- What is known from the lifecycle is known from what is told without the work of actions. -/
theorem filterMap_lifecycle {α : Type} {f : Event → Option α} (told : List Event)
    (blind : ∀ e, e.isLifecycle = false → f e = none) :
    (told.filter Event.isLifecycle).filterMap f = told.filterMap f := by
  rw [List.filterMap_filter]
  congr 1
  funext e
  split
  · rfl
  · exact (blind e (by simpa using ‹¬ e.isLifecycle = true›)).symm

theorem started_visits (position : Nat) (stages : List Stage) :
    (visits position (fun _ _ => []) stages).filterMap Event.started? =
      stages.mapIdx fun i s => (position + i, s.name) := by
  induction stages generalizing position with
  | nil => rfl
  | cons s later ih =>
    have shift (i : Nat) : position + 1 + i = position + (i + 1) := by omega
    rw [visits_cons, List.filterMap_append, ih, List.mapIdx_cons]
    simp only [shift]
    rfl

theorem skipped_visits (position : Nat) (stages : List Stage) :
    (visits position (fun _ _ => []) stages).filterMap Event.skipped? = [] := by
  induction stages generalizing position with
  | nil => rfl
  | cons s later ih =>
    rw [visits_cons, List.filterMap_append, ih]
    rfl

/-- The stages that are told to start. -/
theorem started_log : (log release stages r broken fun _ _ => []).filterMap Event.started? =
    (stages.take (r.lead + broken.toNat)).mapIdx fun position s => (position, s.name) := by
  have skipped (rest : List Stage) :
      (rest.map fun s => Event.stageSkipped s.name skipReason).filterMap Event.started? = [] := by
    simp [List.filterMap_map, Event.started?]
  have told : (log release stages r broken fun _ _ => []).filterMap Event.started? =
      ((stages.take r.lead).mapIdx fun i s => (i, s.name)) ++
        (if broken then stages[r.lead]?.toList.map fun s => (r.lead, s.name) else []) := by
    unfold log
    simp only [List.filterMap_cons, List.filterMap_append, started_visits, skipped,
      apply_ite (List.filterMap Event.started?), List.filterMap_nil, Nat.zero_add, Event.started?]
    cases stages[r.lead]? <;> simp [visit, Event.started?, List.filterMap_cons]
  rw [told]
  cases broken with
  | false => simp
  | true =>
    cases hs : stages[r.lead]? with
    | none =>
      have short : stages.length ≤ r.lead := List.getElem?_eq_none_iff.mp hs
      simp [List.take_of_length_le short, List.take_of_length_le (Nat.le_succ_of_le short)]
    | some s =>
      have long : r.lead < stages.length := (List.getElem?_eq_some_iff.mp hs).1
      simp [List.take_add_one, hs, List.mapIdx_append, Nat.min_eq_left (Nat.le_of_lt long)]

/-- The stages that are told to be skipped. -/
theorem skipped_log : (log release stages r broken fun _ _ => []).filterMap Event.skipped? =
    if r.success then [] else (stages.drop (r.lead + 1)).map (·.name) := by
  have skipped (rest : List Stage) :
      (rest.map fun s => Event.stageSkipped s.name skipReason).filterMap Event.skipped? =
        rest.map (·.name) := by
    simp [List.filterMap_map, Event.skipped?, Function.comp_def]
  unfold log
  simp only [List.filterMap_cons, List.filterMap_append, skipped_visits, skipped,
    apply_ite (List.filterMap Event.skipped?), List.filterMap_nil, Event.skipped?]
  cases stages[r.lead]? <;> simp [visit, Event.skipped?]

end Discreet

/-! ## The log and the report -/

/-- **The log and the report of a run tell one story.** -/
structure Story (o : Outside σ) (release : Release) (w : World σ) (stages : List Stage)
    (played : Played σ RunReport) (broken : Bool) : Prop where
  /-- The stage after those that have succeeded was executed, and its action has failed. -/
  broken_iff : broken = true ↔ ∃ s, stages[played.value.lead]? = some s ∧
    ((⟨[], .start release.tag, w⟩ : Point σ).past o (stages.take played.value.lead)).Admits s ∧
    ∃ e, (((⟨[], .start release.tag, w⟩ : Point σ).past o
      (stages.take played.value.lead)).perform o s).value.1 = .error e
  success_iff : played.value.success = true ↔ played.value.lead = stages.length
  /-- All that is told, in order, what actions tell included. -/
  told : events played.notes = log release stages played.value broken
    ((⟨[], .start release.tag, w⟩ : Point σ).heard o stages)
  lifecycle : (∀ s ∈ stages, s.Discreet) → (events played.notes).filter Event.isLifecycle =
    log release stages played.value broken fun _ _ => []
  closed : (∀ s ∈ stages, s.Discreet) → Closed (events played.notes)
  started : (∀ s ∈ stages, s.Discreet) → (events played.notes).filterMap Event.started? =
    (stages.take (played.value.lead + broken.toNat)).mapIdx fun position s => (position, s.name)
  skipped : (∀ s ∈ stages, s.Discreet) → (events played.notes).filterMap Event.skipped? =
    (stages.drop (played.value.lead + 1)).map (·.name)
  /-- Names that tell stages apart show that none is both started and skipped. -/
  apart : (∀ s ∈ stages, s.Discreet) → (stages.map (·.name)).Nodup →
    ∀ x ∈ (events played.notes).filterMap Event.started?,
      x.2 ∉ (events played.notes).filterMap Event.skipped?

/-- All of the story is known from what is told, in full, and from how far the stages came. -/
theorem Story.of_told {played : Played σ RunReport} {w : World σ}
    (broken_iff : broken = true ↔ ∃ s, stages[played.value.lead]? = some s ∧
      ((⟨[], .start release.tag, w⟩ : Point σ).past o (stages.take played.value.lead)).Admits s ∧
      ∃ e, (((⟨[], .start release.tag, w⟩ : Point σ).past o
        (stages.take played.value.lead)).perform o s).value.1 = .error e)
    (success_iff : played.value.success = true ↔ played.value.lead = stages.length)
    (told : events played.notes = log release stages played.value broken
      ((⟨[], .start release.tag, w⟩ : Point σ).heard o stages)) :
    Story o release w stages played broken := by
  have quiet (discreet : ∀ s ∈ stages, s.Discreet) : ∀ s ∈ stages, ∀ i,
      ∀ e ∈ (⟨[], .start release.tag, w⟩ : Point σ).heard o stages i s, e.isLifecycle = false :=
    fun s hs i e he => isLifecycle_heard (discreet s hs) i he
  have lifecycle (discreet : ∀ s ∈ stages, s.Discreet) :
      (events played.notes).filter Event.isLifecycle =
        log release stages played.value broken fun _ _ => [] := by
    rw [told]
    exact lifecycle_log (quiet discreet)
  have started (discreet : ∀ s ∈ stages, s.Discreet) :
      (events played.notes).filterMap Event.started? =
        (stages.take (played.value.lead + broken.toNat)).mapIdx fun i s => (i, s.name) := by
    rw [← filterMap_lifecycle _ fun e h => (Event.none_of_lifecycle h).1, lifecycle discreet,
      started_log]
  have skipped (discreet : ∀ s ∈ stages, s.Discreet) :
      (events played.notes).filterMap Event.skipped? =
        (stages.drop (played.value.lead + 1)).map (·.name) := by
    rw [← filterMap_lifecycle _ fun e h => (Event.none_of_lifecycle h).2, lifecycle discreet,
      skipped_log]
    split
    · have all := success_iff.mp ‹_›
      rw [List.drop_of_length_le (by omega)]
      rfl
    · rfl
  refine ⟨broken_iff, success_iff, told, lifecycle, fun discreet => ?_, started, skipped, ?_⟩
  · rw [told]
    exact .log release _ broken (quiet discreet)
  · intro discreet nodup x hx
    rw [started discreet] at hx
    rw [skipped discreet]
    obtain ⟨i, hi, rfl⟩ := List.mem_mapIdx.mp hx
    have first : ((stages.take (played.value.lead + broken.toNat))[i]).name ∈
        (stages.map (·.name)).take (played.value.lead + broken.toNat) := by
      rw [← List.map_take]
      exact List.mem_map_of_mem (List.getElem_mem hi)
    have one : broken.toNat ≤ 1 := Bool.toNat_le broken
    rw [List.map_drop]
    exact List.disjoint_take_drop nodup (by omega) first

/-- **The log of every run and its report tell one story.** -/
theorem run_story (o : Outside σ) (release : Release) (w : World σ) {stages : List Stage}
    (pending : ∀ s ∈ stages, s.status = .pending) :
    ∃ broken, Story o release w stages ((run release stages).play o w) broken := by
  obtain ⟨broken, broken_iff, success_iff, told⟩ := events_run (o := o) release w pending
  exact ⟨broken, .of_told broken_iff success_iff told⟩

section Sample

theorem discreet_sample : ∀ s ∈ sampleStages, s.Discreet := by
  intro s hs ctx notes a h
  simp only [sampleStages, List.mem_cons, List.not_mem_nil, or_false] at hs
  rcases hs with rfl | rfl | rfl <;> obtain ⟨rfl, -⟩ := h <;> exact List.forall_mem_nil _

theorem run_story_sample : (∀ s ∈ sampleStages, s.status = .pending) ∧
    events ((run sampleRelease sampleStages).play Rehearsal.outside emptyWorld).notes =
      [.runStarted "v1" 3, .stageStarted "gate" 0, .stageFinished "gate" true,
        .stageStarted "gate" 1, .stageFinished "gate" false, .stageSkipped "publish" skipReason,
        .runFinished false "gate"] ∧
    (∀ s ∈ sampleStages, s.Discreet) ∧
    ∃ broken, Story Rehearsal.outside sampleRelease emptyWorld sampleStages
      ((run sampleRelease sampleStages).play Rehearsal.outside emptyWorld) broken := by
  have pending : ∀ s ∈ sampleStages, s.status = .pending := by simp [sampleStages, Stage.new,
    Stage.after]
  exact ⟨pending, rfl, discreet_sample,
    run_story Rehearsal.outside sampleRelease emptyWorld pending⟩

end Sample
end Run

/-! ## The stages of a release -/

theorem events_of_request {notes : List Note} (h : ∀ n ∈ notes, n.request ≠ .remark) :
    events notes = [] := by
  refine List.filterMap_eq_nil_iff.mpr fun n hn => ?_
  have asked := h n hn
  cases n with
  | event e => exact absurd rfl asked
  | _ => rfl

/-- What publishing tells are its steps. -/
theorem Publisher.Course.isLifecycle {p : Publisher} {tag : String} {c : Credential} {mode : Mode}
    {calls : Git.History} {told : List Event} {r : Except PublishFailure Published}
    (h : Course p tag c mode calls told r) : ∀ e ∈ told, e.isLifecycle = false := by
  have announced (sha : String) (resumed : Bool) :
      ∀ e ∈ announced tag sha resumed, e.isLifecycle = false := by
    cases resumed <;> simp [Publisher.announced, Event.isLifecycle]
  cases h with
  | halted _ | commitRefused _ _ | commitUnnamed _ _ _ => simp
  | tagRefused => simp [Event.isLifecycle]
  | pushRefused => exact announced _ _
  | published =>
    exact List.forall_mem_append.mpr ⟨announced _ _, by simp [Event.isLifecycle]⟩

namespace Plan
variable {σ : Type}

/-- **The stages of a release tell of nothing but their own work.** -/
theorem discreet_stages (c : Config) (provider : CredentialProvider) :
    ∀ s ∈ stages c provider, s.Discreet := by
  intro s hs ctx notes a h
  obtain ⟨t, ht, he, -⟩ := Stage.exists_of_mem_linearAfter hs
  rw [he] at h
  simp only [List.mem_append, List.mem_cons, List.mem_map, List.not_mem_nil, or_false] at ht
  rcases ht with ((rfl | rfl) | ⟨suite, -, rfl⟩) | rfl
  · rcases Build.action_cases h with ⟨rfl, -⟩ | ⟨reply, rfl, -⟩ <;> exact nofun
  · have asks : ((Staging.action c.repository).execute ctx).Uses (· ≠ .remark) := by
      refine Staging.uses_action ?_ ?_ ?_ ?_ ?_ <;> exact nofun
    have unsaid : events notes = [] := events_of_request (asks.note h)
    rw [unsaid]
    exact nofun
  · obtain ⟨reply, rfl, -⟩ := Gate.action_cases h
    exact nofun
  · obtain ⟨r, attempted, -⟩ := Publisher.attempted_of_action h
    rcases Publisher.attempt_cases attempted with ⟨rfl, -⟩ | ⟨credential, course⟩
    · exact nofun
    · exact course.isLifecycle

/-- **The log of a release and its report tell one story**: its stages tell of nothing but their own
work, so that the lifecycle is all else, every stage that is told to start is told to end, and if
the names tell the stages apart, none is both started and skipped. -/
theorem script_story (o : Outside σ) (c : Config) (provider : CredentialProvider)
    (release : Release) (w : World σ) :
    let played := (script c provider release).play o w
    ∃ broken, Run.Story o release w (stages c provider) played broken ∧
      (events played.notes).filter Event.isLifecycle =
        Run.log release (stages c provider) played.value broken (fun _ _ => []) ∧
      Run.Closed (events played.notes) ∧
      ((stageNames (stages c provider)).Nodup →
        ∀ x ∈ (events played.notes).filterMap Event.started?,
          x.2 ∉ (events played.notes).filterMap Event.skipped?) := by
  have pending : ∀ s ∈ stages c provider, s.status = .pending := stages_pending
  obtain ⟨broken, broken_iff, success_iff, told⟩ := Run.events_run (o := o) release w pending
  have story : Run.Story o release w (stages c provider) ((script c provider release).play o w)
      broken := .of_told broken_iff success_iff told
  have discreet := discreet_stages c provider
  exact ⟨broken, story, story.lifecycle discreet, story.closed discreet, story.apart discreet⟩

end Plan
end GatedRelease
