import GatedRelease.Proofs.Run.Advance
import GatedRelease.Rehearsal

/-! # The shape of a run

A run of stages is known from its outcome: the stages up to some position were executed, each once
and in order, and have succeeded; and then the run was over, or it stopped at the next stage for one
of three reasons (`Stops`), and nothing after that stage was executed.  `run_shape` gives all of
such a run: the report, what the world is like afterwards, and the notes, which leave no room for an
execution that is not told of.  Names may repeat, dependencies may be anything, and an action may do
what it likes, give the stop signal included.
-/
namespace GatedRelease

namespace Stage

@[simp] theorem transition_name (s : Stage) (next : StageStatus) :
    (s.transition next).2.name = s.name := by
  unfold transition
  split <;> rfl

@[simp] theorem ended_name (s : Stage) (success : Bool) : (s.ended success).name = s.name := by
  simp [ended, running]

@[simp] theorem ended_kind (s : Stage) (success : Bool) : (s.ended success).kind = s.kind := by
  unfold ended running transition
  split <;> split <;> rfl

/-- What a report says about a stage that has come to a state. -/
def reported (status : StageStatus) (error : Option ReleaseError) (s : Stage) : StageReport :=
  ⟨s.name, s.kind, status, error⟩

end Stage

namespace Run
variable {σ : Type} {o : Outside σ}

/-- **Why a run stops at a stage**, all stages of these names having succeeded: the state in which
the stage is left, the error, and what comes of it.  Only in the last case was it executed. -/
inductive Stops (o : Outside σ) (p : Point σ) (names : List String) (s : Stage) :
    StageStatus → ReleaseError → Played σ Context → Prop
  | cancelled : p.world.cancelled = true →
      Stops o p names s .pending (.cancelled s.name) ⟨p.context, p.world, []⟩
  /-- The first dependency that no earlier stage has met. -/
  | unmet {dependency : String} : p.world.cancelled = false →
      s.dependsOn.find? (· ∉ names) = some dependency →
      Stops o p names s .failed (.dependencyNotSatisfied s.name dependency)
        ⟨p.context, p.world, [.moved names.length .pending .failed true]⟩
  | failed {e : ReleaseError} : p.world.cancelled = false → (∀ d ∈ s.dependsOn, d ∈ names) →
      (p.perform o s).value.1 = .error e →
      Stops o p names s .failed e
        ⟨(p.perform o s).value.2, (p.perform o s).world, p.told o s⟩

/-- There is one reason at most, and all that follows from it is determined. -/
theorem Stops.unique {p : Point σ} {names : List String} {s : Stage} {status status' : StageStatus}
    {e e' : ReleaseError} {last last' : Played σ Context} (h : Stops o p names s status e last)
    (h' : Stops o p names s status' e' last') : status = status' ∧ e = e' ∧ last = last' := by
  -- The guards exclude each other: the signal is up or down, and a dependency is unmet or none is.
  have met_iff : s.dependsOn.find? (· ∉ names) = none ↔ ∀ d ∈ s.dependsOn, d ∈ names := by simp
  cases h with
  | cancelled up => cases h' <;> simp_all
  | unmet down first =>
    cases h' with
    | cancelled up => simp_all
    | unmet _ first' => simp_all
    | failed _ met _ =>
      rw [met_iff.mpr met] at first
      exact absurd first nofun
  | failed down met failed =>
    cases h' with
    | cancelled up => simp_all
    | unmet _ first =>
      rw [met_iff.mpr met] at first
      exact absurd first nofun
    | failed _ _ failed' => simp_all

/-! ## What has become of the stages -/

theorem Passes.before {p q : Point σ} {done : List Stage} {taken : List Note}
    (h : Passes o p done taken q) : q.before = p.before ++ done.map (·.ended true) := by
  induction h with
  | nil => simp
  | cons _ _ _ ih => rw [ih]; simp [Point.next]

/-- Once stages have succeeded, what is unmet is what is none of their names. -/
theorem unmetDependency?_ended {done : List Stage} (pending : ∀ s ∈ done, s.status = .pending)
    (s : Stage) :
    unmetDependency? (done.map (·.ended true)) s =
      s.dependsOn.find? (· ∉ done.map (·.name)) := by
  unfold unmetDependency?
  congr 1
  funext d
  rw [Bool.eq_iff_iff]
  simp only [Bool.not_eq_true', List.any_eq_false, List.mem_map, decide_eq_true_eq]
  constructor
  · rintro h ⟨b, hb, rfl⟩
    refine h (b.ended true) ⟨b, hb, rfl⟩ ?_
    simp [ended_status (pending b hb), Stage.outcome]
  · rintro h _ ⟨b, hb, rfl⟩ hd
    simp only [Stage.ended_name, Bool.and_eq_true, beq_iff_eq] at hd
    exact h ⟨b, hb, hd.1⟩

theorem mapIdx_eq_map {α β : Type} {f : Nat → α → β} {g : α → β} {xs : List α}
    (h : ∀ i (hi : i < xs.length), f i xs[i] = g xs[i]) : xs.mapIdx f = xs.map g :=
  List.ext_getElem (by simp) fun i _ hi => by simpa using h i (by simpa using hi)

/-- The reports on stages that have succeeded. -/
theorem report_ended {done : List Stage} (pending : ∀ s ∈ done, s.status = .pending)
    (failure : Option (Nat × ReleaseError)) (later : ∀ x ∈ failure, done.length ≤ x.1) :
    (done.map (·.ended true)).mapIdx (reportStage failure) =
      done.map (Stage.reported .succeeded none) := by
  rw [mapIdx_eq_map (g := Stage.reported .succeeded none)]
  · simp [Stage.reported]
  · intro i hi
    rw [List.length_map] at hi
    have hs := ended_status (pending _ (List.getElem_mem hi)) true
    have he : (reportStage failure i (done[i].ended true)).error = none := by
      cases failure with
      | none => rfl
      | some x =>
        have := later x rfl
        simp only [reportStage, Option.bind_some]
        rw [if_neg (by omega)]
    simp only [List.getElem_map]
    simp only [reportStage, Stage.reported] at he ⊢
    rw [he, hs]
    rfl

/-- The reports on stages that were not reached. -/
theorem report_unreached {later : List Stage} (pending : ∀ s ∈ later, s.status = .pending)
    (n : Nat) (e : ReleaseError) :
    (later.mapIdx fun i => reportStage (some (n, e)) (i + (n + 1))) =
      later.map (Stage.reported .pending none) := by
  refine mapIdx_eq_map fun i hi => ?_
  have hn : n ≠ i + (n + 1) := by omega
  simp [reportStage, Stage.reported, hn, pending _ (List.getElem_mem hi)]

/-- **The report of a run that stops**, by what has become of the stages. -/
theorem report_stopped (release : Release) {done later : List Stage} {s : Stage} (ctx : Context)
    (e : ReleaseError) (pending : ∀ t ∈ done ++ later, t.status = .pending) :
    report release ⟨done.map (·.ended true) ++ s :: later, ctx, some (done.length, e)⟩ =
      ⟨.failed, release, done.map (Stage.reported .succeeded none) ++
        s.reported s.status (some e) :: later.map (Stage.reported .pending none),
        some s.name, ctx.published, some e⟩ := by
  have hd := report_ended (fun t ht => pending t (List.mem_append_left _ ht))
    (some (done.length, e)) (by simp)
  have hl := report_unreached (fun t ht => pending t (List.mem_append_right _ ht)) done.length e
  have hs : (done.map (·.ended true) ++ s :: later)[done.length]? = some s := by
    rw [List.getElem?_append_right (by simp)]
    simp
  have shift : ∀ i, i + 1 + done.length = i + (done.length + 1) := fun i => by omega
  unfold report failedStage?
  simp only [List.mapIdx_append, hd, List.mapIdx_cons, List.length_map, shift, hl,
    Option.bind_some, hs]
  simp [reportStage, Stage.reported]

/-- A run that ends at a stage stops there for one of the reasons, and the stage is as the reason
leaves it. -/
theorem Halts.stops {q : Point σ} {done later : List Stage} {s : Stage} {e : Played σ Ending}
    (h : Halts o q (s :: later) e) (hb : q.before = done.map (·.ended true))
    (pending : ∀ t ∈ done, t.status = .pending) (fresh : s.status = .pending) :
    ∃ left status error last, Stops o q (done.map (·.name)) s status error last ∧
      (∀ x, left.reported left.status x = s.reported status x) ∧ left.name = s.name ∧
      e = ⟨⟨q.before ++ left :: later, last.value, some (done.length, error)⟩, last.world,
        last.notes⟩ := by
  have hn : q.before.length = done.length := by simp [hb]
  have unmet : unmetDependency? q.before s = s.dependsOn.find? (· ∉ done.map (·.name)) := by
    rw [hb]
    exact unmetDependency?_ended pending s
  cases h with
  | cancelled up =>
    refine ⟨s, .pending, _, _, .cancelled up, fun x => ?_, rfl, by rw [hn]⟩
    rw [fresh]
  | unmet down hd =>
    rw [unmet] at hd
    have hm : s.transition .failed = (true, { s with status := .failed }) := by
      simp [Stage.transition, fresh, StageStatus.canMoveTo]
    refine ⟨{ s with status := .failed }, .failed, _, _, .unmet down hd, fun x => rfl, rfl, ?_⟩
    simp [hm, fresh, hn]
  | failed admitted hf =>
    obtain ⟨down, hd⟩ := admitted
    rw [unmet, List.find?_eq_none] at hd
    refine ⟨s.ended false, .failed, _, _, .failed down (fun d hm => by simpa using hd d hm) hf,
      fun x => ?_, Stage.ended_name s false, by rw [hn]⟩
    rw [ended_status fresh]
    simp [Stage.reported, Stage.outcome]

/-- **What a run comes to**, in full: the report, the world afterwards, and the notes. -/
inductive Shape (o : Outside σ) (release : Release) (w : World σ) :
    List Stage → Played σ RunReport → Prop
  /-- All stages have succeeded. -/
  | finished {stages : List Stage} {taken : List Note} {q : Point σ} :
      Passes o ⟨[], .start release.tag, w⟩ stages taken q →
      Shape o release w stages
        ⟨⟨.succeeded, release, stages.map (Stage.reported .succeeded none), none,
          q.context.published, none⟩, q.world,
          .event (.runStarted release.tag stages.length) ::
            (taken ++ [.event (.runFinished true "-")])⟩
  /-- The stages before one have succeeded, and at that one the run has stopped, for exactly one
  reason. -/
  | stopped {done later : List Stage} {s : Stage} {taken : List Note} {q : Point σ}
      {status : StageStatus} {e : ReleaseError} {last : Played σ Context} :
      Passes o ⟨[], .start release.tag, w⟩ done taken q →
      Stops o q (done.map (·.name)) s status e last →
      (∀ status' e' last', Stops o q (done.map (·.name)) s status' e' last' →
        status' = status ∧ e' = e ∧ last' = last) →
      Shape o release w (done ++ s :: later)
        ⟨⟨.failed, release, done.map (Stage.reported .succeeded none) ++
          s.reported status (some e) :: later.map (Stage.reported .pending none),
          some s.name, last.value.published, some e⟩, last.world,
          .event (.runStarted release.tag (done ++ s :: later).length) ::
            (taken ++ last.notes ++ later.map skipNote ++ [.event (.runFinished false s.name)])⟩

/-- **The shape of every run.** Stages that have not started, whatever their names, dependencies and
actions, are run up to some position: those before it are executed once each and in order, each with
the context and in the world that the one before it has left, and succeed.  Then the run is over, or
it stops at the next stage, and nothing after that is executed. -/
theorem run_shape (o : Outside σ) (release : Release) (w : World σ) {stages : List Stage}
    (pending : ∀ s ∈ stages, s.status = .pending) :
    Shape o release w stages ((run release stages).play o w) := by
  obtain ⟨done, rest, taken, q, ending, rfl, passes, halts, he⟩ :=
    advance_split (o := o) (⟨[], .start release.tag, w⟩ : Point σ) stages
  have hb : q.before = done.map (·.ended true) := by simpa using passes.before
  have hd : ∀ s ∈ done, s.status = .pending := fun s hs => pending s (List.mem_append_left _ hs)
  rw [play_run]
  simp only [he]
  cases rest with
  | nil =>
    cases halts
    have reports := report_ended hd none nofun
    have shape := Shape.finished (o := o) (w := w) passes
    simpa [report, failedStage?, farewell, hb, reports, RunReport.success] using shape
  | cons s later =>
    have hl : ∀ t ∈ later, t.status = .pending := fun t ht => pending t (by simp [ht])
    obtain ⟨left, status, error, last, stops, reported, named, rfl⟩ :=
      halts.stops hb hd (pending s (by simp))
    have shape : Shape o release w (done ++ s :: later) _ :=
      .stopped passes stops fun _ _ _ other => other.unique stops
    have report := report_stopped release (s := left) last.value error
      (List.forall_mem_append.mpr ⟨hd, hl⟩)
    have skipped : (done.map (·.ended true) ++ left :: later).drop (done.length + 1) = later := by
      rw [← List.drop_drop, List.drop_left' (by simp)]
      rfl
    have failed : (RunStatus.failed == RunStatus.succeeded) = false := rfl
    simpa [report, farewell, skipped, reported, named, hb, RunReport.success, failed] using shape

section Sample

/-- An action that ends well. -/
def passing : Action := ⟨"pass", fun ctx => .done (.ok (), ctx)⟩

/-- An action that fails and asks the run to stop. -/
def failing : Action :=
  ⟨"fail", fun ctx => .raise (.done (.error (.testFailure "suite" "exit code 1"), ctx))⟩

/-- Two gates of one name, the second after the first, and a stage that is not reached. -/
def sampleStages : List Stage := [.new "gate" .testGate passing,
  (Stage.new "gate" .testGate failing).after "gate", .new "publish" .publish passing]

/-- What the sample is run for. -/
def sampleRelease : Release := ⟨"v1", ".", none, ""⟩

/-- Nothing is there, and git and the runner have nothing to say. -/
def emptyWorld : World Rehearsal.Cast := ⟨⟨.empty, []⟩, [], false, 0, .start [] []⟩

/-- A checkout is there, and the runner builds something to stage in it. -/
def builtWorld : World Rehearsal.Cast :=
  { emptyWorld with
    files := Arrangement.arrange ⟨.empty, []⟩ [.directory "target-repo"]
    outside := .start [⟨"--show-toplevel", none, [], ⟨0, Text.utf8 "target-repo", []⟩⟩]
      [⟨fun _ => .ok ⟨0, "", "", true⟩, [.file "build/Bindings/f" [97] false], false⟩] }

/-- What git says where there is something new to release: the index has changed, the tag is not
known, and what is checked out is called `a`. -/
def newsReply : Git.Action → Git.Reply
  | .head => ⟨0, [97], []⟩
  | .compareIndex | .tagTarget _ => ⟨1, [], []⟩
  | _ => ⟨0, [], []⟩

/-- There is something new to release: git clones an empty directory, and the runner builds one. -/
def newsOutside : Outside Unit where
  git call _ fs s :=
    let after := match call.action with
      | .clone _ _ path => Arrangement.arrange fs [.directory path]
      | _ => fs
    (newsReply call.action, after, s)
  command _ fs s :=
    ⟨.ok ⟨0, "", "", true⟩, Arrangement.arrange fs [.directory "build/Bindings"], false, s⟩

/-- The place for the checkout is there, and empty. -/
def newsWorld : World Unit :=
  ⟨Arrangement.arrange ⟨.empty, []⟩ [.directory "target-repo"], [], false, 0, ()⟩

theorem run_shape_sample : (∀ s ∈ sampleStages, s.status = .pending) ∧
    ((run sampleRelease sampleStages).play Rehearsal.outside emptyWorld).value.stages.map
      (·.status) = [.succeeded, .failed, .pending] ∧
    Shape Rehearsal.outside sampleRelease emptyWorld sampleStages
      ((run sampleRelease sampleStages).play Rehearsal.outside emptyWorld) := by
  have pending : ∀ s ∈ sampleStages, s.status = .pending := by simp [sampleStages, Stage.new,
    Stage.after]
  exact ⟨pending, rfl, run_shape Rehearsal.outside sampleRelease emptyWorld pending⟩

end Sample
end Run
end GatedRelease
