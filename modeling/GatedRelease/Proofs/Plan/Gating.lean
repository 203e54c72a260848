import GatedRelease.Proofs.Plan.Work
import GatedRelease.Proofs.Run.Advance
import GatedRelease.Proofs.Stage.Chain

/-! # Publishing is gated

A release publishes only what was built, staged and tested: git is asked for work of publishing only
after the commands of the whole configuration were run, each once and in order, every reply has
passed, the artifact was put into the checkout between the build and the first suite, and nobody has
asked the run to stop (`Plan.publish_gated`).  This holds for every runner and every git.

The commands are followed through the list of stages (`Commanding`) by what one stage does with its
own (`Commands`).
-/
namespace GatedRelease

/-- **Commands that are handed to the runner in turn**: none is left out or repeated, and none
follows upon a reply that did not pass. -/
structure InTurn (commands : List Command) (runs : List (Command × Except RunFailure Output))
    (complete : Bool) : Prop where
  inOrder : runs.map (·.1) <+: commands
  halted : ∀ before x after, runs = before ++ x :: after → after ≠ [] → Passed x.2
  finished : complete = true → runs.map (·.1) = commands ∧ ∀ x ∈ runs, Passed x.2

namespace InTurn
variable {commands more : List Command} {runs runs' : List (Command × Except RunFailure Output)}
  {complete : Bool}

theorem nil : InTurn commands [] false where
  inOrder := List.nil_prefix
  halted := fun _ _ _ h => absurd h (by simp)
  finished := nofun

theorem none : InTurn [] [] complete where
  inOrder := List.nil_prefix
  halted := fun _ _ _ h => absurd h (by simp)
  finished := fun _ => ⟨rfl, fun _ hx => absurd hx List.not_mem_nil⟩

theorem one {c : Command} {reply : Except RunFailure Output} (h : complete = true → Passed reply) :
    InTurn [c] [(c, reply)] complete where
  inOrder := List.prefix_refl _
  halted := by
    intro before x after h ha
    have length := congrArg List.length h
    simp only [List.length_cons, List.length_append, List.length_nil] at length
    exact absurd (List.eq_nil_of_length_eq_zero (by omega)) ha
  finished := fun hc => ⟨rfl, by simpa using h hc⟩

/-- What was not finished stays unfinished with more to do. -/
theorem append_right (h : InTurn commands runs complete) :
    InTurn (commands ++ more) runs false where
  inOrder := h.inOrder.trans (List.prefix_append _ _)
  halted := h.halted
  finished := nofun

/-- Once all commands have passed, others may follow. -/
theorem append (h : InTurn commands runs true) (h' : InTurn more runs' complete) :
    InTurn (commands ++ more) (runs ++ runs') complete := by
  obtain ⟨hm, hp⟩ := h.finished rfl
  refine ⟨?_, ?_, ?_⟩
  · rw [List.map_append, hm]
    exact (List.prefix_append_right_inj commands).mpr h'.inOrder
  · intro before x after hs ha
    rcases append_eq_append_cons hs with ⟨rest, rfl, -⟩ | ⟨rest, -, ht⟩
    · exact hp x (by simp)
    · exact h'.halted rest x after ht ha
  · intro hc
    obtain ⟨hm', hp'⟩ := h'.finished hc
    refine ⟨by rw [List.map_append, hm, hm'], ?_⟩
    intro x hx
    rcases List.mem_append.mp hx with hx | hx
    · exact hp x hx
    · exact hp' x hx

end InTurn

/-! ## The commands of stages -/

/-- Whatever it is answered, the stage hands these commands to the runner in turn, and all of them
if it succeeds. -/
def Stage.Commands (s : Stage) (commands : List Command) : Prop :=
  ∀ ctx notes a, (s.action.execute ctx).Yields notes a →
    InTurn commands (commandRuns notes) a.1.isOk

/-- Stages that hand these commands to the runner, one stage after the other. -/
inductive Commanding : List Stage → List Command → Prop
  | nil : Commanding [] []
  | cons {s : Stage} {later : List Stage} {commands more : List Command} :
      s.Commands commands → Commanding later more → Commanding (s :: later) (commands ++ more)

theorem Commanding.append {stages later : List Stage} {commands more : List Command}
    (h : Commanding stages commands) (h' : Commanding later more) :
    Commanding (stages ++ later) (commands ++ more) := by
  induction h with
  | nil => exact h'
  | cons hs _ ih =>
    rw [List.append_assoc]
    exact .cons hs ih

namespace Run
variable {σ : Type} {o : Outside σ} {p q : Point σ} {s : Stage} {stages : List Stage}
  {commands : List Command} {taken : List Note}

@[simp] theorem commandRuns_opening (position : Nat) (ctx : Context) :
    commandRuns (opening position s ctx) = [] := rfl

@[simp] theorem commandRuns_closing (position : Nat) (success : Bool) :
    commandRuns (closing position s success) = [] := rfl

@[simp] theorem commandRuns_told :
    commandRuns (p.told o s) = commandRuns (p.perform o s).notes := by
  simp [Point.told]

@[simp] theorem gitCalls_told : gitCalls (p.told o s) = gitCalls (p.perform o s).notes := by
  have ho : gitCalls (opening p.before.length s p.context) = [] := rfl
  have hc : gitCalls (closing p.before.length s (p.perform o s).value.1.isOk) = [] := rfl
  rw [Point.told, gitCalls_append, gitCalls_append, ho, hc, List.nil_append, List.append_nil]

theorem perform_inTurn (h : s.Commands commands) :
    InTurn commands (commandRuns (p.perform o s).notes) (p.perform o s).value.1.isOk :=
  h _ _ _ (Script.yields_play o _ _)

/-- Stages that have passed have run all their commands. -/
theorem Passes.inTurn (h : Commanding stages commands) (passes : Passes o p stages taken q) :
    InTurn commands (commandRuns taken) true := by
  induction passes generalizing commands with
  | nil =>
    cases h
    exact .none
  | @cons p _ s _ _ _ passed _ ih =>
    cases h with
    | cons hs later =>
      have performed := perform_inTurn (o := o) (p := p) hs
      rw [passed] at performed
      rw [commandRuns_append, commandRuns_told]
      exact performed.append (ih later)

/-- **A run hands the commands of its stages to the runner in turn.** -/
theorem advance_inTurn (h : Commanding stages commands) :
    InTurn commands (commandRuns (p.advance o stages).notes)
      (p.advance o stages).value.failure.isNone := by
  induction h generalizing p with
  | nil => exact .none
  | @cons s later commands more hs _ ih =>
    rcases advance_step (o := o) p s later with halted | ⟨-, passed, step⟩
    · generalize p.advance o (s :: later) = e at halted
      cases halted with
      | cancelled _ => exact .nil
      | unmet _ _ => exact .nil
      | failed _ _ =>
        rw [commandRuns_told]
        exact (perform_inTurn hs).append_right
    · have performed := perform_inTurn (o := o) (p := p) hs
      rw [passed] at performed
      rw [step, commandRuns_append, commandRuns_told]
      exact performed.append ih

@[simp] theorem commandRuns_farewell (release : Release) (e : Ending) :
    commandRuns (farewell release e) = [] := by
  refine commandRuns_of_commandless fun n hn => ?_
  cases n with
  | command c reply => exact absurd hn (not_mem_farewell (by simp [Note.request]) release e)
  | _ => trivial

/-- A run has commands run on the way through its stages only. -/
theorem commandRuns_run (release : Release) (stages : List Stage) (w : World σ) :
    commandRuns ((run release stages).play o w).notes =
      commandRuns ((⟨[], .start release.tag, w⟩ : Point σ).advance o stages).notes := by
  rw [play_run]
  have started (notes : List Note) : commandRuns
      (.event (.runStarted release.tag stages.length) :: notes) = commandRuns notes := rfl
  rw [started, commandRuns_append, commandRuns_farewell, List.append_nil]

/-- The same of a run as a whole. -/
theorem run_inTurn {release : Release} {w : World σ} (h : Commanding stages commands) :
    InTurn commands (commandRuns ((run release stages).play o w).notes)
      ((run release stages).play o w).value.success := by
  rw [commandRuns_run, play_run]
  dsimp only
  rw [success_report]
  exact advance_inTurn h

end Run

/-! ## The stages of a release -/

/-- Chaining stages changes nothing about their commands. -/
theorem Commanding.linearAfter {stages : List Stage} {commands : List Command}
    (h : Commanding stages commands) (previous : Option String) :
    Commanding (Stage.linearAfter previous stages) commands := by
  induction h generalizing previous with
  | nil => exact .nil
  | @cons s later _ _ hs _ ih =>
    refine .cons ?_ (ih (some s.name))
    unfold Stage.Commands
    rw [Stage.chained_action]
    exact hs

namespace Plan

/-- The commands of a release: the build, and the suites in the order of the configuration. -/
def commands (c : Config) : List Command :=
  ⟨"build", c.build.invocation, c.build.workingDir, c.build.timeoutSecs⟩ ::
    c.suites.map fun s => ⟨"suite:" ++ s.name, s.invocation,
      PathText.join c.target.checkoutDir s.workingDir, s.timeoutSecs⟩

/-- The stage that builds. -/
def buildStage (c : Config) : Stage :=
  .new StageKind.build.text .build (Build.action c.build c.target.artifactPath)

/-- The stage that stages. -/
def stagingStage (c : Config) : Stage :=
  .new StageKind.stage.text .stage (Staging.action c.repository)

/-- The stages before publishing, not yet chained. -/
def preparation (c : Config) : List Stage := buildStage c :: stagingStage c :: c.suites.map (gate c)

/-- The stage that publishes. -/
def publishStage (c : Config) (provider : CredentialProvider) : Stage :=
  .new StageKind.publish.text .publish (publisher c provider).action

/-- **The stages of a release**: those that prepare it, and one that publishes. -/
theorem stages_eq (c : Config) (provider : CredentialProvider) :
    ∃ s, stages c provider = Stage.linear (preparation c) ++ [s] ∧
      s.action = (publisher c provider).action := by
  obtain ⟨name, h⟩ := Stage.linearAfter_append none (preparation c)
  exact ⟨_, h (.new StageKind.publish.text .publish (publisher c provider).action),
    Stage.chained_action _ _⟩

/-- No stage has started in advance. -/
theorem stages_pending {c : Config} {provider : CredentialProvider} :
    ∀ s ∈ stages c provider, s.status = .pending := by
  intro s hs
  obtain ⟨t, ht, -, he⟩ := Stage.exists_of_mem_linearAfter hs
  rw [he]
  simp only [List.mem_append, List.mem_cons, List.mem_map, List.not_mem_nil, or_false] at ht
  rcases ht with ((rfl | rfl) | ⟨suite, -, rfl⟩) | rfl <;> rfl

theorem commands_buildStage (c : Config) : (buildStage c).Commands [Build.command c.build] := by
  intro ctx notes a h
  rcases Build.action_cases h with ⟨rfl, e, rfl⟩ | ⟨reply, rfl, ⟨e, rfl⟩ | ⟨passed, rfl⟩⟩
  · exact .nil
  · exact .one nofun
  · exact .one fun _ => passed

theorem commands_stagingStage (c : Config) : (stagingStage c).Commands [] := by
  intro ctx notes a h
  have commandless : commandRuns notes = [] := by
    refine commandRuns_of_commandless fun n hn => ?_
    have prepared := Staging.prepares_action.note h n hn
    cases n with
    | command c reply => exact prepared
    | _ => trivial
  rw [commandless]
  exact .none

theorem commands_gate (c : Config) (s : Suite) :
    (gate c s).Commands [Gate.command s c.target.checkoutDir] := by
  intro ctx notes a h
  obtain ⟨reply, rfl, ⟨⟨e, rfl⟩, -⟩ | ⟨passed, rfl⟩⟩ := Gate.action_cases h
  · exact .one nofun
  · exact .one fun _ => passed

/-- What the stages before publishing ask for. -/
theorem uses_preparation {allowed : Request → Prop} {c : Config}
    (top : allowed (.git ⟨.topLevel, c.target.checkoutDir, none⟩))
    (cloning : allowed (.git
      ⟨.clone c.target.branch c.target.remoteUrl c.target.checkoutDir, ".", none⟩))
    (look : allowed .look) (store : allowed .store) (suffix : allowed .suffix)
    (ran : ∀ command, allowed (.command command)) {s : Stage}
    (hs : s ∈ preparation c) (ctx : Context) : (s.action.execute ctx).Uses allowed := by
  simp only [preparation, List.mem_cons, List.mem_map] at hs
  rcases hs with rfl | rfl | ⟨suite, -, rfl⟩
  · exact Build.uses_action look store (ran _)
  · exact Staging.uses_action top cloning look store suffix
  · exact Gate.uses_action (ran _)

/-- The stages before publishing hand the commands of the configuration to the runner. -/
theorem commanding_preparation (c : Config) :
    Commanding (Stage.linear (preparation c)) (commands c) := by
  have gates : ∀ suites : List Suite, Commanding (suites.map (gate c))
      (suites.map fun s => Gate.command s c.target.checkoutDir) := by
    intro suites
    induction suites with
    | nil => exact .nil
    | cons s later ih => exact .cons (commands_gate c s) ih
  exact Commanding.linearAfter
    (.cons (commands_buildStage c) (.cons (commands_stagingStage c) (gates c.suites))) none

/-- Publishing has no command of its own. -/
theorem commands_publisher {p : Publisher} {s : Stage} (hs : s.action = p.action) :
    s.Commands [] := by
  intro ctx notes a h
  rw [hs] at h
  have commandless := commandRuns_of_commandless (Publisher.uses_action.note h)
  rw [commandless]
  exact .none

/-- All stages together hand the commands of the configuration to the runner. -/
theorem commanding_stages (c : Config) (provider : CredentialProvider) :
    Commanding (stages c provider) (commands c) := by
  obtain ⟨s, hs, publishing⟩ := stages_eq c provider
  rw [hs, ← List.append_nil (commands c)]
  exact (commanding_preparation c).append (.cons (commands_publisher publishing) .nil)

/-- No stage before publishing asks git for work of publishing. -/
theorem unpublishing_preparation {c : Config} {s : Stage}
    (hs : s ∈ Stage.linear (preparation c)) {ctx : Context} {notes : List Note}
    {a : Except ReleaseError Unit × Context} (h : (s.action.execute ctx).Yields notes a) :
    Unpublishing notes := by
  obtain ⟨t, ht, he, -⟩ := Stage.exists_of_mem_linearAfter hs
  rw [he] at h
  intro call place outcome hn
  simp only [preparation, List.mem_cons, List.mem_map] at ht
  rcases ht with rfl | rfl | ⟨suite, -, rfl⟩
  · rcases Build.action_cases h with ⟨rfl, -⟩ | ⟨reply, rfl, -⟩
    · exact absurd hn List.not_mem_nil
    · exact absurd (List.mem_singleton.mp hn) nofun
  · exact Staging.prepares_action.note h _ hn
  · obtain ⟨reply, rfl, -⟩ := Gate.action_cases h
    exact absurd (List.mem_singleton.mp hn) nofun

/-! ## The gate -/

section Gate
variable {σ : Type} (o : Outside σ) (w : World σ) (c : Config) (provider : CredentialProvider)
  (release : Release)

/-- The run of a release. -/
def script : Script RunReport := Run.run release (stages c provider)

/-- **What is done before anything is published**, by the notes up to there. -/
structure Gated (before : List Note) : Prop where
  /-- All commands of the configuration were run, each once. -/
  commands : (commandRuns before).map (·.1) = commands c
  passed : ∀ x ∈ commandRuns before, Passed x.2
  /-- What the build left was staged, and no suite was run before that. -/
  staged : ∃ taken v staged,
    (Staging.stage ⟨Build.outputPath c.build, c.target.artifactPath⟩ c.repository).run.Performed o v
      (script c provider release) w taken ∧
    ((Staging.stage ⟨Build.outputPath c.build, c.target.artifactPath⟩ c.repository).run.play o
      v).value = .ok staged ∧
    taken <+: before ∧ (commandRuns taken).map (·.1) = [Build.command c.build]
  /-- Nobody had asked the run to stop when publishing was started. -/
  started : ∃ taken v ctx,
    ((publisher c provider).action.execute ctx).Performed o v (script c provider release) w taken ∧
    v.cancelled = false ∧ taken <+: before

variable {o w c provider release}

/-- A build that has passed hands on the artifact. -/
theorem built_of_perform {p : Run.Point σ} {s : Stage} {b : BuildSettings} {dest : String}
    (hs : s.action = Build.action b dest) (h : (p.perform o s).value.1 = .ok ()) :
    (commandRuns (p.perform o s).notes).map (·.1) = [Build.command b] ∧
      (p.perform o s).value.2.artifact = some ⟨Build.outputPath b, dest⟩ := by
  unfold Run.Point.perform at h ⊢
  rw [hs] at h ⊢
  rcases Build.action_cases (Script.yields_play o _ _) with
    ⟨-, e, he⟩ | ⟨reply, hn, ⟨e, he⟩ | ⟨-, he⟩⟩ <;> rw [he] at h ⊢
  · exact absurd h nofun
  · exact absurd h nofun
  · rw [hn]
    exact ⟨rfl, rfl⟩

/-- Staging that has passed has staged the artifact that was handed on. -/
theorem staged_of_perform {p : Run.Point σ} {s : Stage} {repo : Repository} {artifact : Artifact}
    (hs : s.action = Staging.action repo) (ha : p.context.artifact = some artifact)
    (h : (p.perform o s).value.1 = .ok ()) :
    ∃ first v staged,
      (Staging.stage artifact repo).run.Performed o v (s.action.execute p.context) p.world first ∧
      ((Staging.stage artifact repo).run.play o v).value = .ok staged ∧
      first <+: (p.perform o s).notes ∧ commandRuns first = [] := by
  unfold Run.Point.perform at h ⊢
  rw [hs] at h ⊢
  obtain ⟨v, first, staged, performed, hv, -⟩ := Staging.action_performed ha h
  obtain ⟨rest, hn⟩ := performed.notes
  refine ⟨first, v, staged, performed, hv, ?_, ?_⟩
  · rw [hn, List.append_assoc]
    exact List.prefix_append _ _
  · refine commandRuns_of_commandless fun n hf => ?_
    have prepared := Staging.prepares_action.note
      (Script.yields_play o ((Staging.action repo).execute p.context) p.world) n (by simp [hn, hf])
    cases n with
    | command c reply => exact prepared
    | _ => trivial

/-- **The artifact was staged** in stages that have passed. -/
theorem performed_of_preparation {tag : String} {taken : List Note} {q : Run.Point σ}
    (later : List Stage)
    (passes : Run.Passes o ⟨[], .start tag, w⟩ (Stage.linear (preparation c)) taken q) :
    ∃ first v staged,
      (Staging.stage ⟨Build.outputPath c.build, c.target.artifactPath⟩ c.repository).run.Performed o
        v (Run.advance [] (.start tag) (Stage.linear (preparation c) ++ later)) w first ∧
      ((Staging.stage ⟨Build.outputPath c.build, c.target.artifactPath⟩ c.repository).run.play o
        v).value = .ok staged ∧
      first <+: taken ∧ (commandRuns first).map (·.1) = [Build.command c.build] := by
  have hl : Stage.linear (preparation c) = (buildStage c).chained none ::
      (stagingStage c).chained (some (buildStage c).name) ::
      Stage.linearAfter (some (stagingStage c).name) (c.suites.map (gate c)) := rfl
  rw [hl] at passes ⊢
  generalize hb : (buildStage c).chained none = b at passes ⊢
  generalize hs : (stagingStage c).chained (some (buildStage c).name) = s at passes ⊢
  -- The first two stages that have passed are the one that builds and the one that stages.
  cases passes with
  | cons admitted passed rest =>
    cases rest with
    | cons admitted' passed' rest =>
      have build : b.action = Build.action c.build c.target.artifactPath := by
        rw [← hb, Stage.chained_action]
        rfl
      have staging : s.action = Staging.action c.repository := by
        rw [← hs, Stage.chained_action]
        rfl
      obtain ⟨ran, handed⟩ := built_of_perform build passed
      obtain ⟨first, v, staged, performed, hv, early, commandless⟩ :=
        staged_of_perform staging handed passed'
      refine ⟨_, v, staged, Run.performed_of_next admitted passed
        (Run.performed_of_action admitted' performed), hv, ?_, ?_⟩
      · rw [List.prefix_append_right_inj]
        exact (Run.Point.prefix_told early).trans (List.prefix_append _ _)
      · simp [commandless, ran]

/-- **What publishes is the last stage**: all stages before it have passed when it asks git for work
of publishing, and it has had no command run. -/
theorem reached_of_publishing {call : Git.Call} {place : Option Location} {outcome : Git.Outcome}
    {before after : List Note} (hp : call.action.isPublishing = true)
    (h : ((script c provider release).play o w).notes =
      before ++ .git call place outcome :: after) :
    ∃ taken q t first, stages c provider = Stage.linear (preparation c) ++ [t] ∧
      t.action = (publisher c provider).action ∧
      Run.Passes o ⟨[], .start release.tag, w⟩ (Stage.linear (preparation c)) taken q ∧
      q.Admits t ∧ commandRuns first = [] ∧
      before = .event (.runStarted release.tag (stages c provider).length) ::
        (taken ++ Run.opening q.before.length t q.context ++ first) := by
  obtain ⟨s, hs, publishing⟩ := stages_eq c provider
  have done : (Note.git call place outcome).request ≠ .remark := by simp [Note.request]
  obtain ⟨early, late, rfl, ha⟩ := Run.run_note done h
  obtain ⟨stages, t, later, taken, q, first, last, hd, passes, admits, rfl, hn⟩ :=
    Run.advance_note done ha
  -- No stage of the preparation makes the call, so that it is made by the last one.
  have unprepared : t ∉ Stage.linear (preparation c) := by
    intro ht
    have unpublishing : Unpublishing (q.perform o t).notes :=
      unpublishing_preparation ht (Script.yields_play o _ _)
    have made : Note.git call place outcome ∈ (q.perform o t).notes := by simp [hn]
    rw [unpublishing call place outcome made] at hp
    exact absurd hp (by decide)
  have split := hd
  rw [hs] at split
  obtain ⟨rfl, rfl, rfl⟩ := eq_of_append_last (P := (· ∉ Stage.linear (preparation c)))
    (fun z hz => not_not_intro hz) unprepared split
  have silent : commandRuns first = [] := by
    have none := (Run.perform_inTurn (o := o) (p := q) (commands_publisher publishing)).inOrder
    rw [hn, commandRuns_append, List.prefix_nil, List.map_eq_nil_iff,
      List.append_eq_nil_iff] at none
    exact none.1
  exact ⟨taken, q, t, first, hs, publishing, passes, admits, silent, rfl⟩

/-- **Publishing is gated.** Whatever the runner, git and the files do, a release runs its commands
in turn, and asks git for work of publishing only after all of them have passed, with the artifact
staged between the build and the first suite, and unless it was asked to stop before. -/
theorem publish_gated (o : Outside σ) (w : World σ) (c : Config) (provider : CredentialProvider)
    (release : Release) :
    let played := (script c provider release).play o w
    InTurn (commands c) (commandRuns played.notes) played.value.success ∧
      ∀ before call place outcome after, played.notes = before ++ .git call place outcome :: after →
        call.action.isPublishing = true → Gated o w c provider release before := by
  have prepared := commanding_preparation c
  refine ⟨Run.run_inTurn (commanding_stages c provider), ?_⟩
  intro before call place outcome after h hp
  obtain ⟨taken, q, t, first, hs, publishing, passes, admits, silent, rfl⟩ :=
    reached_of_publishing hp h
  -- All commands before the call were run by stages of the preparation.
  have ran : commandRuns (.event (.runStarted release.tag (Plan.stages c provider).length) ::
      (taken ++ Run.opening q.before.length t q.context ++ first)) = commandRuns taken := by
    show commandRuns (taken ++ Run.opening q.before.length t q.context ++ first) = _
    simp [silent]
  obtain ⟨commands, passed⟩ := (passes.inTurn prepared).finished rfl
  refine ⟨by rw [ran, commands], by rw [ran]; exact passed, ?_, ?_⟩
  · obtain ⟨early, v, staged, performed, hv, hf, hc⟩ :=
      performed_of_preparation [t] passes
    rw [← hs] at performed
    refine ⟨_, v, staged, Run.performed_run performed, hv, ?_, hc⟩
    rw [List.cons_prefix_cons, List.append_assoc]
    exact ⟨rfl, hf.trans (List.prefix_append _ _)⟩
  · have performed : ((publisher c provider).action.execute q.context).Performed o q.world
        (Run.advance [] (.start release.tag) (Plan.stages c provider)) w
        (taken ++ (Run.opening q.before.length t q.context ++ [])) := by
      rw [hs, ← publishing]
      exact Run.performed_of_passes passes (Run.performed_of_action admits .here)
    refine ⟨_, q.world, q.context, Run.performed_run performed, admits.1, ?_⟩
    rw [List.cons_prefix_cons, List.append_nil]
    exact ⟨rfl, List.prefix_append _ _⟩

end Gate
end Plan
end GatedRelease
