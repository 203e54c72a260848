import GatedRelease.Host
import GatedRelease.Proofs.Config.Validity
import GatedRelease.Proofs.Plan.Gating
import GatedRelease.Proofs.Run.Chaining
import Mathlib.Data.List.Nodup

/-! # What an accepted configuration guarantees

The stages that are planned from a configuration have different names exactly if its suites have
(`Plan.nodup_stageNames_iff`): a gate is named after its suite, in words that no other stage is
named with.  So if a configuration is accepted, every stage of a release is found in the report by
its name, and waits for the one before it and for nothing else.  Its commands all name a program,
and a runner that says a command is empty only if it is never says so.
-/
namespace GatedRelease

namespace Stage
variable {previous : Option String} {stages : List Stage} {s t : Stage} {i : Nat}

/-- **In a chain a stage waits for the one before it**, and for nothing else if it waited for
nothing. -/
theorem dependsOn_linearAfter_succ (free : ∀ t ∈ stages, t.dependsOn = [])
    (hs : (linearAfter previous stages)[i]? = some s)
    (ht : (linearAfter previous stages)[i + 1]? = some t) : t.dependsOn = [s.name] := by
  obtain ⟨first, hf, rfl⟩ :=
    Option.map_eq_some_iff.mp ((getElem?_linearAfter previous stages i).symm.trans hs)
  obtain ⟨second, hn, rfl⟩ :=
    Option.map_eq_some_iff.mp ((getElem?_linearAfter previous stages (i + 1)).symm.trans ht)
  have none : second.dependsOn = [] := free second (List.mem_of_getElem? hn)
  have link : linkAt previous stages (i + 1) = some first.name := congrArg (Option.map _) hf
  rw [link, chained_name]
  simp [chained, after, none]

end Stage

/-! ## Replies -/

/-- **A runner that says a command is empty only if it is.** -/
def Outside.RefusesEmptyOnly {σ : Type} (o : Outside σ) : Prop :=
  ∀ c files state label, (o.command c files state).result = .error (.emptyArgv label) → c.argv = []

/-- The machine that commands run on is such a runner. -/
theorem Host.refusesEmptyOnly_outside (vars : List (String × String)) :
    (outside vars).RefusesEmptyOnly := by
  intro c files state label refused
  have replied : (run vars c files).1 = .error (.emptyArgv label) := refused
  unfold run at replied
  cases hc : c.argv with
  | nil => rfl
  | cons program args =>
    rw [hc] at replied
    dsimp only at replied
    cases hs : start vars program args c.workingDir files <;> rw [hs] at replied <;>
      exact absurd replied nofun

/-- What is allowed less of is allowed. -/
theorem Script.Uses.mono {α : Type} {allowed wider : Request → Prop} {s : Script α}
    (hs : s.Uses allowed) (sub : ∀ r, allowed r → wider r) : s.Uses wider := by
  induction s with
  | done a => trivial
  | store _ next ih | raise next ih => exact ⟨sub _ hs.1, ih hs.2⟩
  | note _ next ih => exact ⟨hs.1, sub _ hs.2.1, ih hs.2.2⟩
  | look next ih | git _ next ih | command _ next ih | environment _ next ih
  | cancelled next ih | suffix next ih => exact ⟨sub _ hs.1, fun x => ih x (hs.2 x)⟩

theorem mem_commandRuns {notes : List Note} {c : Command} {reply : Except RunFailure Output} :
    (c, reply) ∈ commandRuns notes ↔ .command c reply ∈ notes := by
  unfold commandRuns
  rw [List.mem_filterMap]
  constructor
  · rintro ⟨n, hn, h⟩
    cases n <;> simp only [Note.command?, Option.some.injEq, Prod.mk.injEq, reduceCtorEq] at h
    obtain ⟨rfl, rfl⟩ := h
    exact hn
  · exact fun hn => ⟨_, hn, rfl⟩

/-- What is written down as a reply is one, unless the script makes up notes. -/
theorem Script.Uses.answered {σ α : Type} {o : Outside σ} {allowed : Request → Prop}
    {s : Script α} (hs : s.Uses allowed) {w : World σ} {c : Command}
    {reply : Except RunFailure Output} (h : .command c reply ∈ (s.play o w).notes) :
    ∃ files state, reply = (o.command c files state).result := by
  induction s generalizing w with
  | done a => exact absurd h List.not_mem_nil
  | store _ next ih | raise next ih => exact ih hs.2 h
  | look next ih | environment _ next ih | cancelled next ih => exact ih _ (hs.2 _) h
  | suffix next ih => exact ih _ (hs.2 _) h
  | git call next ih =>
    rcases List.mem_cons.mp h with here | there
    · exact absurd here nofun
    · exact ih _ (hs.2 _) there
  | command c' next ih =>
    rcases List.mem_cons.mp h with here | there
    · obtain ⟨rfl, rfl⟩ := Note.command.inj here
      exact ⟨w.files, w.outside, rfl⟩
    · exact ih _ (hs.2 _) there
  | note n next ih =>
    rcases List.mem_cons.mp h with rfl | there
    · exact absurd hs.1 nofun
    · exact ih hs.2.2 there

/-! ## Reports -/

/-- A report is found by its name if no other has it. -/
theorem RunReport.stage?_of_nodup {r : RunReport} {i : Nat} {x : StageReport}
    (distinct : (r.stages.map (·.name)).Nodup) (h : r.stages[i]? = some x) :
    r.stage? x.name = some x := by
  obtain ⟨hi, rfl⟩ := List.getElem?_eq_some_iff.mp h
  refine List.find?_eq_some_iff_getElem.mpr ⟨by simp, i, hi, rfl, fun j hj => ?_⟩
  -- An earlier report of the name would be the same one.
  have apart := List.pairwise_iff_getElem.mp distinct j i (by simp; omega) (by simpa using hi) hj
  simpa using apart

namespace Run
variable {σ : Type} {o : Outside σ}

/-- Going through stages changes none of their names and kinds. -/
theorem advance_shown (p : Point σ) (stages : List Stage) :
    (p.advance o stages).value.stages.map (fun s => (s.name, s.kind)) =
      (p.before ++ stages).map fun s => (s.name, s.kind) := by
  obtain ⟨done, rest, taken, q, e, rfl, passes, halts, he⟩ := advance_split (o := o) p stages
  have failed (s : Stage) : (s.transition .failed).2.kind = s.kind := by
    unfold Stage.transition
    split <;> rfl
  rw [he]
  cases halts <;> simp [passes.before, Function.comp_def, failed]

/-- **A report has one entry for each stage**, of its name and its kind. -/
theorem run_shown (release : Release) (stages : List Stage) (w : World σ) :
    ((run release stages).play o w).value.stages.map (fun r => (r.name, r.kind)) =
      stages.map fun s => (s.name, s.kind) := by
  have kept := advance_shown (o := o) (⟨[], .start release.tag, w⟩ : Point σ) stages
  rw [List.nil_append] at kept
  rw [play_run, ← kept]
  refine List.ext_getElem (by simp [report]) fun i _ _ => ?_
  simp [report, reportStage]

end Run

namespace Plan
variable {c : Config} {provider : CredentialProvider}

/-! ## Names -/

theorem toList_gateName (suite : String) :
    (gateName suite).toList = "test_gate(".toList ++ suite.toList ++ [')'] := by
  show ("test_gate(" ++ suite ++ ")").toList = _
  rw [String.toList_append, String.toList_append]
  rfl

/-- Gates of different suites have different names. -/
theorem gateName_injective : Function.Injective gateName := by
  intro a b h
  have same := congrArg String.toList h
  rw [toList_gateName, toList_gateName] at same
  exact String.toList_inj.mp (List.append_cancel_left (List.append_cancel_right same))

/-- No gate is named like a stage that there is in every release. -/
theorem gateName_ne (suite : String) : gateName suite ≠ StageKind.build.text ∧
    gateName suite ≠ StageKind.stage.text ∧ gateName suite ≠ StageKind.publish.text := by
  have first : (gateName suite).toList.head? = some 't' := by
    rw [toList_gateName]
    rfl
  refine ⟨?_, ?_, ?_⟩ <;> intro same <;> rw [same] at first <;> exact absurd first (by decide)

/-- **The stages of a release**, but for what they wait for. -/
theorem unlinked_stages (c : Config) (provider : CredentialProvider) :
    (stages c provider).map Stage.unlinked = preparation c ++ [publishStage c provider] := by
  have chained : stages c provider =
    Stage.linearAfter none (preparation c ++ [publishStage c provider]) := rfl
  have free : ∀ s ∈ preparation c ++ [publishStage c provider], s.unlinked = s := by
    intro s hs
    simp only [preparation, List.mem_append, List.mem_cons, List.mem_map, List.not_mem_nil,
      or_false] at hs
    rcases hs with (rfl | rfl | ⟨suite, -, rfl⟩) | rfl <;> rfl
  rw [chained, Stage.unlinked_linearAfter]
  exact (List.map_congr_left free).trans (List.map_id _)

theorem stageNames_eq (c : Config) (provider : CredentialProvider) :
    stageNames (stages c provider) = StageKind.build.text :: StageKind.stage.text ::
      c.suites.map (fun s => gateName s.name) ++ [StageKind.publish.text] := by
  have names := congrArg (List.map Stage.name) (unlinked_stages c provider)
  rw [List.map_map] at names
  refine Eq.trans (b := List.map (Stage.name ∘ Stage.unlinked) (stages c provider)) rfl ?_
  rw [names]
  simp [preparation, buildStage, stagingStage, gate, publishStage, Stage.new]

/-- **Stages have different names exactly if suites have.** -/
theorem nodup_stageNames_iff (c : Config) (provider : CredentialProvider) :
    (stageNames (stages c provider)).Nodup ↔ (c.suites.map (·.name)).Nodup := by
  have gates : c.suites.map (fun s => gateName s.name) =
      (c.suites.map (·.name)).map gateName := by
    rw [List.map_map]
    rfl
  rw [stageNames_eq, gates, ← List.nodup_map_iff gateName_injective (l := c.suites.map (·.name))]
  generalize hn : (c.suites.map (·.name)).map gateName = names
  have absent {name : String} (other : ∀ suite, gateName suite ≠ name) : name ∉ names := by
    intro h
    obtain ⟨suite, -, named⟩ := List.mem_map.mp (hn ▸ h)
    exact other suite named
  have building := absent fun suite => (gateName_ne suite).1
  have staging := absent fun suite => (gateName_ne suite).2.1
  have publishing := absent fun suite => (gateName_ne suite).2.2
  have fixed : StageKind.build.text ≠ StageKind.stage.text ∧
      StageKind.build.text ≠ StageKind.publish.text ∧
      StageKind.stage.text ≠ StageKind.publish.text := by decide
  constructor
  · intro all
    exact all.sublist (.cons _ (.cons _ (List.sublist_append_left names _)))
  · intro distinct
    refine List.nodup_cons.mpr ⟨by simp [fixed, building], List.nodup_cons.mpr
      ⟨by simp [fixed, staging], List.nodup_append.mpr ⟨distinct, List.nodup_singleton _, ?_⟩⟩⟩
    rintro name h _ last rfl
    exact publishing (List.mem_singleton.mp last ▸ h)

/-! ## Commands -/

/-- The commands of a complete configuration name a program. -/
theorem namesProgram_of_mem_commands (complete : c.Complete) {command : Command}
    (h : command ∈ commands c) : NamesProgram command.argv := by
  rcases List.mem_cons.mp h with rfl | h
  · unfold BuildSettings.invocation
    rw [List.append_assoc, List.append_assoc]
    exact complete.build.append _
  · obtain ⟨suite, hs, rfl⟩ := List.mem_map.mp h
    unfold Suite.invocation
    rw [List.append_assoc]
    exact (complete.suites suite hs).command.append _

section Run
variable {σ : Type} {o : Outside σ} {w : World σ} {release : Release}

/-- Every command that is handed to the runner is one of the configuration. -/
theorem mem_commands_of_run {x : Command × Except RunFailure Output}
    (h : x ∈ commandRuns ((script c provider release).play o w).notes) : x.1 ∈ commands c := by
  have turns : InTurn (commands c) (commandRuns ((script c provider release).play o w).notes)
      ((script c provider release).play o w).value.success :=
    Run.run_inTurn (commanding_stages c provider)
  exact turns.inOrder.subset (List.mem_map_of_mem h)

/-- Every reply to a command in the notes is one of the runner. -/
theorem answered_of_run {x : Command × Except RunFailure Output}
    (h : x ∈ commandRuns ((script c provider release).play o w).notes) :
    ∃ files state, x.2 = (o.command x.1 files state).result := by
  have asks : ∀ s ∈ stages c provider, ∀ ctx,
      (s.action.execute ctx).Uses fun _ => True := by
    intro s hs ctx
    obtain ⟨t, ht, same, -⟩ := Stage.exists_of_mem_linearAfter hs
    rw [same]
    rcases List.mem_append.mp ht with prepared | published
    · refine uses_preparation ?_ ?_ ?_ ?_ ?_ (fun _ => ?_) prepared ctx <;> trivial
    · rw [List.mem_singleton.mp published]
      exact Publisher.uses_action.mono fun _ _ => trivial
  unfold script at h
  rw [Run.commandRuns_run, mem_commandRuns] at h
  exact (Run.uses_advance trivial trivial asks [] (.start release.tag)).answered h

/-- **Each stage is found in the report by its name**, if the names are different. -/
theorem stage?_of_run (distinct : (stageNames (stages c provider)).Nodup) {i : Nat} {s : Stage}
    (h : (stages c provider)[i]? = some s) :
    ∃ r, ((script c provider release).play o w).value.stages[i]? = some r ∧ r.name = s.name ∧
      r.kind = s.kind ∧ ((script c provider release).play o w).value.stage? s.name = some r := by
  have shown := Run.run_shown (o := o) release (stages c provider) w
  have entry := congrArg (·[i]?) shown
  have names := congrArg (List.map Prod.fst) shown
  simp only [List.getElem?_map, h, Option.map_some, Option.map_eq_some_iff, Prod.mk.injEq] at entry
  obtain ⟨r, there, name, kind⟩ := entry
  refine ⟨r, there, name, kind, ?_⟩
  rw [← name]
  refine RunReport.stage?_of_nodup ?_ there
  rw [List.map_map, List.map_map] at names
  exact (congrArg List.Nodup names).mpr distinct

end Run

/-! ## The guarantee -/

/-- **What a release can rely on** whose configuration was accepted. -/
structure Guaranteed (c : Config) (provider : CredentialProvider) : Prop where
  /-- What is done: build, stage, one gate for each suite in order, publish. -/
  unlinked : (stages c provider).map Stage.unlinked = buildStage c :: stagingStage c ::
    c.suites.map (gate c) ++ [publishStage c provider]
  gated : c.suites ≠ []
  names : stageNames (stages c provider) = StageKind.build.text :: StageKind.stage.text ::
    c.suites.map (fun s => gateName s.name) ++ [StageKind.publish.text]
  distinct : (stageNames (stages c provider)).Nodup
  first {s : Stage} : (stages c provider)[0]? = some s → s.dependsOn = []
  /-- Each later stage waits for the one before it, and for nothing else. -/
  linked {i : Nat} {s t : Stage} : (stages c provider)[i]? = some s →
    (stages c provider)[i + 1]? = some t → t.dependsOn = [s.name]
  /-- In every run, the report on a stage is the one that is found by its name. -/
  reported {σ : Type} (o : Outside σ) (w : World σ) (release : Release) {i : Nat} {s : Stage} :
    (stages c provider)[i]? = some s →
      ∃ r, ((script c provider release).play o w).value.stages[i]? = some r ∧ r.name = s.name ∧
        r.kind = s.kind ∧ ((script c provider release).play o w).value.stage? s.name = some r
  /-- In every run, the runner is handed no command without a program. -/
  commands {σ : Type} (o : Outside σ) (w : World σ) (release : Release) :
    ∀ x ∈ commandRuns ((script c provider release).play o w).notes, NamesProgram x.1.argv
  /-- No command is refused for being empty, by a runner that refuses none else so. -/
  answered {σ : Type} {o : Outside σ} (w : World σ) (release : Release) : o.RefusesEmptyOnly →
    ∀ x ∈ commandRuns ((script c provider release).play o w).notes, ∀ label,
      x.2 ≠ .error (.emptyArgv label)
  /-- The machine that commands run on refuses none. -/
  machine (vars : List (String × String)) (w : World Rehearsal.Cast) (release : Release) :
    ∀ x ∈ commandRuns ((script c provider release).play (Host.outside vars) w).notes, ∀ label,
      x.2 ≠ .error (.emptyArgv label)

theorem guaranteed_of_complete (complete : c.Complete)
    (distinct : (c.suites.map (·.name)).Nodup) (provider : CredentialProvider) :
    Guaranteed c provider := by
  have different := (nodup_stageNames_iff c provider).mpr distinct
  have free : ∀ t ∈ preparation c ++ [publishStage c provider], t.dependsOn = [] := by
    intro t ht
    simp only [preparation, List.mem_append, List.mem_cons, List.mem_map, List.not_mem_nil,
      or_false] at ht
    rcases ht with (rfl | rfl | ⟨suite, -, rfl⟩) | rfl <;> rfl
  have named {σ : Type} (o : Outside σ) (w : World σ) (release : Release) :
      ∀ x ∈ commandRuns ((script c provider release).play o w).notes, NamesProgram x.1.argv :=
    fun x hx => namesProgram_of_mem_commands complete (mem_commands_of_run hx)
  have answered {σ : Type} {o : Outside σ} (w : World σ) (release : Release)
      (ho : o.RefusesEmptyOnly) : ∀ x ∈ commandRuns ((script c provider release).play o w).notes,
        ∀ label, x.2 ≠ .error (.emptyArgv label) := by
    intro x hx label refused
    obtain ⟨files, state, reply⟩ := answered_of_run hx
    have empty := ho x.1 files state label (reply.symm.trans refused)
    obtain ⟨program, args, argv, -⟩ := named o w release x hx
    rw [empty] at argv
    exact absurd argv (List.cons_ne_nil program args).symm
  refine ⟨unlinked_stages c provider, complete.gated, stageNames_eq c provider, different, ?_,
    fun hs ht => Stage.dependsOn_linearAfter_succ free hs ht,
    fun o w release _ _ h => stage?_of_run different h, named, answered,
    fun vars w release => answered w release (Host.refusesEmptyOnly_outside vars)⟩
  rintro s ⟨⟩
  rfl

end Plan

/-- **What an accepted configuration guarantees, and what a refused one would not.**  A release can
rely on it that its stages are in line and have different names.  Of the configurations that are
otherwise complete, those with two suites of one name are refused, and these are those from which
two stages of one name would be planned. -/
theorem Config.validate_guarantees (c : Config) (provider : CredentialProvider) :
    (c.validate = .ok () ↔ c.Complete ∧ (c.suites.map (·.name)).Nodup) ∧
    (c.validate = .ok () → Plan.Guaranteed c provider) ∧
    (c.Complete →
      (c.validate ≠ .ok () ↔ ¬(Plan.stageNames (Plan.stages c provider)).Nodup) ∧
      (¬(c.suites.map (·.name)).Nodup ↔ ¬(Plan.stageNames (Plan.stages c provider)).Nodup) ∧
      (¬(c.suites.map (·.name)).Nodup →
        ∃ name, c.validate = .error (.repeatedSuite name) ∧ Repeats [] c.suites name)) := by
  have judged := validate_eq_ok_iff_complete (c := c)
  have names := Plan.nodup_stageNames_iff c provider
  refine ⟨judged, fun accepted => ?_, fun complete => ⟨?_, not_congr names.symm, ?_⟩⟩
  · obtain ⟨complete, distinct⟩ := judged.mp accepted
    exact Plan.guaranteed_of_complete complete distinct provider
  · rw [ne_eq, judged, names]
    exact not_congr (and_iff_right complete)
  · intro twice
    rcases complete.validate_eq with ⟨-, distinct⟩ | refused
    · exact absurd distinct twice
    · exact refused

section Sample

/-- A configuration that says where the release goes, and nothing else. -/
def plainConfig : Config :=
  { Config.default with target := { TargetSettings.default with remoteUrl := "u" } }

/-- The same, with both suites of one name. -/
def twinConfig : Config :=
  { plainConfig with suites := plainConfig.suites.map fun s => { s with name := "library" } }

theorem complete_twinConfig : twinConfig.Complete where
  build := ⟨"cargo", _, rfl, by decide +kernel⟩
  outputDir := by decide
  remoteUrl := by decide +kernel
  branch := by decide +kernel
  artifactPath := by decide +kernel
  commitMessage := by decide +kernel
  envVar := by decide +kernel
  gated := by decide
  suites := by
    have named : Text.isBlank "library" = false := by decide +kernel
    refine List.forall_mem_map.mpr fun s hs => ⟨named, ?_⟩
    rcases List.mem_cons.mp hs with rfl | hs
    · exact ⟨"xcodebuild", _, rfl, by decide +kernel⟩
    · rw [List.mem_singleton.mp hs]
      exact ⟨"xcodebuild", _, rfl, by decide +kernel⟩

theorem validate_guarantees_sample : plainConfig.validate = .ok () ∧
    Plan.Guaranteed plainConfig (.environment "TOKEN") ∧
    twinConfig.Complete ∧ twinConfig.validate = .error (.repeatedSuite "library") ∧
    ¬(Plan.stageNames (Plan.stages twinConfig (.environment "TOKEN"))).Nodup := by
  have accepted : plainConfig.validate = .ok () := by decide +kernel
  have refused : twinConfig.validate = .error (.repeatedSuite "library") := by decide +kernel
  obtain ⟨-, guaranteed, -⟩ := Config.validate_guarantees plainConfig (.environment "TOKEN")
  obtain ⟨-, -, converse⟩ := Config.validate_guarantees twinConfig (.environment "TOKEN")
  obtain ⟨refused_iff, -, -⟩ := converse complete_twinConfig
  refine ⟨accepted, guaranteed accepted, complete_twinConfig, refused, refused_iff.mp ?_⟩
  rw [refused]
  exact nofun

end Sample
end GatedRelease
