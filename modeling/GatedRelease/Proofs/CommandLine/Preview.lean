import GatedRelease.Proofs.CommandLine.ExitCode
import GatedRelease.Proofs.Plan.Order
import GatedRelease.Proofs.Run.Shape

/-! # The list of stages foretells the run

What is listed of a stage is a text that its action says of itself; what is run is put together by
the action when it is executed, from the same settings.  The two agree: the runner is handed no
command but the words that the stage is listed with, and that at once when the stage begins
(`Plan.listed_of_run`).  The names that are listed are those of the report, and those of which the
digest of the release is taken (`Plan.Foretold`).  Listing itself reads the configuration and does
nothing else, so that a run that comes after it starts where the list was made
(`CommandLine.plan_foretells`).
-/
namespace GatedRelease
variable {σ : Type} {o : Outside σ} {w : World σ}

namespace Plan
variable {c : Config} {provider : CredentialProvider}

/-- What is listed of the stages of a release: their names, and what they are going to do. -/
def listing (c : Config) : List (String × String) :=
  (stages c (Plan.provider c)).map fun s => (s.name, s.describe)

/-- **The words of a command**, as the configuration puts them together, and the name of the stage
that they belong to. -/
inductive Worded (c : Config) : String → List String → Prop
  /-- The toolchain, the flags of the profile, and the features. -/
  | build : Worded c StageKind.build.text (c.build.command ++
      (if c.build.profile = .release ∧ c.build.releaseFlag ≠ "" then [c.build.releaseFlag]
        else []) ++
      (if c.build.noDefaultFeatures then ["--no-default-features"] else []) ++
      (if c.build.features = [] then []
        else ["--features", String.intercalate "," c.build.features]))
  /-- The test runner, the destination, and the cases that are left out. -/
  | gate {s : Suite} : s ∈ c.suites → Worded c (gateName s.name) (s.command ++
      (match s.destination with
        | some d => [s.destinationFlag, d]
        | none => []) ++
      s.skip.map fun case => s.skipFlag ++ case)

/-- **A stage hands no command to the runner but the one that it is listed with**, and that before
anything else. -/
theorem listed_of_command {t : Stage} (ht : t ∈ preparation c ++ [publishStage c provider])
    {ctx : Context} {a : Except ReleaseError Unit × Context} {first last : List Note}
    {command : Command} {reply : Except RunFailure Output}
    (h : (t.action.execute ctx).Yields (first ++ .command command reply :: last) a) :
    first = [] ∧ t.describe = String.intercalate " " command.argv ∧
      Worded c t.name command.argv := by
  have told : Note.command command reply ∈ first ++ .command command reply :: last := by simp
  have alone {known : Command} {reply' : Except RunFailure Output}
      (hn : first ++ .command command reply :: last = [.command known reply']) :
      first = [] ∧ command = known := by
    obtain ⟨hf, hc⟩ | ⟨hf, hc⟩ := List.append_eq_singleton_iff.mp hn
    · exact ⟨hf, (Note.command.inj (List.cons.inj hc).1).1⟩
    · exact absurd hc nofun
  simp only [preparation, List.mem_append, List.mem_cons, List.mem_map, List.not_mem_nil,
    or_false] at ht
  rcases ht with (rfl | rfl | ⟨s, hs, rfl⟩) | rfl
  · rcases Build.action_cases h with ⟨none, -⟩ | ⟨reply', one, -⟩
    · exact absurd none (by simp)
    · obtain ⟨hf, rfl⟩ := alone one
      exact ⟨hf, rfl, .build⟩
  · exact absurd (Staging.prepares_action.note h _ told) id
  · obtain ⟨reply', one, -⟩ := Gate.action_cases h
    obtain ⟨hf, rfl⟩ := alone one
    exact ⟨hf, rfl, .gate hs⟩
  · exact absurd (Publisher.uses_action.note h _ told) id

/-- **In a run, whatever command is handed to the runner is the one that its stage is listed with**:
the stage has just begun. -/
theorem listed_of_run {release : Release} {before after : List Note} {command : Command}
    {reply : Except RunFailure Output}
    (h : ((script c (Plan.provider c) release).play o w).notes =
      before ++ .command command reply :: after) :
    ∃ early position ctx name, before = early ++ [.entered position ctx] ∧
      (listing c)[position]? = some (name, String.intercalate " " command.argv) ∧
      Worded c name command.argv := by
  obtain ⟨early, late, rfl, advanced⟩ := Run.run_note (by simp [Note.request]) h
  obtain ⟨done, s, later, taken, q, first, last, hs, passes, -, rfl, performed⟩ :=
    Run.advance_note (by simp [Note.request]) advanced
  have here : s.unlinked ∈ preparation c ++ [publishStage c (Plan.provider c)] := by
    rw [← unlinked_stages, hs]
    exact List.mem_map_of_mem (by simp)
  have acted : (s.unlinked.action.execute q.context).Yields
      (first ++ .command command reply :: last) (q.perform o s).value := by
    rw [← performed]
    exact Script.yields_play o _ _
  obtain ⟨rfl, described, worded⟩ := listed_of_command here acted
  have position : q.before.length = done.length := by
    rw [passes.before]
    simp
  have listed : (listing c)[done.length]? = some (s.name, s.describe) := by
    rw [listing, hs]
    simp
  have same : s.describe = s.unlinked.describe := rfl
  rw [same, described] at listed
  refine ⟨.event (.runStarted release.tag (stages c (Plan.provider c)).length) :: taken ++
    [.moved done.length s.status .running (s.transition .running).1,
      .event (.stageStarted s.name done.length)],
    done.length, q.context, s.name, ?_, listed, worded⟩
  simp [Run.opening, position]

/-! ## What is released -/

theorem stagesDigest_identify (tag directory : String) (names : List String) (w : World σ) :
    ((Release.identify tag directory names).play o w).value.stagesDigest =
      Sha256.hexDigest (names.flatMap fun name => name.toUTF8.toList ++ [0]) := by
  have hs : Release.identify tag directory names = (Release.sourceCommit directory).bind fun sha =>
      .done ⟨tag, directory, sha,
        Sha256.hexDigest (names.flatMap fun name => name.toUTF8.toList ++ [0])⟩ := rfl
  rw [hs, Script.value_bind]
  rfl

/-- **A run keeps to the list**: it reports on the stages that are listed, takes the digest of their
names, and hands each command to the runner as it is listed. -/
structure Foretold (c : Config) (r : RunReport) (notes : List Note) : Prop where
  names : r.stages.map (·.name) = (listing c).map (·.1)
  /-- What is hashed are the names that are listed, in order, each with a NUL after it. -/
  digest : r.release.stagesDigest =
    Sha256.hexDigest ((listing c).flatMap fun x => x.1.toUTF8.toList ++ [0])
  commands {before after : List Note} {command : Command} {reply : Except RunFailure Output} :
    notes = before ++ .command command reply :: after →
      ∃ early position ctx name, before = early ++ [.entered position ctx] ∧
        (listing c)[position]? = some (name, String.intercalate " " command.argv) ∧
        Worded c name command.argv

theorem foretold_carryOut (c : Config) (tag : String) (w : World σ) :
    Foretold c ((carryOut c tag (Plan.provider c)).play o w).value
      ((carryOut c tag (Plan.provider c)).play o w).notes := by
  have listed : (listing c).map (·.1) = stageNames (stages c (Plan.provider c)) := by
    rw [listing, List.map_map]
    rfl
  have hs : carryOut c tag (Plan.provider c) = (Release.identify tag c.build.workingDir
      (stageNames (stages c (Plan.provider c)))).bind (script c (Plan.provider c)) := rfl
  have silent : ∀ n ∈ ((Release.identify tag c.build.workingDir
      (stageNames (stages c (Plan.provider c)))).play o w).notes, n.request.Commandless :=
    (Release.uses_identify trivial trivial trivial).note (Script.yields_play o _ _)
  have digest := stagesDigest_identify (o := o) tag c.build.workingDir
    (stageNames (stages c (Plan.provider c))) w
  rw [hs, Script.value_bind, Script.notes_bind]
  generalize (Release.identify tag c.build.workingDir
    (stageNames (stages c (Plan.provider c)))).play o w = found at silent digest ⊢
  refine ⟨?_, ?_, ?_⟩
  · have shown := congrArg (List.map Prod.fst) (Run.run_shown (o := o) found.value
      (stages c (Plan.provider c)) found.world)
    rw [List.map_map, List.map_map] at shown
    rw [listed]
    exact shown
  · rw [← List.flatMap_map Prod.fst fun name : String => name.toUTF8.toList ++ [0], listed,
      ← digest]
    unfold script
    rw [Run.play_run]
    rfl
  · intro before after command reply h
    rcases append_eq_append_cons h with ⟨rest, hf, -⟩ | ⟨rest, rfl, hr⟩
    · exact absurd (silent (.command command reply) (by rw [hf]; simp)) id
    · obtain ⟨early, position, ctx, name, rfl, listed⟩ := listed_of_run hr
      exact ⟨found.notes ++ early, position, ctx, name, by simp, listed⟩

end Plan

/-! ## The program -/

namespace CommandLine
variable {c : Config} {i j : Invocation} {t u : Timing} {tag : String} {asJson : Bool}

/-- The lines that are printed of the stages of a release. -/
def preview (c : Config) : List String :=
  [s!"Target: {c.target.remoteUrl} ({c.target.branch})", s!"Checkout: {c.target.checkoutDir}",
    s!"Artifact: {c.target.artifactPath}", ""] ++
  ((Plan.listing c).mapIdx fun position x =>
    [s!"  {position + 1}. {x.1}", s!"     {x.2}"]).flatten

/-- Listing the stages reads the configuration, and does nothing else. -/
theorem play_plan (i : Invocation) (hc : configuration o w i = .ok c) :
    (plan i.config i.overrides).run.play o w = ⟨.ok ⟨preview c, none⟩, w, []⟩ := by
  have read : (configured i.config i.overrides).run.play o w = ⟨configuration o w i, w, []⟩ :=
    Script.play_of_reading uses_configured w
  have listed : (Plan.listing c).mapIdx (fun position x =>
      [s!"  {position + 1}. {x.1}", s!"     {x.2}"]) =
      (Plan.stages c (Plan.provider c)).mapIdx planLines := by
    refine List.ext_getElem (by simp [Plan.listing]) fun position _ _ => ?_
    simp [Plan.listing, planLines]
  unfold plan
  rw [ExceptT.run_bind, Script.bind_eq, Script.play_bind, read, hc, preview, listed]
  rfl

/-- The notes of a program that is asked for a release, and its world, are those of the release. -/
theorem play_running {running : List String}
    (hj : Invocation.parse (lookUpVariable w.vars tagVariable) running = .ok j)
    (run : j.task = .run tag asJson) :
    ((program u running).play o w).world =
        ((release u j.config j.overrides tag asJson).run.play o w).world ∧
      ((program u running).play o w).notes =
        ((release u j.config j.overrides tag asJson).run.play o w).notes := by
  have attempt : j.attempt u = release u j.config j.overrides tag asJson := by
    unfold Invocation.attempt
    rw [run]
  rw [play_program hj, play_perform, attempt]
  exact ⟨rfl, rfl⟩

/-- Without a tag there is no release, and nothing is done. -/
theorem idle_of_blank {running : List String}
    (hj : Invocation.parse (lookUpVariable w.vars tagVariable) running = .ok j)
    (run : j.task = .run tag asJson) (blank : Text.isBlank tag = true) :
    ((program u running).play o w).world = w ∧ ((program u running).play o w).notes = [] := by
  obtain ⟨hw, hn⟩ := play_running (o := o) (u := u) hj run
  rcases play_release (o := o) (t := u) j tag asJson w with ⟨e, -, stopped⟩ | ⟨d, given, -, -⟩
  · rw [hw, hn, stopped]
    exact ⟨rfl, rfl⟩
  · exact absurd (blank.symm.trans given) nofun

/-- With a tag, the release keeps to the list, and its report is printed. -/
theorem foretold_of_given {running : List String}
    (hj : Invocation.parse (lookUpVariable w.vars tagVariable) running = .ok j)
    (run : j.task = .run tag asJson) (hc : configuration o w j = .ok c)
    (given : Text.isBlank tag = false) :
    ∃ r, Reported o w j tag r ∧
      ((program u running).play o w).value.stdout =
        text (if asJson then [(r.json u).pretty] else r.lines u) ∧
      Plan.Foretold c r ((program u running).play o w).notes := by
  have reported : Reported o w j tag ((Plan.carryOut c tag (Plan.provider c)).play o w).value :=
    ⟨given, c, hc, rfl⟩
  refine ⟨_, reported, ?_, ?_⟩
  · rw [play_program hj, ← (perform_release (t := u) run).2 _ reported]
    rfl
  · rw [(play_running hj run).2]
    rcases play_release (o := o) (t := u) j tag asJson w with ⟨e, none, -⟩ | ⟨d, -, hd, hr⟩
    · exact absurd reported (none _)
    · obtain rfl : c = d := Except.ok.inj (hc.symm.trans hd)
      rw [hr]
      exact Plan.foretold_carryOut c tag w

/-- **The list foretells the run.**  A program that is asked for the stages prints them, line by
line, and does nothing else: it does not call git, and leaves the files and everything else as they
are.  A program that is asked for the release, with the same configuration, comes to a report; it
prints that, and keeps to the list.  Only if the tag is blank there is no release, and then nothing
is done. -/
theorem plan_foretells {planning running : List String}
    (hi : Invocation.parse (lookUpVariable w.vars tagVariable) planning = .ok i)
    (hj : Invocation.parse (lookUpVariable w.vars tagVariable) running = .ok j)
    (planned : i.task = .plan) (run : j.task = .run tag asJson)
    (same : j.config = i.config ∧ j.overrides = i.overrides)
    (hc : configuration o w i = .ok c) :
    (program t planning).play o w =
      ⟨⟨0, String.join ((preview c).map (· ++ "\n")), ""⟩, w, []⟩ ∧
    (Text.isBlank tag = false → ∃ r, Reported o w j tag r ∧
      ((program u running).play o w).value.stdout =
        text (if asJson then [(r.json u).pretty] else r.lines u) ∧
      Plan.Foretold c r ((program u running).play o w).notes) ∧
    (Text.isBlank tag = true →
      ((program u running).play o w).world = w ∧ ((program u running).play o w).notes = []) := by
  have hc' : configuration o w j = .ok c := by
    rw [configuration, same.1, same.2]
    exact hc
  refine ⟨?_, foretold_of_given hj run hc', idle_of_blank hj run⟩
  have attempt : i.attempt t = plan i.config i.overrides := by
    unfold Invocation.attempt
    rw [planned]
  rw [play_program hi, play_perform, attempt, play_plan i hc]
  rfl

section Sample

/-- Nothing is there, nothing is set, and git has nothing to say. -/
def bareWorld : World Rehearsal.Cast := ⟨⟨.empty, []⟩, [], false, 0, .start [] []⟩

/-- Nothing but the remote is set, by an argument. -/
def plainOverrides : Overrides := ⟨some "u", none, none⟩

theorem plan_foretells_sample :
    configuration Rehearsal.outside bareWorld ⟨"bindship.toml", plainOverrides, .plan⟩ =
      .ok plainConfig ∧
    (program bareTiming ["plan", "--remote-url", "u"]).play Rehearsal.outside bareWorld =
      ⟨⟨0, String.join ((preview plainConfig).map (· ++ "\n")), ""⟩, bareWorld, []⟩ ∧
    (∃ r, Plan.Foretold plainConfig r ((program bareTiming
      ["run", "-t", "v1", "--remote-url", "u"]).play Rehearsal.outside bareWorld).notes) ∧
    (commandRuns ((program bareTiming ["run", "-t", "v1", "--remote-url", "u"]).play
      Rehearsal.outside bareWorld).notes).map (·.1.argv) =
        [["cargo", "run", "--bin", "gen-bindings", "--release"]] := by
  have loaded : configuration Rehearsal.outside bareWorld
      ⟨"bindship.toml", plainOverrides, .plan⟩ = .ok plainConfig := by
    rfl
  have planning : Invocation.parse (lookUpVariable bareWorld.vars tagVariable)
      ["plan", "--remote-url", "u"] = .ok ⟨"bindship.toml", plainOverrides, .plan⟩ := rfl
  have running : Invocation.parse (lookUpVariable bareWorld.vars tagVariable)
      ["run", "-t", "v1", "--remote-url", "u"] =
        .ok ⟨"bindship.toml", plainOverrides, .run "v1" false⟩ := rfl
  obtain ⟨planned, released, -⟩ := plan_foretells (t := bareTiming) (u := bareTiming)
    planning running rfl rfl ⟨rfl, rfl⟩ loaded
  obtain ⟨r, -, -, foretold⟩ := released (by decide +kernel)
  exact ⟨loaded, planned, ⟨r, foretold⟩, by decide +kernel⟩

end Sample
end CommandLine
end GatedRelease
