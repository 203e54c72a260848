import GatedRelease.Rehearsal
import GatedRelease.Proofs.FileSystem.Disposal
import GatedRelease.Proofs.Plan.Work

/-! # A build does not pass on what was there before

Between the files as they were and those that the command leaves there are the files among which it
is started: nothing can be reached where the artifact is expected (`Clearing`).  What is found there
afterwards has come about since.  A build is clearing, the command, and a look at what it left, and
nothing else (`Fresh`), whatever the runner does.
-/
namespace GatedRelease.Build
open FileSystem (removeTree)
open PathText (Under EndsInStep)

/-! ## Clearing -/

section Clearing
variable {fs : FileSystem} {p q n : String}

theorem clearOutput_apply (p : String) (fs : FileSystem) : clearOutput p fs =
    if fs.pathExists p then
      ((removeTree p fs).1.mapError (BuildFailure.staleOutput p), (removeTree p fs).2)
    else (.ok (), fs) := by
  unfold clearOutput
  rw [FileStep.bind_apply, FileStep.get_apply]
  dsimp only
  split
  · exact FileStep.orElseSay_apply fs (removeTree p) (BuildFailure.staleOutput p)
  · rfl

/-- Whatever the path leads to can be removed. -/
def Removable (p : String) (fs : FileSystem) : Prop :=
  fs.pathExists p = true → (removeTree p fs).1 = .ok ()

/-- **What clearing does to what a path names.** -/
structure Clearing (p : String) (fs : FileSystem) (r : Except BuildFailure Unit × FileSystem) :
    Prop where
  /-- It succeeds if there is nothing, or if what there is can be removed. -/
  succeeds : r.1 = .ok () ↔ Removable p fs
  /-- After a success, nothing can be reached. -/
  absent : r.1 = .ok () → r.2.pathExists p = false
  failure : ∀ f, r.1 = .error f → ∃ cause, f = .staleOutput p cause
  /-- What cannot be reached is left, be it a link that leads nowhere. -/
  untouched : fs.pathExists p = false → r = (.ok (), fs)
  /-- Of a link, only the link is removed. -/
  link : ∀ D target, fs.pathExists p = true → fs.place p = .ok D →
    fs.tree.find? D = some (.link target) →
    r = (.ok (), fs.without D) ∧ ∀ l ≠ D, r.2.tree.find? l = fs.tree.find? l
  /-- A file is not removed. -/
  file : ∀ D bytes executable, fs.place p = .ok D →
    fs.tree.find? D = some (.file bytes executable) → r = (.error (.staleOutput p .notDirectory), fs)
  /-- A directory is removed, if the way to it does not lead through it. -/
  directory : ∀ D, fs.place p = .ok D → fs.tree.find? D = some .directory → fs.Detached p →
    r = (.ok (), fs.without D)
  home : r.2.home = fs.home
  /-- Nothing is added. -/
  less : r.2.tree ≤ fs.tree
  /-- Nothing is touched but the entry and what is below it. -/
  apart : ∀ l, (∀ D, fs.place p = .ok D → D.within l = none) → r.2.tree.find? l = fs.tree.find? l

/-- Where nothing is reached, there may be a link, but no file and no directory. -/
theorem clearing_of_unreachable (h : Under p q n) (missed : fs.pathExists p = false) :
    Clearing p fs (.ok (), fs) := by
  have unreached {D : Location} {e : Entry} (hD : fs.place p = .ok D)
      (he : fs.tree.find? D = some e) (solid : ∀ target, e ≠ .link target) : False := by
    have reached := FileSystem.pathExists_of_place hD h he solid
    rw [missed] at reached
    exact absurd reached (by decide)
  have never : ¬ fs.pathExists p = true := by
    rw [missed]
    decide
  exact {
    succeeds := ⟨fun _ reached => absurd reached never, fun _ => rfl⟩
    absent := fun _ => missed
    failure := nofun
    untouched := fun _ => rfl
    link := fun _ _ reached => absurd reached never
    file := fun _ _ _ hD he => (unreached hD he nofun).elim
    directory := fun _ hD hd _ => (unreached hD hd nofun).elim
    home := rfl
    less := Tree.le_refl fs.tree
    apart := fun _ _ => rfl }

theorem clearing_of_reachable (h : Under p q n) (reached : fs.pathExists p = true) :
    Clearing p fs ((removeTree p fs).1.mapError (.staleOutput p), (removeTree p fs).2) := by
  have removed := FileSystem.removeTree_removed h fs
  refine {
    succeeds := mapError_eq_ok_iff.trans ⟨fun ok _ => ok, fun removable => removable reached⟩
    absent := fun ok => removed.not_pathExists h (mapError_eq_ok_iff.mp ok)
    failure := fun f hf => ?_
    untouched := fun missed => absurd (reached.symm.trans missed) (by decide)
    link := ?_
    file := ?_
    directory := ?_
    home := removed.home
    less := removed.le h
    apart := fun l hl => removed.apart h hl }
  · obtain ⟨cause, -, rfl⟩ := mapError_eq_error_iff.mp hf
    exact ⟨cause, rfl⟩
  · intro D target _ hD he
    rw [FileSystem.removeTree_of_link h hD he]
    refine ⟨rfl, fun l hl => ?_⟩
    have bare : fs.tree.find? D ≠ some .directory := by
      rw [he]
      exact nofun
    exact FileSystem.find?_without_ne fs (FileSystem.place_ne_nil hD h) bare hl
  · intro D bytes executable hD he
    rw [FileSystem.removeTree_of_file h hD he]
    rfl
  · intro D hD hd detached
    rw [FileSystem.removeTree_of_detached h hD hd (detached D hD)]
    rfl

theorem clearOutput_clearing (h : Under p q n) (fs : FileSystem) :
    Clearing p fs (clearOutput p fs) := by
  rw [clearOutput_apply]
  split
  · next reached => exact clearing_of_reachable h reached
  · next missed => exact clearing_of_unreachable h (Bool.eq_false_iff.mpr missed)

end Clearing

/-! ## Building -/

section Building
variable {σ : Type} (o : Outside σ) {w : World σ} {b : BuildSettings} (dest : String)

/-- The output of an earlier build cleared away: what came of it, and the files after it. -/
def cleared (b : BuildSettings) (w : World σ) : Except BuildFailure Unit × FileSystem :=
  clearOutput (outputPath b) w.files

/-- The world in which the command is started. -/
def started (b : BuildSettings) (w : World σ) : World σ := { w with files := (cleared b w).2 }

/-- What the runner answers, and the world that the command leaves. -/
def ran (o : Outside σ) (b : BuildSettings) (w : World σ) : Except RunFailure Output × World σ :=
  (started b w).runCommand o (command b)

/-- What comes of a command once it has been run. -/
def judge (b : BuildSettings) (dest : String) (files : FileSystem) :
    Except RunFailure Output → Except BuildFailure Artifact
  | .error failure => .error (.notRun failure)
  | .ok output =>
    if !output.passed then .error (.toolchain output.exitCode (output.tail failureLines))
    else if files.isDirectory (outputPath b) then .ok ⟨outputPath b, dest⟩
    else .error (.noOutput (outputPath b))

theorem judge_eq_ok_iff {files : FileSystem} {reply : Except RunFailure Output} {a : Artifact} :
    judge b dest files reply = .ok a ↔
      Passed reply ∧ files.isDirectory (outputPath b) = true ∧ a = ⟨outputPath b, dest⟩ := by
  unfold Passed
  cases reply with
  | error failure => exact ⟨nofun, fun ⟨⟨_, h, _⟩, _⟩ => absurd h nofun⟩
  | ok output =>
    dsimp only [judge]
    cases hp : output.passed with
    | false =>
      refine ⟨nofun, fun ⟨⟨_, same, passed⟩, _⟩ => ?_⟩
      rw [← Except.ok.inj same, hp] at passed
      exact absurd passed (by decide)
    | true =>
      cases files.isDirectory (outputPath b) with
      | false => exact ⟨nofun, fun ⟨_, there, _⟩ => absurd there (by decide)⟩
      | true =>
        constructor
        · exact fun h => ⟨⟨output, rfl, hp⟩, rfl, (Except.ok.inj h).symm⟩
        · rintro ⟨-, -, rfl⟩
          rfl

/-- If what is there cannot be removed, there is no more to the build. -/
theorem play_build_of_refused {f : BuildFailure} (refused : (cleared b w).1 = .error f) :
    (build b dest).run.play o w = ⟨.error f, started b w, []⟩ := by
  unfold build
  show Script.play o (ExceptT.bindCont _ (cleared b w).1) (started b w) = _
  rw [refused]
  rfl

/-- **A build that comes to it is the command and a look at what it left.** -/
theorem play_build_of_cleared (clear : (cleared b w).1 = .ok ()) :
    (build b dest).run.play o w = ⟨judge b dest (ran o b w).2.files (ran o b w).1, (ran o b w).2,
      [.command (command b) (ran o b w).1]⟩ := by
  unfold build
  show Script.play o (ExceptT.bindCont _ (cleared b w).1) (started b w) = _
  rw [clear]
  show (Script.play o (ExceptT.bindCont _ (Except.ok (ran o b w).1)) (ran o b w).2).after
    (.command (command b) (ran o b w).1) = _
  cases (ran o b w).1 with
  | error failure => rfl
  | ok output =>
    dsimp only [judge, ExceptT.bindCont]
    cases output.passed with
    | false => rfl
    | true =>
      show (Script.play o (ExceptT.bindCont _
        (.ok ((ran o b w).2.files.isDirectory (outputPath b)))) (ran o b w).2).after _ = _
      cases (ran o b w).2.files.isDirectory (outputPath b) <;> rfl

/-- **How a build comes to its end**, whatever the runner does: it passes if and only if nothing was
left to be found, the command passed, and a directory has come about. -/
structure Fresh (o : Outside σ) (b : BuildSettings) (dest : String) (w : World σ)
    (played : Played σ (Except BuildFailure Artifact)) : Prop where
  clearing : Clearing (outputPath b) w.files (cleared b w)
  /-- If what is there cannot be removed, no command is run. -/
  refused : ∀ f, (cleared b w).1 = .error f → played = ⟨.error f, started b w, []⟩
  /-- Else nothing happens but the command. -/
  performed : (cleared b w).1 = .ok () →
    played.world = (ran o b w).2 ∧ played.notes = [.command (command b) (ran o b w).1]
  once : (commandRuns played.notes).length ≤ 1
  /-- When the command is started, nothing can be reached where the artifact is expected. -/
  empty : played.notes ≠ [] → (started b w).files.pathExists (outputPath b) = false
  passes : ∀ a, played.value = .ok a ↔ Removable (outputPath b) w.files ∧
    (∃ output, (ran o b w).1 = .ok output ∧ output.success = true ∧ output.exitCode = 0) ∧
    (ran o b w).2.files.isDirectory (outputPath b) = true ∧ a = ⟨outputPath b, dest⟩
  /-- As the work of a stage, it hands on the artifact, or fails as a build. -/
  handed : ∀ ctx, ((action b dest).execute ctx).play o w =
    ⟨match played.value with
      | .ok artifact => (.ok (), { ctx with artifact := some artifact })
      | .error f => (.error (.buildFailure f.message), ctx),
      played.world, played.notes⟩

theorem play_action (o : Outside σ) (b : BuildSettings) (dest : String) (w : World σ)
    (ctx : Context) : ((action b dest).execute ctx).play o w =
      ⟨match ((build b dest).run.play o w).value with
        | .ok artifact => (.ok (), { ctx with artifact := some artifact })
        | .error f => (.error (.buildFailure f.message), ctx),
        ((build b dest).run.play o w).world, ((build b dest).run.play o w).notes⟩ := by
  show ((build b dest).run.bind _).play o w = _
  rw [Script.play_bind]
  dsimp only
  cases ((build b dest).run.play o w).value <;> simp [Script.play, BuildFailure.toError]

/-- **A build never passes on what was there before.** -/
theorem build_fresh (o : Outside σ) (b : BuildSettings) (dest : String) (w : World σ)
    (plain : EndsInStep b.outputDir) : Fresh o b dest w ((build b dest).run.play o w) := by
  obtain ⟨q, n, under⟩ := (PathText.endsInStep_join b.workingDir plain).under
  have clearing : Clearing (outputPath b) w.files (cleared b w) :=
    clearOutput_clearing under w.files
  cases clear : (cleared b w).1 with
  | error f =>
    have played := play_build_of_refused o dest clear
    have stuck : ¬Removable (outputPath b) w.files := by
      rw [← clearing.succeeds, clear]
      exact nofun
    have notes : ((build b dest).run.play o w).notes = [] := by rw [played]
    exact {
      clearing := clearing
      refused := fun g hg => by rw [played, ← Except.error.inj (clear.symm.trans hg)]
      performed := fun ok => absurd (clear.symm.trans ok) nofun
      once := by simp [notes]
      empty := fun some => absurd notes some
      passes := fun a => by
        rw [played]
        exact ⟨nofun, fun h => absurd h.1 stuck⟩
      handed := play_action o b dest w }
  | ok u =>
    have played := play_build_of_cleared o dest clear
    exact {
      clearing := clearing
      refused := fun g hg => absurd (clear.symm.trans hg) nofun
      performed := fun _ => by rw [played]; exact ⟨rfl, rfl⟩
      once := by rw [played]; exact Nat.le_refl 1
      empty := fun _ => clearing.absent clear
      passes := fun a => by
        rw [played, ← passed_iff]
        exact (judge_eq_ok_iff dest).trans (and_iff_right (clearing.succeeds.mp clear)).symm
      handed := play_action o b dest w }

end Building

section Sample

/-- The output of an earlier build is there, and the runner passes and leaves these files. -/
def staleWorld (files : List Arrangement) : World Rehearsal.Cast where
  files := Arrangement.arrange ⟨.empty, []⟩ [.file "build/Bindings/old" [111] false]
  vars := []
  cancelled := false
  nonce := 0
  outside := .start [] [⟨fun _ => .ok ⟨0, "", "", true⟩, files, false⟩]

/-- The build among these files. -/
def staleRun (files : List Arrangement) : Played Rehearsal.Cast (Except BuildFailure Artifact) :=
  (build BuildSettings.default "L").run.play Rehearsal.outside (staleWorld files)

/-- With the old output in its place, a build that leaves nothing fails, and one that leaves
something passes with that alone. -/
theorem build_fresh_sample : EndsInStep BuildSettings.default.outputDir ∧
    (staleWorld []).files.isDirectory "build/Bindings" = true ∧
    (staleRun []).value = .error (.noOutput "./build/Bindings") ∧
    (staleRun [.file "build/Bindings/new" [110] false]).value = .ok ⟨"./build/Bindings", "L"⟩ ∧
    (staleRun [.file "build/Bindings/new" [110] false]).world.files.pathExists
      "build/Bindings/old" = false ∧
    ∀ files, Fresh Rehearsal.outside BuildSettings.default "L" (staleWorld files)
      (staleRun files) := by
  have plain : EndsInStep BuildSettings.default.outputDir :=
    PathText.endsInStep_of_last (c := 's') (by decide +kernel) (by decide) (by decide)
  refine ⟨plain, by decide +kernel, by decide +kernel, by decide +kernel, by decide +kernel,
    fun files => build_fresh Rehearsal.outside _ "L" (staleWorld files) plain⟩

end Sample

end GatedRelease.Build
