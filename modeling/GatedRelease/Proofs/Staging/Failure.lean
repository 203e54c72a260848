import GatedRelease.Proofs.Staging.Replacement

/-! # What a failed staging leaves

Staging can fail at every step of the copy, when what was in the place is gone already.  However it
fails, the place holds what it held or nothing, the copy is gone, and all else is as it was but for
directories above the place (`stage_failed`).  If it fails because of the destination or the source,
nothing has changed at all.

As with success, the way to the place must not lead through the place: what is cleared away in the
end may else be something that staging has not put there (`stage_clears_astray`).
-/
namespace GatedRelease.Staging
variable {fs gs : FileSystem} {p q n m suffix : String} {f : StagingFailure}
open PathText (IsPlain)

/-- **What is left of a staging that failed.** -/
structure Undone (p suffix : String) (fs : FileSystem) (f : StagingFailure) (fs' : FileSystem) :
    Prop where
  kind : ∃ reason, f.toError = .stagingFailure reason
  /-- The place holds what it held, or nothing. -/
  place : ∀ D, (fs.withParents p).place p = .ok D →
    (∀ k, fs'.tree.find? (D ++ k) = fs.tree.find? (D ++ k)) ∨
      ∀ k, fs'.tree.find? (D ++ k) = none
  /-- In the place of the copy there is nothing that was not there. -/
  copy : ∀ T, (fs.withParents p).place (temporaryPath p suffix) = .ok T →
    ∀ k, fs'.tree.find? (T ++ k) = fs.tree.find? (T ++ k)
  rest : ∀ l, (∀ D, (fs.withParents p).place p = .ok D → D.within l = none) →
    fs'.tree.find? l = fs.tree.find? l ∨ Raised p fs fs' l

theorem undone_refl (p suffix : String) (fs : FileSystem) (f : StagingFailure) :
    Undone p suffix fs f fs :=
  ⟨⟨f.message, rfl⟩, fun _ _ => Or.inl fun _ => rfl, fun _ _ _ => rfl, fun _ _ => Or.inl rfl⟩

/-- **An emptied place** is all that there is to see of a failure. -/
theorem Emptied.undone (room : Emptied p (fs.withParents p) gs) (site : Site p suffix q n m)
    (way : Passable p suffix fs) (f : StagingFailure) : Undone p suffix fs f gs := by
  have made := site.made fs
  refine ⟨⟨f.message, rfl⟩, fun D hD => ?_, fun T hT k => ?_, fun l hl => ?_⟩
  · rcases room with rfl | ⟨E, hE, rfl⟩
    · exact Or.inl (site.untouched way.detached hD)
    · obtain rfl := Except.ok.inj (hD.symm.trans hE)
      have hne := FileSystem.place_ne_nil hD site.artifact
      exact Or.inr (FileSystem.find?_without_within _ hne)
  · have vacant := Tree.find?_append_eq_none (way.unused T hT) k
    rw [Tree.absent_of_le (room.le site.artifact) vacant, Tree.absent_of_le made.grows.le vacant]
  · rcases room with rfl | ⟨D, hD, rfl⟩
    · exact (made.grows l).imp_right fun ⟨hn, hd⟩ => ⟨hn, hd, made.named l hn hd⟩
    · have hne := FileSystem.place_ne_nil hD site.artifact
      exact site.rest way.detached hD made.home
        (fun k hk => FileSystem.find?_without_apart _ hne hk) (hl D hD)

/-- The destination is refused, or the source is. -/
def Refused (artifact : Artifact) (checkout : String) (fs : FileSystem) : Prop :=
  (∃ e, destination artifact.dest checkout = .error e) ∨
    fs.isDirectory artifact.source = false ∨ ∃ e, fs.treeDigest artifact.source = .error e

/-- **A failed staging leaves no part of the artifact.**  For all files, wherever the source is: the
place holds what it held or nothing, and if the destination or the source was refused, nothing has
changed. -/
theorem stage_failed {σ : Type} (o : Outside σ) (w : World σ) (artifact : Artifact)
    (r : Repository) {f : StagingFailure}
    (legal : (∃ e, destination artifact.dest r.checkout = .error e) ∨ IsPlain artifact.dest ∧
      Passable (target artifact r.checkout) (suffixText w.nonce) w.files)
    (failure : ((stage artifact r).run.play o w).value = .error f) :
    Undone (target artifact r.checkout) (suffixText w.nonce) w.files f
        ((stage artifact r).run.play o w).world.files ∧
      (Refused artifact r.checkout w.files →
        ((stage artifact r).run.play o w).world.files = w.files) := by
  rcases legal with ⟨e, he⟩ | ⟨plain, way⟩
  · have step := (play_stage o w artifact r).trans (replace_refused he)
    have same : ((stage artifact r).run.play o w).world.files = w.files := congrArg Prod.snd step
    rw [same]
    exact ⟨undone_refl _ _ _ f, fun _ => rfl⟩
  · obtain ⟨⟨q, n, m, site⟩, course⟩ := stage_course o w plain way
    rw [failure] at course
    generalize ((stage artifact r).run.play o w).world.files = fs' at course ⊢
    cases course with
    | refused _ => exact ⟨undone_refl _ _ _ f, fun _ => rfl⟩
    | failed hd hs room =>
      refine ⟨room.undone site way f, fun refused => ?_⟩
      rcases refused with ⟨e, he⟩ | hn | ⟨e, he⟩
      · rw [destination_of_isPlain plain] at he
        exact absurd he nofun
      · exact absurd (hd.symm.trans hn) nofun
      · exact absurd (hs.symm.trans he) nofun

section Sample

/-- The checkout is to be staged into itself. -/
def nestedArtifact : Artifact := ⟨"r", "L"⟩

def nestedRun : Played Rehearsal.Cast (Except StagingFailure StagedArtifact) :=
  (stage nestedArtifact sampleRepository).run.play Rehearsal.outside (worldOf sampleFiles)

theorem stage_failed_sample :
    ((∃ e, destination nestedArtifact.dest "r" = .error e) ∨ IsPlain nestedArtifact.dest ∧
      Passable "r/L" (suffixText 0) sampleFiles) ∧
    ∃ f, nestedRun.value = .error f ∧
      Undone "r/L" (suffixText 0) sampleFiles f nestedRun.world.files ∧
      (Refused nestedArtifact "r" sampleFiles → nestedRun.world.files = sampleFiles) := by
  have legal : (∃ e, destination nestedArtifact.dest "r" = .error e) ∨
      IsPlain nestedArtifact.dest ∧ Passable "r/L" (suffixText 0) sampleFiles :=
    Or.inr ⟨plain_sample, passable_sample⟩
  have failed : nestedRun.value.toOption = none := by decide +kernel
  obtain ⟨f, failure⟩ : ∃ f, nestedRun.value = .error f := by
    cases hv : nestedRun.value with
    | error f => exact ⟨f, rfl⟩
    | ok s =>
      rw [hv] at failed
      exact absurd failed nofun
  exact ⟨legal, f, failure, stage_failed Rehearsal.outside (worldOf sampleFiles) nestedArtifact
    sampleRepository legal failure⟩

/-- As `strayFiles`, but with something in the place to which the way leads astray. -/
def heldFiles : FileSystem := filesOf [("r", .directory), ("r/L", .directory),
  ("r/L/t", .link "../e/s/t"), ("r/e", .directory), ("r/e/s", .directory),
  ("r/e/s/t", .directory), ("r/e/x", .link ".."), ("r/x", .directory), ("r/x/L", .directory),
  ("r/x/L/keep", .file [107] false), ("s", .directory), ("s/f", .file [110] false)]

def heldRun : Played Rehearsal.Cast (Except StagingFailure StagedArtifact) :=
  (stage sampleArtifact strayRepository).run.play Rehearsal.outside (worldOf heldFiles)

/-- **A way through the place has other things cleared away.**  Once `r/L` is emptied, the way leads
to `r/x/L`, which is not empty: the copy cannot be moved there, and all that was there is removed.
Whichever of the two is taken for the place, something apart from it is not as it was. -/
theorem stage_clears_astray :
    IsPlain sampleArtifact.dest ∧ heldFiles.place strayPath = .ok (locationOf "r/L") ∧
    (∀ x ∈ heldFiles.tree.entries, x.1.getLast?.map (·.text) ≠
      some s!".L.staging-{suffixText 0}") ∧
    heldRun.value.toOption = none ∧
    ∀ D, D = locationOf "r/L" ∨ D = locationOf "r/x/L" → ∃ l, D.within l = none ∧
      heldRun.world.files.tree.find? l ≠ heldFiles.tree.find? l ∧
      ¬Raised strayPath heldFiles heldRun.world.files l := by
  have before : heldFiles.tree.find? (locationOf "r/L/t") = some (.link "../e/s/t") ∧
      heldFiles.tree.find? (locationOf "r/x/L/keep") = some (.file [107] false) := by
    decide +kernel
  have after : heldRun.value.toOption = none ∧
      heldRun.world.files.tree.find? (locationOf "r/L/t") = some .directory ∧
      heldRun.world.files.tree.find? (locationOf "r/x/L/keep") = none := by
    decide +kernel
  refine ⟨plain_sample, by decide +kernel, by decide +kernel, after.1, ?_⟩
  rintro D (rfl | rfl)
  · refine ⟨locationOf "r/x/L/keep", by decide +kernel, ?_, fun raised => ?_⟩
    · rw [after.2.2, before.2]
      exact nofun
    · exact absurd (before.2.symm.trans raised.before) nofun
  · refine ⟨locationOf "r/L/t", by decide +kernel, ?_, fun raised => ?_⟩
    · rw [after.2.1, before.1]
      exact nofun
    · exact absurd (before.1.symm.trans raised.before) nofun

end Sample

end GatedRelease.Staging
