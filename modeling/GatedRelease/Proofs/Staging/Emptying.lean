import GatedRelease.Proofs.Staging.Replacement

/-! # What was in the place

Whether anything is in the place is asked with all links gone along, and so it is asked of what the
entry there leads to.  An entry that leads somewhere is removed, and the place then holds the source
or nothing.  A link that leads nowhere is taken for nothing: it is not removed before the copy comes,
no directory can be moved onto it, and it is not cleared away afterwards either, though the error
says that the place was left empty (`stage_empties`, `stage_keeps_link`).
-/
namespace GatedRelease.Staging
variable {fs gs : FileSystem} {p q n m suffix digest : String} {artifact : Artifact}
  {S D : Location} {e : Entry}
open PathText (IsPlain)

theorem fill_apply (artifact : Artifact) (p digest suffix : String) (fs : FileSystem) :
    fill artifact p digest suffix fs = match populate artifact.source p digest suffix fs with
      | (.ok count, fs') => (.ok ⟨p, digest, count⟩, fs')
      | (.error f, fs') => (.error (.notPopulated p f),
          if fs'.pathExists p = true then (FileSystem.removeAny p fs').2 else fs') := by
  unfold fill
  rw [FileStep.bind_apply, FileStep.orElseSay_apply, clearingOnFailure_apply]
  rcases populate artifact.source p digest suffix fs with ⟨_ | _, _⟩ <;> rfl

/-- **A readable source** replaces what its destination leads to, or is put where nothing is. -/
theorem replace_of_readable (plain : IsPlain artifact.dest) (checkout : String)
    (readable : fs.treeDigest artifact.source = .ok digest) :
    replace artifact checkout suffix fs =
      if fs.pathExists (target artifact checkout) = true then
        match FileSystem.removeAny (target artifact checkout) fs with
        | (.ok (), gs) => fill artifact (target artifact checkout) digest suffix gs
        | (.error c, gs) => (.error (.notRemoved (target artifact checkout) c), gs)
      else fill artifact (target artifact checkout) digest suffix fs := by
  have hp : destination artifact.dest checkout = .ok (target artifact checkout) :=
    destination_of_isPlain plain checkout
  obtain ⟨S, hS, -⟩ := FileSystem.treeDigest_eq_ok_iff.mp readable
  have there : fs.isDirectory artifact.source = true := FileSystem.isDirectory_iff.mpr ⟨S, hS⟩
  unfold replace
  rw [FileStep.bind_apply, FileStep.look_apply, hp]
  dsimp only
  rw [FileStep.bind_apply, FileStep.get_apply]
  dsimp only
  rw [there, if_neg (by decide), FileStep.bind_apply, FileStep.orElseSay_apply,
    FileStep.look_apply, readable]
  dsimp only [Except.mapError]
  rw [FileStep.bind_apply, FileStep.get_apply]
  dsimp only
  generalize target artifact checkout = p
  by_cases there : fs.pathExists p = true
  · rw [if_pos there, if_pos there, FileStep.bind_apply, FileStep.orElseSay_apply]
    generalize FileSystem.removeAny p fs = removal
    obtain ⟨_ | _, gs⟩ := removal <;> rfl
  · rw [if_neg there, if_neg there]
    rfl

/-- The error that is told when the place could not be filled. -/
theorem message_notPopulated (p : String) (f : PopulateFailure) :
    (StagingFailure.notPopulated p f).message =
      f.toError.message ++ s!"; destination {p} left empty" := by
  unfold StagingFailure.message
  dsimp only
  rw [String.append_assoc, String.append_assoc, String.append_assoc]
  rfl

/-- A place that holds something other than a directory takes no copy. -/
theorem Copied.vacant {source temporary expected : String} {count : Nat} {fs' : FileSystem}
    {T : Location} (h : Copied source temporary p expected fs count fs' T S D)
    (site : PathText.Under p q n) (astray : fs.pathExists p = false) : fs.tree.find? D = none := by
  refine h.empty.resolve_right fun empty => ?_
  have there := FileSystem.directoryAt_of_place h.place site
    (FileSystem.isEmptyDirectory_iff.mp empty).1
  exact absurd ((FileSystem.pathExists_of_directoryAt there).symm.trans astray) nofun

/-- **Nothing is moved onto an entry that leads nowhere**, and it stays. -/
theorem fill_of_astray (artifact : Artifact) (digest : String) (site : Site p suffix q n m)
    (way : Passable p suffix fs)
    (hD : fs.place p = .ok D) (held : fs.tree.find? D = some e)
    (astray : fs.pathExists p = false) :
    ∃ f, fill artifact p digest suffix fs = (.error (.notPopulated p f), fs) := by
  have made := site.withParents_of_place hD
  have unused := way.unused
  rw [fill_apply]
  rcases populate_cases artifact.source digest site unused with
    ⟨f, he⟩ | ⟨count, fs', T, S, E, he, copied⟩
  · refine ⟨f, ?_⟩
    rw [he, made]
    dsimp only
    rw [if_neg (by rw [astray]; exact nofun)]
  · rw [made] at copied
    rw [Except.ok.inj (hD.symm.trans copied.place)] at held
    exact absurd (held.symm.trans (copied.vacant site.artifact astray)) nofun

/-- **What leads somewhere is gone** once it is removed: the place holds the source, or nothing. -/
theorem fill_of_removed (site : Site p suffix q n m) (way : Passable p suffix fs)
    (readable : fs.treeDigest artifact.source = .ok digest) (hD : fs.place p = .ok D)
    (hS : fs.directoryAt artifact.source = .ok S) (apart : S.within D = none ∧ D.within S = none) :
    (∃ s fs', fill artifact p digest suffix (fs.without D) = (.ok s, fs') ∧
        Replaced artifact p suffix fs s fs' S D) ∨
      ∃ f, fill artifact p digest suffix (fs.without D) =
        (.error (.notPopulated p f), fs.without D) := by
  have made := site.withParents_of_place hD
  have detached := way.detached
  rw [made] at detached
  have hD' := detached D hD
  have room : Emptied p (fs.withParents p) ((fs.without D).withParents p) := by
    rw [made, site.withParents_of_place hD']
    exact Or.inr ⟨D, hD, rfl⟩
  have vacant := room.vacant site.artifact site.copy way.unused
  rw [fill_apply]
  rcases populate_cases artifact.source digest site vacant with
    ⟨f, he⟩ | ⟨count, fs', T, S', D', he, copied⟩
  · refine Or.inr ⟨f, ?_⟩
    rw [he, site.withParents_of_place hD']
    dsimp only
    have gone : (fs.without D).pathExists p = false := by
      refine FileSystem.Vacant.not_pathExists (fun E hE => ?_) site.artifact
      have here := FileSystem.find?_without_within fs (FileSystem.place_ne_nil hD site.artifact) []
      rw [List.append_nil] at here
      rw [← Except.ok.inj (hD'.symm.trans hE)]
      exact here
    rw [if_neg (by rw [gone]; exact nofun)]
  · rw [he]
    have separate : Separate artifact p fs := by
      refine ⟨fun S₁ D₁ h₁ h₂ => ?_, fun S₁ _ hc => ?_⟩
      · rw [made] at h₂
        rw [← Except.ok.inj (hS.symm.trans h₁), ← Except.ok.inj (hD.symm.trans h₂)]
        exact apart
      · rw [made] at hc
        exact hc.1 rfl
    have replaced := copied.replaced site way separate readable room
    obtain rfl := Except.ok.inj (hS.symm.trans replaced.source)
    obtain rfl := replaced.stays D hD
    exact Or.inl ⟨_, fs', rfl, replaced⟩

/-- **What an entry in the place comes to.**  For all files with an entry in the place, of whatever
kind, and a readable source apart from it: if the entry leads somewhere, the place holds the source
in the end, or nothing and staging fails; and if it is a link that leads nowhere, staging fails with
the link in its place.  Both failures say that the place was left empty. -/
theorem stage_empties {σ : Type} (o : Outside σ) (w : World σ) (artifact : Artifact)
    (r : Repository) (plain : IsPlain artifact.dest)
    (way : Passable (target artifact r.checkout) (suffixText w.nonce) w.files)
    (source : w.files.directoryAt artifact.source = .ok S)
    (readable : w.files.treeDigest artifact.source = .ok digest)
    (place : w.files.place (target artifact r.checkout) = .ok D)
    (held : w.files.tree.find? D = some e) (apart : S.within D = none ∧ D.within S = none) :
    (w.files.pathExists (target artifact r.checkout) = true →
      (∃ s, ((stage artifact r).run.play o w).value = .ok s ∧
        Replaced artifact (target artifact r.checkout) (suffixText w.nonce) w.files s
          ((stage artifact r).run.play o w).world.files S D) ∨
      ∃ f why, ((stage artifact r).run.play o w).value = .error f ∧
        f.message = why ++ s!"; destination {target artifact r.checkout} left empty" ∧
        ((stage artifact r).run.play o w).world.files = w.files.without D ∧
        ∀ k, ((stage artifact r).run.play o w).world.files.tree.find? (D ++ k) = none) ∧
    (w.files.pathExists (target artifact r.checkout) = false →
      ∃ f why, ((stage artifact r).run.play o w).value = .error f ∧
        f.message = why ++ s!"; destination {target artifact r.checkout} left empty" ∧
        ((stage artifact r).run.play o w).world.files = w.files) := by
  obtain ⟨q, n, m, site⟩ :=
    site_of_isPlain plain r.checkout (slash_not_mem_suffixText w.nonce)
  have step := (play_stage o w artifact r).trans (replace_of_readable plain r.checkout readable)
  generalize ((stage artifact r).run.play o w).value = value at step ⊢
  generalize ((stage artifact r).run.play o w).world.files = files at step ⊢
  change Site (target artifact r.checkout) (suffixText w.nonce) q n m at site
  generalize target artifact r.checkout = p at *
  refine ⟨fun there => ?_, fun astray => ?_⟩
  · have made := site.withParents_of_place place
    have detached := way.detached
    rw [made] at detached
    rw [if_pos there, FileSystem.removeAny_of_detached site.artifact place held
      (detached D place)] at step
    dsimp only at step
    rcases fill_of_removed site way readable place source apart with
      ⟨s, fs', done, replaced⟩ | ⟨f, left⟩
    · obtain ⟨rfl, rfl⟩ := Prod.mk.inj (step.trans done)
      exact Or.inl ⟨s, rfl, replaced⟩
    · obtain ⟨rfl, rfl⟩ := Prod.mk.inj (step.trans left)
      refine Or.inr ⟨_, _, rfl, message_notPopulated p f, rfl, ?_⟩
      exact FileSystem.find?_without_within _ (FileSystem.place_ne_nil place site.artifact)
  · rw [if_neg (by rw [astray]; exact nofun)] at step
    obtain ⟨f, kept⟩ := fill_of_astray artifact digest site way place held astray
    obtain ⟨rfl, rfl⟩ := Prod.mk.inj (step.trans kept)
    exact ⟨_, _, rfl, message_notPopulated p f, rfl⟩

section Sample

def samplePath : String := "r/L"

theorem source_sample : sampleFiles.directoryAt "s" = .ok (locationOf "s") := by decide +kernel

theorem stage_empties_sample :
    IsPlain sampleArtifact.dest ∧ Passable "r/L" (suffixText 0) sampleFiles ∧
    sampleFiles.place "r/L" = .ok (locationOf "r/L") ∧ sampleFiles.pathExists "r/L" = true ∧
    ((∃ s, sampleRun.value = .ok s ∧ Replaced sampleArtifact "r/L" (suffixText 0) sampleFiles s
        sampleRun.world.files (locationOf "s") (locationOf "r/L")) ∨
      ∃ f why, sampleRun.value = .error f ∧
        f.message = why ++ s!"; destination {samplePath} left empty" ∧
        sampleRun.world.files = sampleFiles.without (locationOf "r/L") ∧
        ∀ k, sampleRun.world.files.tree.find? (locationOf "r/L" ++ k) = none) := by
  have reach : (sampleFiles.tree.below (locationOf "s")).withinReach "s" = true := by
    decide +kernel
  have readable := FileSystem.treeDigest_eq_ok_iff.mpr ⟨_, source_sample, reach, rfl⟩
  have held : sampleFiles.tree.find? (locationOf "r/L") = some .directory := by decide +kernel
  have there : sampleFiles.pathExists "r/L" = true := by decide +kernel
  have outcome := stage_empties Rehearsal.outside (worldOf sampleFiles) sampleArtifact
    sampleRepository plain_sample passable_sample source_sample readable place_sample held
    (by decide +kernel)
  exact ⟨plain_sample, passable_sample, place_sample, there, outcome.1 there⟩

/-- A link that leads nowhere in the place of the artifact. -/
def danglingFiles : FileSystem := filesOf [("r", .directory), ("r/L", .link "nowhere"),
  ("s", .directory), ("s/f", .file [110] false)]

def danglingRun : Played Rehearsal.Cast (Except StagingFailure StagedArtifact) :=
  (stage sampleArtifact sampleRepository).run.play Rehearsal.outside (worldOf danglingFiles)

/-- **A link that leads nowhere is in the place to the end**, and what is told is that the place was
left empty. -/
theorem stage_keeps_link :
    IsPlain sampleArtifact.dest ∧ danglingFiles.directoryAt "s" = .ok (locationOf "s") ∧
    (danglingFiles.treeDigest "s").toOption.isSome = true ∧
    danglingFiles.place "r/L" = .ok (locationOf "r/L") ∧
    danglingFiles.tree.find? (locationOf "r/L") = some (.link "nowhere") ∧
    (∃ f, danglingRun.value = .error f ∧
      f.message = "io error: Not a directory (os error 20); destination r/L left empty") ∧
    danglingRun.world.files.tree.find? (locationOf "r/L") = some (.link "nowhere") := by
  have before : danglingFiles.directoryAt "s" = .ok (locationOf "s") ∧
      (danglingFiles.treeDigest "s").toOption.isSome = true ∧
      danglingFiles.place "r/L" = .ok (locationOf "r/L") ∧
      danglingFiles.tree.find? (locationOf "r/L") = some (.link "nowhere") := by decide +kernel
  have after : danglingRun.value = .error (.notPopulated "r/L" (.file .notDirectory)) ∧
      danglingRun.world.files.tree.find? (locationOf "r/L") = some (.link "nowhere") := by
    decide +kernel
  have told : (StagingFailure.notPopulated "r/L" (.file .notDirectory)).message =
      "io error: Not a directory (os error 20); destination r/L left empty" := by decide +kernel
  exact ⟨plain_sample, before.1, before.2.1, before.2.2.1, before.2.2.2, ⟨_, after.1, told⟩, after.2⟩

end Sample

end GatedRelease.Staging
