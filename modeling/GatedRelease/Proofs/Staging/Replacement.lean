import GatedRelease.Proofs.Staging.Course
import GatedRelease.Rehearsal
import Mathlib.Data.List.Flatten

/-! # Staging is an exact replacement

When staging succeeds, the tree in the place is the one that the source was when it began, entry
for entry; nothing else has changed but for directories above the place (`stage_replaces`).

A tree that making those directories has added to would be seen by its digest, unless the two
encodings are a collision of the hash: a tree with more entries has a longer encoding.

The way to the place must not lead through the place itself.  What is in the place is removed
before the directory above it is looked for, and a way that went through it may then lead elsewhere
(`stage_strays`).
-/
namespace GatedRelease

/-- Two byte strings that the hash does not tell apart. -/
def Sha256.Collision (a b : Bytes) : Prop := a ≠ b ∧ hexDigest a = hexDigest b

namespace Tree
variable {s t : Tree} {l : Location}

theorem record_ne_nil (x : Location × Entry) : record x ≠ [] := by
  obtain ⟨l, e⟩ := x
  cases e <;> simp [record]

/-- Leaving entries out makes the text shorter. -/
theorem eq_of_length_flatMap {xs ys : List (Location × Entry)} (h : xs.Sublist ys)
    (he : (ys.flatMap record).length = (xs.flatMap record).length) : xs = ys := by
  induction h with
  | slnil => rfl
  | @cons xs ys x h _ =>
    have le := (h.flatMap record).length_le
    have pos := List.length_pos_iff.mpr (record_ne_nil x)
    rw [List.flatMap_cons, List.length_append] at he
    omega
  | cons_cons x _ ih =>
    rw [List.flatMap_cons, List.flatMap_cons, List.length_append, List.length_append] at he
    rw [ih (by omega)]

/-- **A tree that holds more is written differently.** -/
theorem eq_of_encoding (h : s ≤ t) (he : t.encoding = s.encoding) : t = s := by
  let kept := t.entries.filter fun x => decide (x ∈ s.entries)
  have members : ∀ x, x ∈ kept ↔ x ∈ s.entries := by
    intro x
    rw [List.mem_filter, decide_eq_true_eq]
    refine and_iff_right_of_imp fun hx => ?_
    have hl := s.rooted x hx
    exact (find?_eq_some_iff hl).mp (h _ _ ((find?_eq_some_iff hl).mpr hx))
  have same : kept = s.entries := eq_of_mem_iff (t.ordered.filter _) s.ordered members
  have all : kept = t.entries := by
    refine eq_of_length_flatMap List.filter_sublist ?_
    have length := congrArg List.length he
    unfold encoding at length
    rw [same]
    exact length
  have entries : t.entries = s.entries := all.symm.trans same
  cases s; cases t; cases entries; rfl

/-- What is below a location grows with the tree. -/
theorem below_le (h : s ≤ t) (l : Location) : s.below l ≤ t.below l := by
  intro k e he
  by_cases hk : k = []
  · rw [hk, find?_root] at he ⊢
    exact he
  · rw [find?_below _ _ hk] at he ⊢
    exact h _ _ he

/-- Trees that differ at or below one place hold the same below a place apart. -/
theorem below_eq_of_apart {k : Location} (hkl : k.within l = none) (hlk : l.within k = none)
    (apart : ∀ j, k.within j = none → s.find? j = t.find? j) : s.below l = t.below l := by
  refine ext_find? fun j => ?_
  by_cases hj : j = []
  · rw [hj, find?_root, find?_root]
  · rw [find?_below _ _ hj, find?_below _ _ hj]
    exact apart _ (Location.within_append_eq_none hkl hlk j)

end Tree

namespace Staging
variable {fs gs fs' : FileSystem} {p q n m suffix : String} {artifact : Artifact}
  {S D T : Location}
open PathText (IsPlain)
open FileSystem (Placed Free)

/-- **Source and place are apart**, and the hash would tell the source from what the directories
above the place may make of it. -/
structure Separate (artifact : Artifact) (p : String) (fs : FileSystem) : Prop where
  apart : ∀ S D, fs.directoryAt artifact.source = .ok S → (fs.withParents p).place p = .ok D →
    S.within D = none ∧ D.within S = none
  distinct : ∀ S, fs.directoryAt artifact.source = .ok S → ¬Sha256.Collision
    ((fs.withParents p).tree.below S).encoding (fs.tree.below S).encoding

/-- **What an exact replacement is**: the tree at `S` has come to `D`. -/
structure Replaced (artifact : Artifact) (p suffix : String) (fs : FileSystem)
    (s : StagedArtifact) (fs' : FileSystem) (S D : Location) : Prop where
  destination : s.destination = p
  source : fs.directoryAt artifact.source = .ok S
  place : fs'.directoryAt p = .ok D
  /-- The place is where it was, if there was one. -/
  stays : ∀ E, fs.place p = .ok E → E = D
  exact : fs'.tree.below D = fs.tree.below S
  files : s.files = (fs.tree.below S).fileCount
  /-- The digest is that of the source, before and after. -/
  before : fs.treeDigest artifact.source = .ok s.digest
  after : fs'.treeDigest artifact.source = .ok s.digest
  copied : (fs'.tree.below D).digest = s.digest
  /-- By its path the place has this digest, too.  Only a path longer than that of the copy may be
  too long for the entries below. -/
  named : (fs'.tree.below D).withinReach p = true ∨
    p.utf8ByteSize ≤ (temporaryPath p suffix).utf8ByteSize → fs'.treeDigest p = .ok s.digest
  rest : ∀ l, D.within l = none → fs'.tree.find? l = fs.tree.find? l ∨ Raised p fs fs' l

/-- All that was found before the copy came is found after. -/
theorem Copied.le {source temporary digest : String} {count : Nat}
    (h : Copied source temporary p digest gs count fs' T S D) : gs.tree ≤ fs'.tree := by
  intro l e he
  rcases Location.within_cases D l with ⟨k, rfl⟩ | hl
  · rcases h.empty with hn | hd
    · rw [Tree.find?_append_eq_none hn] at he
      exact absurd he nofun
    · obtain ⟨hd, hk⟩ := FileSystem.isEmptyDirectory_iff.mp hd
      by_cases hr : k = []
      · rw [hr, List.append_nil] at he ⊢
        rw [← he, hd]
        exact h.placed.there
      · rw [hk k hr] at he
        exact absurd he nofun
  · rw [h.placed.apart l hl]
    exact he

/-- **What was copied is what the source was**, and it is where it was: what the source leads along
was there before the copy was made. -/
theorem Copied.source_stays {source temporary digest : String} {count : Nat} {S₀ : Location}
    {up : FileSystem} (h : Copied source temporary p digest gs count fs' T S D)
    (hS : fs.directoryAt source = .ok S₀) (free : up.Free temporary T) (le : fs.tree ≤ up.tree)
    (le' : gs.tree ≤ up.tree) (home : fs.home = gs.home) :
    S = S₀ ∧ gs.canonical source = .ok S := by
  obtain ⟨hc, -⟩ := FileSystem.directoryAt_iff_canonical.mp hS
  obtain ⟨text, before⟩ := FileSystem.locate_eq_ok_iff.mp hc
  obtain ⟨-, during⟩ := FileSystem.locate_eq_ok_iff.mp h.source
  rw [home] at before
  let u := (up.withCopy T []).tree
  have hs : fs.tree ≤ u := Tree.le_trans le (free.le [])
  have ht : (gs.withCopy T []).tree ≤ u := by
    intro l e he
    rw [h.free.find?_made] at he
    rw [free.find?_made]
    by_cases hl : l = T
    · rw [if_pos hl] at he ⊢
      exact he
    · rw [if_neg hl] at he ⊢
      exact le' _ _ he
  have both : ∀ l e, (gs.withCopy T []).tree.find? l = some e → fs.tree.find? l = some e →
      gs.tree.find? l = some e := by
    intro l e he he'
    rcases Location.within_cases T l with ⟨k, rfl⟩ | hl
    · have := le _ _ he'
      rw [Tree.find?_append_eq_none free.vacant] at this
      exact absurd this nofun
    · rw [FileSystem.find?_withCopy _ _ hl] at he
      exact he
  refine ⟨FileSystem.Walks.unique during before ht hs, ?_⟩
  exact FileSystem.locate_eq_ok_iff.mpr ⟨text, during.both before ht hs both⟩

/-- Without a collision, a tree that has grown and is digested as before is as before. -/
theorem below_eq_of_digest (le : fs.tree ≤ gs.tree)
    (distinct : ¬Sha256.Collision (gs.tree.below S).encoding (fs.tree.below S).encoding)
    (same : (gs.tree.below S).digest = (fs.tree.below S).digest) :
    gs.tree.below S = fs.tree.below S := by
  refine Tree.eq_of_encoding (Tree.below_le le S) ?_
  by_contra hne
  exact distinct ⟨hne, same⟩

/-- **A replacement that comes to its end** is exact. -/
theorem Copied.replaced {digest : String} {count : Nat} (site : Site p suffix q n m)
    (way : Passable p suffix fs) (separate : Separate artifact p fs)
    (hd : fs.treeDigest artifact.source = .ok digest)
    (room : Emptied p (fs.withParents p) gs)
    (h : Copied artifact.source (temporaryPath p suffix) p digest gs count fs' T S D) :
    Replaced artifact p suffix fs ⟨p, digest, count⟩ fs' S D := by
  obtain ⟨S₀, hS, reach, rfl⟩ := FileSystem.treeDigest_eq_ok_iff.mp hd
  have made := site.made fs
  have le := room.le site.artifact
  have hT := FileSystem.place_mono site.copy h.free.place room.home.symm le
  obtain ⟨same, stays⟩ := h.source_stays hS
    (FileSystem.free_of_place site.copy hT way.unused) made.grows.le le
    (made.home.symm.trans room.home.symm)
  subst same
  have hD := FileSystem.place_mono site.artifact h.place room.home.symm le
  obtain ⟨hSD, hDS⟩ := separate.apart S D hS hD
  have hsource : fs.tree.find? S = some .directory :=
    (FileSystem.directoryAt_iff_canonical.mp hS).2
  -- The tree that was copied is apart from the place, and has not grown.
  have held : gs.tree.below S = (fs.withParents p).tree.below S :=
    Tree.below_eq_of_apart hDS hSD fun k => room.apart site.artifact hD
  have digest := h.digest
  rw [held] at digest
  have sub : gs.tree.below S = fs.tree.below S :=
    held.trans (below_eq_of_digest made.grows.le (separate.distinct S hS) digest)
  have after : fs'.tree.below S = fs.tree.below S :=
    (Tree.below_eq_of_apart hDS hSD h.placed.apart).trans sub
  have exact : fs'.tree.below D = fs.tree.below S := h.placed.below.trans sub
  have home : fs'.home = fs.home := h.placed.home.trans (room.home.trans made.home)
  have apart (k : Location) (hk : D.within k = none) :
      fs'.tree.find? k = (fs.withParents p).tree.find? k :=
    (h.placed.apart k hk).trans (room.apart site.artifact hD hk)
  have source : fs'.directoryAt artifact.source = .ok S := by
    refine FileSystem.directoryAt_iff_canonical.mpr ⟨?_, ?_⟩
    · obtain ⟨text, walks⟩ := FileSystem.locate_eq_ok_iff.mp stays
      rw [← h.placed.home] at walks
      exact FileSystem.locate_eq_ok_iff.mpr ⟨text, walks.mono h.le⟩
    · rw [apart S hDS]
      exact made.grows.le _ _ hsource
  have place : fs'.directoryAt p = .ok D :=
    site.directoryAt way.detached hD home apart h.placed.there
  exact
    { destination := rfl
      source := hS
      place := place
      stays := by
        intro E hE
        have later := FileSystem.place_mono site.artifact hE made.home made.grows.le
        rw [hD] at later
        exact (Except.ok.inj later).symm
      exact := exact
      files := by rw [h.count, sub]
      before := hd
      after := by
        refine FileSystem.treeDigest_eq_ok_iff.mpr ⟨S, source, ?_, ?_⟩
        · rw [after]
          exact reach
        · rw [after]
      copied := by rw [exact]
      named := by
        intro short
        have reach : (fs'.tree.below D).withinReach p = true := by
          refine short.elim id fun le => ?_
          rw [h.placed.below]
          exact Tree.withinReach_of_le site.artifact site.copy le h.reach
        exact FileSystem.treeDigest_eq_ok_iff.mpr ⟨D, place, reach, by rw [exact]⟩
      rest := fun l hl => site.rest way.detached hD home apart hl }

/-- **Staging is an exact replacement.**  For all files, whatever is in the place: if staging
succeeds, all of the source is there and nothing else, and all other files are as they were. -/
theorem stage_replaces {σ : Type} (o : Outside σ) (w : World σ) (artifact : Artifact)
    (r : Repository) {s : StagedArtifact} (plain : IsPlain artifact.dest)
    (way : Passable (target artifact r.checkout) (suffixText w.nonce) w.files)
    (separate : Separate artifact (target artifact r.checkout) w.files)
    (success : ((stage artifact r).run.play o w).value = .ok s) :
    ∃ S D, Replaced artifact (target artifact r.checkout) (suffixText w.nonce) w.files s
      ((stage artifact r).run.play o w).world.files S D := by
  obtain ⟨⟨q, n, m, site⟩, course⟩ := stage_course o w plain way
  rw [success] at course
  cases course with
  | done _ hd room copied => exact ⟨_, _, copied.replaced site way separate hd room⟩

section Sample

/-- The location of a path of plain names, from the root. -/
def locationOf (p : String) : Location := (PathText.pieces p).filterMap Name.ofString?

/-- Files that entries make up, parents first, with the root as the place to start from. -/
def filesOf (xs : List (String × Entry)) : FileSystem :=
  ⟨Tree.empty.plant [] (xs.map fun x => (locationOf x.1, x.2)), []⟩

/-- Nothing is there but files. -/
def worldOf (fs : FileSystem) : World Rehearsal.Cast := ⟨fs, [], false, 0, .start [] []⟩

/-- A checkout `r` with something in the place of the artifact, and an artifact `s`. -/
def sampleFiles : FileSystem := filesOf [("r", .directory), ("r/L", .directory),
  ("r/L/old", .file [111] false), ("s", .directory), ("s/f", .file [110] true)]

def sampleArtifact : Artifact := ⟨"s", "L"⟩

def sampleRepository : Repository := ⟨"", "r", "main"⟩

/-- The sample is put into its place. -/
def sampleRun : Played Rehearsal.Cast (Except StagingFailure StagedArtifact) :=
  (stage sampleArtifact sampleRepository).run.play Rehearsal.outside (worldOf sampleFiles)

theorem plain_sample : IsPlain "L" := ⟨["L"], by simp, by decide +kernel, rfl⟩

theorem place_sample : sampleFiles.place "r/L" = .ok (locationOf "r/L") := by decide +kernel

theorem withParents_sample : sampleFiles.withParents "r/L" = sampleFiles := by
  obtain ⟨q, n, m, site⟩ := site_of_isPlain plain_sample "r" (slash_not_mem_suffixText 0)
  exact site.withParents_of_place place_sample

theorem passable_sample : Passable "r/L" (suffixText 0) sampleFiles := by
  refine ⟨fun l hl => ?_, fun T hT => ?_⟩
  · rw [withParents_sample, place_sample] at hl
    rw [withParents_sample, ← Except.ok.inj hl]
    decide +kernel
  · have beside : sampleFiles.place (temporaryPath "r/L" (suffixText 0)) =
        .ok (locationOf (temporaryPath "r/L" (suffixText 0))) := by decide +kernel
    rw [withParents_sample, beside] at hT
    rw [withParents_sample, ← Except.ok.inj hT]
    decide +kernel

theorem stage_replaces_sample :
    IsPlain sampleArtifact.dest ∧ Passable "r/L" (suffixText 0) sampleFiles ∧
    Separate sampleArtifact "r/L" sampleFiles ∧
    ∃ s, sampleRun.value = .ok s ∧ ∃ S D,
      Replaced sampleArtifact "r/L" (suffixText 0) sampleFiles s sampleRun.world.files S D := by
  have separate : Separate sampleArtifact "r/L" sampleFiles := by
    have source : sampleFiles.directoryAt "s" = .ok (locationOf "s") := by decide +kernel
    refine ⟨fun S D hS hD => ?_, fun S _ hc => ?_⟩
    · rw [withParents_sample, place_sample] at hD
      rw [← Except.ok.inj (source.symm.trans hS), ← Except.ok.inj hD]
      decide +kernel
    · rw [withParents_sample] at hc
      exact hc.1 rfl
  have done : sampleRun.value.toOption.isSome = true := by decide +kernel
  obtain ⟨s, success⟩ : ∃ s, sampleRun.value = .ok s := by
    cases hv : sampleRun.value with
    | ok s => exact ⟨s, rfl⟩
    | error f =>
      rw [hv] at done
      exact absurd done nofun
  exact ⟨plain_sample, passable_sample, separate, s, success,
    stage_replaces Rehearsal.outside (worldOf sampleFiles) sampleArtifact sampleRepository
      plain_sample passable_sample separate success⟩

/-- A checkout `r/L/t/../../x`, the way to which goes along the link `t` in the place of the
artifact to `r/e/s/t`, and back along the link `x` in `r/e` to `r`. -/
def strayFiles : FileSystem := filesOf [("r", .directory), ("r/L", .directory),
  ("r/L/t", .link "../e/s/t"), ("r/e", .directory), ("r/e/s", .directory),
  ("r/e/s/t", .directory), ("r/e/x", .link ".."), ("r/x", .directory), ("s", .directory),
  ("s/f", .file [110] false)]

def strayRepository : Repository := ⟨"", "r/L/t/../../x", "main"⟩

/-- The path of the place. It names `r/L` as long as the link is there. -/
def strayPath : String := "r/L/t/../../x/L"

def strayRun : Played Rehearsal.Cast (Except StagingFailure StagedArtifact) :=
  (stage sampleArtifact strayRepository).run.play Rehearsal.outside (worldOf strayFiles)

/-- **A way through the place leads astray.**  With the link, `r/L` was the place; without it, the
artifact is put into `r/x/L`.  Whichever of the two is taken for the place, something apart from it
is not as it was. -/
theorem stage_strays :
    IsPlain sampleArtifact.dest ∧ strayFiles.directoryAt "s" = .ok (locationOf "s") ∧
    strayFiles.place strayPath = .ok (locationOf "r/L") ∧
    (∀ x ∈ strayFiles.tree.entries, x.1.getLast?.map (·.text) ≠
      some s!".L.staging-{suffixText 0}") ∧
    strayRun.value.toOption.map (·.destination) = some strayPath ∧
    ∀ D, D = locationOf "r/L" ∨ D = locationOf "r/x/L" → ∃ l, D.within l = none ∧
      strayRun.world.files.tree.find? l ≠ strayFiles.tree.find? l ∧
      ¬Raised strayPath strayFiles strayRun.world.files l := by
  have before : strayFiles.tree.find? (locationOf "r/L/t") = some (.link "../e/s/t") ∧
      strayFiles.tree.find? (locationOf "r/x/L/f") = none := by decide +kernel
  have after : strayRun.value.toOption.map (·.destination) = some strayPath ∧
      strayRun.world.files.tree.find? (locationOf "r/L/t") = some .directory ∧
      strayRun.world.files.tree.find? (locationOf "r/x/L/f") = some (.file [110] false) := by
    decide +kernel
  refine ⟨plain_sample, by decide +kernel, by decide +kernel, by decide +kernel, after.1, ?_⟩
  rintro D (rfl | rfl)
  · refine ⟨locationOf "r/x/L/f", by decide +kernel, ?_, fun raised => ?_⟩
    · rw [after.2.2, before.2]
      exact nofun
    · exact absurd (after.2.2.symm.trans raised.after) nofun
  · refine ⟨locationOf "r/L/t", by decide +kernel, ?_, fun raised => ?_⟩
    · rw [after.2.1, before.1]
      exact nofun
    · exact absurd (before.1.symm.trans raised.before) nofun

end Sample

end Staging
end GatedRelease
