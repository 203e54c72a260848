import GatedRelease.Proofs.FileSystem.Progress
import GatedRelease.Proofs.Staging.Emptying
import GatedRelease.Proofs.Staging.Failure

/-! # When staging succeeds

What staging needs is written down once (`Favourable`): the way to the place can be made and is
clear, the source is found and stays as it is, and there is a name for the copy.  Then every step of
the replacement succeeds, the check of the copy against the source too, and the files that it comes
to are told by where the place is and what the source holds (`Settled`).  So nothing that was in the
place can be seen in them, and staging from there comes to the same files again
(`stage_succeeds`).

All of it is asked of the files with the missing ancestors of the place made.  Asked of the files
from before, it would not be enough: a path can go on along a directory that is only made on the way,
to what has been there all along (`stage_stumbles`).
-/
namespace GatedRelease

/-- What is not below a place is not below a name beside it, unless it is that name itself. -/
theorem Location.within_beside {S l : Location} {a b : Name}
    (h : S.within (l ++ [a]) = none) (hb : S ≠ l ++ [b]) : S.within (l ++ [b]) = none := by
  rw [Location.within_eq_none_iff] at h ⊢
  intro rest he
  rcases List.eq_nil_or_concat rest with rfl | ⟨front, c, rfl⟩
  · rw [List.append_nil] at he
    exact hb he.symm
  · rw [List.concat_eq_append, ← List.append_assoc] at he
    obtain ⟨front', -⟩ := List.append_inj' he rfl
    refine h (front ++ [a]) ?_
    rw [← List.append_assoc, ← front']

namespace Staging
variable {fs gs fs' : FileSystem} {p q n m suffix source : String} {artifact : Artifact}
  {S D T : Location} {sub : Tree}
open PathText (IsPlain Chain Under)
open FileSystem (Placed Free Fits)

/-! ## Copying -/

/-- **Entries are copied to the last**, if no path is too long. -/
theorem copyEntries_succeeds (target : String) (T : Location) {xs : List (Location × Entry)}
    (fs : FileSystem) (reach : ∀ x ∈ xs,
      (PathText.join source x.1.render).utf8ByteSize < FileSystem.pathLimit ∧
      (PathText.join target x.1.render).utf8ByteSize < FileSystem.pathLimit) :
    copyEntries source target T xs fs =
      (.ok (xs.countP fun x => isFile x.2), { fs with tree := fs.tree.plant T xs }) := by
  induction xs generalizing fs with
  | nil => rfl
  | cons x xs ih =>
    obtain ⟨l, e⟩ := x
    obtain ⟨⟨h₁, h₂⟩, more⟩ := List.forall_mem_cons.mp reach
    rw [copyEntries_cons, if_neg (not_or.mpr ⟨Nat.not_le.mpr h₁, Nat.not_le.mpr h₂⟩), ih _ more,
      List.countP_cons]
    cases isFile e <;> rfl

/-- **A tree is copied** to a free place that is not in it. -/
theorem copyTree_succeeds (hp : Under p q n) (free : fs.Free p T)
    (hS : fs.directoryAt source = .ok S) (apart : S.within T = none)
    (reach : (fs.tree.below S).withinReach source = true)
    (reach' : (fs.tree.below S).withinReach p = true) : copyTree source p fs =
      (.ok (fs.tree.below S).fileCount, fs.withCopy T (fs.tree.below S).entries) := by
  have from' : (fs.withCopy T []).canonical source = .ok S := by
    have : (fs.withCopy T []).directoryAt source = .ok S :=
      FileSystem.directoryAt_mono hS rfl (free.le [])
    exact (FileSystem.directoryAt_iff_canonical.mp this).1
  have there : (fs.withCopy T []).canonical p = .ok T := by
    have := FileSystem.directoryAt_of_place (free.place_withCopy hp []) hp
      (free.find?_there (by simp))
    exact (FileSystem.directoryAt_iff_canonical.mp this).1
  unfold copyTree
  rw [FileStep.bind_apply, free.makeDirectories hp]
  dsimp only
  rw [FileStep.bind_apply, FileStep.look_apply, from']
  dsimp only
  rw [FileStep.bind_apply, FileStep.look_apply, there]
  dsimp only
  rw [if_neg (by simp [apart]), FileStep.bind_apply, FileStep.get_apply]
  dsimp only
  rw [below_withCopy apart, Tree.fileCount_eq]
  refine copyEntries_succeeds p T _ fun x hx => ?_
  exact ⟨of_decide_eq_true (List.all_eq_true.mp reach x hx),
    of_decide_eq_true (List.all_eq_true.mp reach' x hx)⟩

/-- **What is needed to fill a place**: the source and the place are apart, nothing is in the place,
and the name of the copy is free. -/
structure Fillable (source p suffix : String) (gs : FileSystem) (S D T : Location) : Prop where
  found : gs.directoryAt source = .ok S
  place : gs.place p = .ok D
  vacant : gs.tree.find? D = none
  apart : S.within D = none ∧ D.within S = none
  reach : (gs.tree.below S).withinReach source = true
  free : gs.Free (temporaryPath p suffix) T
  copy : (gs.tree.below S).withinReach (temporaryPath p suffix) = true

theorem Fillable.outside (h : Fillable source p suffix gs S D T) (site : Site p suffix q n m) :
    S.within T = none := by
  obtain ⟨-, l, a, hl, -, -, rfl⟩ := (FileSystem.place_eq_ok_iff site.artifact).mp h.place
  obtain ⟨-, k, b, hk, -, -, hT⟩ := (FileSystem.place_eq_ok_iff site.copy).mp h.free.place
  have same : l = k := hl.unique hk (Tree.le_refl _) (Tree.le_refl _) rfl rfl
  rw [hT, ← same]
  refine Location.within_beside h.apart.1 fun he => ?_
  have there := (FileSystem.directoryAt_iff_canonical.mp h.found).2
  rw [he, same, ← hT, h.free.vacant] at there
  exact absurd there nofun

/-- **The check of the copy does not refuse it**, and it comes to its place. -/
theorem copyChecked_succeeds (site : Site p suffix q n m) (h : Fillable source p suffix gs S D T) :
    ∃ fs', copyChecked source (temporaryPath p suffix) p (gs.tree.below S).digest gs =
      (.ok (gs.tree.below S).fileCount, fs') := by
  have outside := h.outside site
  obtain ⟨hS, place, vacant, apart, reach, free, copy⟩ := h
  obtain ⟨-, -, hp, ht, hne⟩ := site
  generalize temporaryPath p suffix = temporary at ht free copy ⊢
  have rooted : ∀ x ∈ (gs.tree.below S).entries, x.1 ≠ [] := (gs.tree.below S).rooted
  have copied := copyTree_succeeds ht free hS outside reach copy
  generalize gs.tree.below S = sub at copy rooted copied ⊢
  have there := free.find?_there rooted
  have digest : (gs.withCopy T sub.entries).treeDigest temporary = .ok sub.digest := by
    refine FileSystem.treeDigest_eq_ok_iff.mpr ⟨T, ?_, ?_, ?_⟩
    · exact FileSystem.directoryAt_of_place (free.place_withCopy ht _) ht there
    · rw [free.below]
      exact copy
    · rw [free.below]
  have beside := FileSystem.places_apart ht hp (Ne.symm hne) free.place place
  have moved := FileSystem.rename_succeeds ht hp (free.place_withCopy ht _) there
    (FileSystem.place_mono hp place rfl (free.le sub.entries))
    ((FileSystem.find?_withCopy gs sub.entries beside.1).trans vacant) beside.1
  unfold copyChecked
  rw [FileStep.bind_apply, FileStep.orElseSay_apply, copied]
  dsimp only [Except.mapError]
  rw [FileStep.bind_apply, FileStep.orElseSay_apply, FileStep.look_apply, digest]
  dsimp only [Except.mapError]
  rw [if_neg (not_not_intro rfl), FileStep.bind_apply, FileStep.orElseSay_apply, moved]
  exact ⟨_, rfl⟩

/-- **A place is filled**, once the directories above it are made. -/
theorem populate_succeeds (site : Site p suffix q n m)
    (made : FileSystem.makeDirectories q fs = (.ok (), fs.withParents p))
    (h : Fillable source p suffix (fs.withParents p) S D T) :
    ∃ fs', populate source p ((fs.withParents p).tree.below S).digest suffix fs =
      (.ok ((fs.withParents p).tree.below S).fileCount, fs') := by
  have parent : (PathText.parent? p).getD "" = q := by rw [site.parent]; rfl
  obtain ⟨fs', done⟩ := copyChecked_succeeds site h
  unfold populate
  rw [parent, FileStep.bind_apply, FileStep.orElseSay_apply, made]
  dsimp only [Except.mapError]
  rw [clearingOnFailure_apply, done]
  exact ⟨fs', rfl⟩

/-! ## What staging needs -/

theorem Site.names_ne_nil (h : Site p suffix q n m) : FileSystem.names p ≠ [] := by
  obtain ⟨dots, -, names⟩ := h.artifact.names
  rw [names]
  simp

/-- The path of a place goes on from each of its ancestors. -/
theorem Site.goes_on (h : Site p suffix q n m) {a : String} (ha : a ∈ PathText.ancestors p) :
    PathText.isAbsolute a = PathText.isAbsolute p ∧
      ∃ more, FileSystem.names p = FileSystem.names a ++ more ∧ more ≠ [] := by
  obtain ⟨dots, -, names⟩ := h.artifact.names
  have above : PathText.isAbsolute a = PathText.isAbsolute q ∧
      FileSystem.names a <+: FileSystem.names q := by
    rw [h.above] at ha
    rcases List.mem_cons.mp ha with rfl | ha
    · exact ⟨rfl, List.prefix_rfl⟩
    · exact PathText.above_ancestors ha
  obtain ⟨absolute, more, front⟩ := above
  refine ⟨absolute.trans h.artifact.absolute.symm, more ++ (dots ++ [n]), ?_, by simp⟩
  rw [names, ← front, List.append_assoc]

/-- **A name for the copy that can be used**: nothing has it, and it leads to no limit. -/
structure Usable (p suffix : String) (gs : FileSystem) (sub : Tree) : Prop where
  unused : gs.Vacant (temporaryPath p suffix)
  fits : Fits (temporaryPath p suffix)
  reach : sub.withinReach (temporaryPath p suffix) = true

/-- **What staging needs** to succeed, for a source at `S` and a place at `D`. -/
structure Favourable (artifact : Artifact) (p suffix : String) (fs : FileSystem)
    (S D : Location) : Prop where
  ground : fs.Grounded p
  /-- Each ancestor that is there, once the missing ones are made, leads to a directory. -/
  clear : ∀ a ∈ PathText.ancestors p, a ≠ "" → (fs.withParents p).Holds a →
    (fs.withParents p).isDirectory a = true
  destination : ∀ E, (fs.withParents p).place p = .ok E → E = D
  detached : (fs.withParents p).Detached p
  /-- What is in the place is found by the path from the start, and leads somewhere. -/
  entry : (fs.withParents p).Vacant p ∨ fs.pathExists p = true
  /-- The source is found without what is in the place. -/
  source : (fs.without D).directoryAt artifact.source = .ok S
  apart : S.within D = none ∧ D.within S = none
  /-- The missing ancestors are not made in the source. -/
  held : (fs.withParents p).tree.below S = fs.tree.below S
  fits : ∀ a ∈ p :: PathText.ancestors p, a ≠ "" → Fits a
  reach : (fs.tree.below S).withinReach artifact.source = true
  copy : Usable p suffix (fs.withParents p) (fs.tree.below S)

namespace Favourable

/-- **The directories above the place can be made**, and then the place is there. -/
theorem parents (h : Favourable artifact p suffix fs S D) (site : Site p suffix q n m)
    (chain : Chain p (PathText.ancestors p)) :
    FileSystem.makeDirectories q fs = (.ok (), fs.withParents p) ∧
      (fs.withParents p).place p = .ok D := by
  have all : ∀ a ∈ q :: PathText.ancestors q, a ∈ PathText.ancestors p := by
    rw [site.above]
    exact fun _ ha => ha
  have after : fs.withParents p = (FileSystem.makeDirectories q fs).2 := by
    unfold FileSystem.withParents
    rw [site.parent]
    rfl
  rw [site.above] at chain
  cases chain with
  | step follows chain =>
  have clear := h.clear
  rw [after] at clear
  obtain ⟨l, made, leads, hd⟩ := FileSystem.makeDirectories_succeeds chain
    (h.ground.of_follows follows) (fun a ha => h.fits a (.tail _ (all a ha)))
    (fun a ha => clear a (all a ha))
  rw [← after] at made leads hd
  obtain ⟨k, -, place⟩ := FileSystem.place_of_leads site.artifact leads hd
    (h.fits p (.head _) site.artifact.ne_empty)
  refine ⟨made, place.trans ?_⟩
  rw [h.destination _ place]

/-- The source is there with what is in the place, too. -/
theorem found (h : Favourable artifact p suffix fs S D) (hD : D ≠ []) :
    fs.directoryAt artifact.source = .ok S :=
  FileSystem.directoryAt_mono h.source rfl (FileSystem.without_le fs hD)

theorem readable (h : Favourable artifact p suffix fs S D) (hD : D ≠ []) :
    fs.treeDigest artifact.source = .ok (fs.tree.below S).digest :=
  FileSystem.treeDigest_eq_ok_iff.mpr ⟨S, h.found hD, h.reach, rfl⟩

theorem passable (h : Favourable artifact p suffix fs S D) : Passable p suffix fs :=
  ⟨h.detached, h.copy.unused⟩

theorem separate (h : Favourable artifact p suffix fs S D) (hD : D ≠ []) :
    Separate artifact p fs := by
  refine ⟨fun S' D' hS hE => ?_, fun S' hS hc => ?_⟩
  · rw [← Except.ok.inj ((h.found hD).symm.trans hS), h.destination _ hE]
    exact h.apart
  · rw [← Except.ok.inj ((h.found hD).symm.trans hS), h.held] at hc
    exact hc.1 rfl

/-- **Either what the path names is in the place from the start**, or nothing is there. -/
theorem settled (h : Favourable artifact p suffix fs S D) (site : Site p suffix q n m)
    (chain : Chain p (PathText.ancestors p)) :
    fs.pathExists p = true ∧ fs.place p = .ok D ∧ fs.withParents p = fs ∨
      fs.pathExists p = false ∧ (fs.withParents p).tree.find? D = none := by
  cases hx : fs.pathExists p with
  | true =>
    obtain ⟨E, hE, -⟩ := FileSystem.place_of_pathExists site.artifact hx
    have same := site.withParents_of_place hE
    have here := h.destination E (same.symm ▸ hE)
    exact Or.inl ⟨rfl, here ▸ hE, same⟩
  | false =>
    have vacant := h.entry.resolve_right (by rw [hx]; exact nofun)
    exact Or.inr ⟨rfl, vacant D (h.parents site chain).2⟩

end Favourable

/-- **A place that is emptied and stands ready** is filled. -/
theorem fill_succeeds {up : FileSystem} (site : Site p suffix q n m)
    (made : FileSystem.makeDirectories q gs = (.ok (), gs.withParents p))
    (room : Emptied p up (gs.withParents p)) (hD : up.place p = .ok D)
    (ready : (gs.withParents p).place p = .ok D)
    (vacant : (gs.withParents p).tree.find? D = none)
    (hS : (gs.withParents p).directoryAt artifact.source = .ok S)
    (apart : S.within D = none ∧ D.within S = none)
    (reach : (up.tree.below S).withinReach artifact.source = true)
    (copy : Usable p suffix up (up.tree.below S)) :
    ∃ count fs', populate artifact.source p (up.tree.below S).digest suffix gs =
      (.ok count, fs') := by
  have sub : (gs.withParents p).tree.below S = up.tree.below S :=
    Tree.below_eq_of_apart apart.2 apart.1 fun k => room.apart site.artifact hD
  obtain ⟨-, l, a, hl, hd, -, -⟩ := (FileSystem.place_eq_ok_iff site.artifact).mp ready
  obtain ⟨b, -, place⟩ := FileSystem.place_of_leads site.copy hl hd copy.fits
  have unused := room.vacant site.artifact site.copy copy.unused
  have fillable : Fillable artifact.source p suffix (gs.withParents p) S D (l ++ [b]) :=
    { found := hS
      place := ready
      vacant := vacant
      apart := apart
      reach := sub ▸ reach
      free := FileSystem.free_of_place site.copy place unused
      copy := sub ▸ copy.reach }
  obtain ⟨fs', done⟩ := populate_succeeds site made fillable
  rw [sub] at done
  exact ⟨_, fs', done⟩

/-- **What staging leaves**: the source in its place, and all else as it was with the ancestors of
the place made. -/
structure Settled (artifact : Artifact) (p : String) (fs : FileSystem) (S D : Location)
    (r : Except StagingFailure StagedArtifact × FileSystem) : Prop where
  value : r.1 = .ok ⟨p, (fs.tree.below S).digest, (fs.tree.below S).fileCount⟩
  placed : (fs.withParents p).Placed D (fs.tree.below S) r.2
  place : r.2.directoryAt p = .ok D

theorem Favourable.fill (h : Favourable artifact p suffix fs S D) (site : Site p suffix q n m)
    (chain : Chain p (PathText.ancestors p))
    (made : FileSystem.makeDirectories q gs = (.ok (), gs.withParents p))
    (room : Emptied p (fs.withParents p) (gs.withParents p))
    (ready : (gs.withParents p).place p = .ok D)
    (vacant : (gs.withParents p).tree.find? D = none)
    (found : (gs.withParents p).directoryAt artifact.source = .ok S) :
    Settled artifact p fs S D
      (Staging.fill artifact p (fs.tree.below S).digest suffix gs) := by
  have place := (h.parents site chain).2
  have hne := FileSystem.place_ne_nil place site.artifact
  have unused := room.vacant site.artifact site.copy h.copy.unused
  obtain ⟨count, fs', done⟩ : ∃ count fs', populate artifact.source p (fs.tree.below S).digest
      suffix gs = (.ok count, fs') := by
    rw [← h.held]
    exact fill_succeeds site made room place ready vacant found h.apart (h.held ▸ h.reach)
      (h.held ▸ h.copy)
  rw [fill_apply, done]
  rcases populate_cases artifact.source (fs.tree.below S).digest site unused with
    ⟨f, he⟩ | ⟨count', fs'', T, S', D', he, copied⟩
  · exact absurd (Prod.mk.inj (done.symm.trans he)).1 nofun
  · obtain ⟨hc, rfl⟩ := Prod.mk.inj (done.symm.trans he)
    obtain rfl := Except.ok.inj hc
    have replaced := copied.replaced site h.passable (h.separate hne) (h.readable hne) room
    obtain rfl := Except.ok.inj ((h.found hne).symm.trans replaced.source)
    obtain rfl := Except.ok.inj (ready.symm.trans copied.place)
    have files : count = (fs.tree.below S).fileCount := replaced.files
    have home := copied.placed.home.trans room.home
    have apart (k : Location) (hk : D.within k = none) :=
      (copied.placed.apart k hk).trans (room.apart site.artifact place hk)
    exact
      { value := by rw [← files]
        placed := ⟨home, copied.placed.there, replaced.exact, apart⟩
        place := replaced.place }

/-- **A replacement that nothing speaks against** comes to its end. -/
theorem replace_succeeds {checkout : String} (plain : IsPlain artifact.dest)
    (site : Site (target artifact checkout) suffix q n m)
    (chain : Chain (target artifact checkout) (PathText.ancestors (target artifact checkout)))
    (h : Favourable artifact (target artifact checkout) suffix fs S D) :
    Settled artifact (target artifact checkout) fs S D (replace artifact checkout suffix fs) := by
  obtain ⟨made, place⟩ := h.parents site chain
  have hne := FileSystem.place_ne_nil place site.artifact
  rw [replace_of_readable plain checkout (h.readable hne)]
  generalize target artifact checkout = p at *
  rcases h.settled site chain with ⟨there, hD, same⟩ | ⟨astray, vacant⟩
  · obtain ⟨E, hE, e, he⟩ := FileSystem.place_of_pathExists site.artifact there
    obtain rfl := Except.ok.inj (hD.symm.trans hE)
    have detached := h.detached
    rw [same] at detached
    have ready := detached D hD
    rw [if_pos there, FileSystem.removeAny_of_detached site.artifact hD he ready]
    have left : (fs.without D).withParents p = fs.without D := site.withParents_of_place ready
    obtain ⟨-, l, a, leads, hd, -, -⟩ := (FileSystem.place_eq_ok_iff site.artifact).mp ready
    have made' := FileSystem.makeDirectories_of_directory leads hd
      (h.fits q (.tail _ (site.above ▸ .head _)))
    have gone := FileSystem.find?_without_within fs hne []
    rw [List.append_nil] at gone
    refine h.fill site chain (made'.trans (congrArg _ left.symm)) ?_ ?_ ?_ ?_
    · rw [left, same]
      exact Or.inr ⟨D, hD, rfl⟩
    · rw [left]
      exact ready
    · rw [left]
      exact gone
    · rw [left]
      exact h.source
  · rw [if_neg (by rw [astray]; exact nofun)]
    have found : (fs.withParents p).directoryAt artifact.source = .ok S :=
      FileSystem.directoryAt_mono (h.found hne) (site.made fs).home (site.made fs).grows.le
    exact h.fill site chain made (Or.inl rfl) place vacant found

/-! ## Independence of what was in the place -/

theorem without_eq (hD : D ≠ []) (home : gs.home = fs.home)
    (apart : ∀ k, D.within k = none → gs.tree.find? k = fs.tree.find? k) :
    gs.without D = fs.without D := by
  have tree : gs.tree.prune D = fs.tree.prune D := by
    refine Tree.ext_find? fun k => ?_
    rcases Location.within_cases D k with ⟨rest, rfl⟩ | hk
    · rw [Tree.find?_prune_within _ hD, Tree.find?_prune_within _ hD]
    · rw [Tree.find?_prune_apart _ hD hk, Tree.find?_prune_apart _ hD hk, apart k hk]
  unfold FileSystem.without
  rw [tree, home]

theorem without_mono (hD : D ≠ []) (le : fs.tree ≤ gs.tree) :
    (fs.without D).tree ≤ (gs.without D).tree := by
  intro k e he
  rcases Location.within_cases D k with ⟨rest, rfl⟩ | hk
  · rw [FileSystem.find?_without_within fs hD] at he
    exact absurd he nofun
  · rw [FileSystem.find?_without_apart fs hD hk] at he
    rw [FileSystem.find?_without_apart gs hD hk]
    exact le _ _ he

theorem without_of_absent (hD : D ≠ []) (vacant : fs.tree.find? D = none) :
    fs.without D = fs := by
  have tree : fs.tree.prune D = fs.tree := by
    refine Tree.ext_find? fun k => ?_
    rcases Location.within_cases D k with ⟨rest, rfl⟩ | hk
    · rw [Tree.find?_prune_within _ hD, Tree.find?_append_eq_none vacant]
    · rw [Tree.find?_prune_apart _ hD hk]
  unfold FileSystem.without
  rw [tree]

/-- **A tree in its place leaves one way** for the files to be, apart from what was there. -/
theorem placed_unique {a b : FileSystem} (h : fs.Placed D sub a) (h' : gs.Placed D sub b)
    (home : gs.home = fs.home)
    (apart : ∀ k, D.within k = none → gs.tree.find? k = fs.tree.find? k) : b = a := by
  have tree : b.tree = a.tree := by
    refine Tree.ext_find? fun k => ?_
    rcases Location.within_cases D k with ⟨rest, rfl⟩ | hk
    · by_cases hr : rest = []
      · rw [hr, List.append_nil, h.there, h'.there]
      · rw [← Tree.find?_below _ _ hr, ← Tree.find?_below _ _ hr, h.below, h'.below]
    · rw [h.apart k hk, h'.apart k hk, apart k hk]
  have homes : b.home = a.home := h'.home.trans (home.trans h.home.symm)
  cases a
  cases b
  cases tree
  cases homes
  rfl

namespace Favourable
variable {suffix' q' n' m' : String} {S' : Location}

/-- The path of the place names it when nothing is there, if it names it from the start. -/
theorem ready (h : Favourable artifact p suffix fs S D) (hD : fs.place p = .ok D)
    (site : Site p suffix q n m) : (fs.without D).place p = .ok D := by
  have detached := h.detached
  rw [site.withParents_of_place hD] at detached
  exact detached D hD

/-- **States that differ in the place alone** differ in the place alone once its ancestors are
made, and have the same source. -/
theorem alike (h : Favourable artifact p suffix fs S D) (h' : Favourable artifact p suffix' gs S' D)
    (site : Site p suffix q n m) (site' : Site p suffix' q' n' m')
    (chain : Chain p (PathText.ancestors p)) (home : gs.home = fs.home)
    (apart : ∀ k, D.within k = none → gs.tree.find? k = fs.tree.find? k) :
    gs.tree.below S' = fs.tree.below S ∧ (gs.withParents p).home = (fs.withParents p).home ∧
      ∀ k, D.within k = none →
        (gs.withParents p).tree.find? k = (fs.withParents p).tree.find? k := by
  have hne := FileSystem.place_ne_nil (h.parents site chain).2 site.artifact
  have same := without_eq hne home apart
  have source : S' = S := by
    have := h'.source
    rw [same, h.source] at this
    exact (Except.ok.inj this).symm
  have sub : gs.tree.below S = fs.tree.below S :=
    Tree.below_eq_of_apart h.apart.2 h.apart.1 apart
  refine ⟨source ▸ sub, ?_⟩
  -- If the path names the place in one of the states, nothing is made in either.
  have named (ready : (fs.without D).place p = .ok D) :
      fs.withParents p = fs ∧ gs.withParents p = gs := by
    have ready' := ready
    rw [← same] at ready'
    exact ⟨site.withParents_of_place
        (FileSystem.place_mono site.artifact ready rfl (FileSystem.without_le fs hne)),
      site.withParents_of_place
        (FileSystem.place_mono site.artifact ready' rfl (FileSystem.without_le gs hne))⟩
  rcases h.settled site chain with ⟨-, hD, -⟩ | ⟨-, vacant⟩
  · obtain ⟨first, second⟩ := named (h.ready hD site)
    rw [first, second]
    exact ⟨home, apart⟩
  rcases h'.settled site' chain with ⟨-, hD, -⟩ | ⟨-, vacant'⟩
  · obtain ⟨first, second⟩ := named (same ▸ h'.ready hD site')
    rw [first, second]
    exact ⟨home, apart⟩
  -- Nothing is in the place in either state, and so they are one.
  have absent := Tree.absent_of_le (site.made fs).grows.le vacant
  have absent' := Tree.absent_of_le (site'.made gs).grows.le vacant'
  rw [without_of_absent hne absent, without_of_absent hne absent'] at same
  rw [same]
  exact ⟨rfl, fun _ _ => rfl⟩

/-! ## Staging again -/

/-- **Where the way to the place is there**, nothing is to be made, and the ancestors are
directories. -/
theorem of_ready (site : Site p suffix q n m) (ready : (fs.without D).place p = .ok D)
    (entry : fs.tree.find? D = none ∨ fs.pathExists p = true)
    (source : (fs.without D).directoryAt artifact.source = .ok S)
    (apart : S.within D = none ∧ D.within S = none)
    (fits : ∀ a ∈ p :: PathText.ancestors p, a ≠ "" → Fits a)
    (reach : (fs.tree.below S).withinReach artifact.source = true)
    (copy : Usable p suffix fs (fs.tree.below S)) : Favourable artifact p suffix fs S D := by
  have hne := FileSystem.place_ne_nil ready site.artifact
  have stays : fs.place p = .ok D :=
    FileSystem.place_mono site.artifact ready rfl (FileSystem.without_le fs hne)
  have same : fs.withParents p = fs := site.withParents_of_place stays
  have only {E : Location} (hE : fs.place p = .ok E) : E = D :=
    (Except.ok.inj (stays.symm.trans hE)).symm
  exact
    { ground := by
        intro relative
        obtain ⟨l, hl, hd⟩ := FileSystem.directory_before (a := "") site.artifact stays
          relative.symm (by rw [PathText.names_empty, List.nil_append]) site.names_ne_nil
        rw [(FileSystem.leads_empty fs).unique hl (Tree.le_refl _) (Tree.le_refl _) rfl rfl]
        exact hd
      clear := by
        rw [same]
        intro a ha hn _
        obtain ⟨absolute, more, split, onward⟩ := site.goes_on ha
        obtain ⟨l, hl, hd⟩ := FileSystem.directory_before site.artifact stays absolute split onward
        exact FileSystem.isDirectory_iff.mpr
          ⟨l, FileSystem.directoryAt_eq_ok_iff.mpr ⟨(fits a (.tail _ ha) hn).1, hl, hd⟩⟩
      destination := by
        rw [same]
        exact fun _ => only
      detached := by
        rw [same]
        intro E hE
        rw [only hE]
        exact ready
      entry := by
        rw [same]
        refine entry.imp_left fun vacant E hE => ?_
        rw [only hE]
        exact vacant
      source := source
      apart := apart
      held := by rw [same]
      fits := fits
      reach := reach
      copy := by
        rw [same]
        exact copy }

/-- **What staging leaves is as staging needs it**, if there is a name for the copy. -/
theorem again (h : Favourable artifact p suffix fs S D) (site : Site p suffix q n m)
    (site' : Site p suffix' q' n' m') (chain : Chain p (PathText.ancestors p))
    (placed : (fs.withParents p).Placed D (fs.tree.below S) fs')
    (there : fs'.directoryAt p = .ok D) (copy : Usable p suffix' fs' (fs.tree.below S)) :
    fs'.withParents p = fs' ∧ fs'.tree.below S = fs.tree.below S ∧
      Favourable artifact p suffix' fs' S D := by
  have place := (h.parents site chain).2
  have hne := FileSystem.place_ne_nil place site.artifact
  have sub : fs'.tree.below S = fs.tree.below S :=
    (Tree.below_eq_of_apart h.apart.2 h.apart.1 placed.apart).trans h.held
  have left : fs'.without D = (fs.withParents p).without D :=
    without_eq hne placed.home placed.apart
  have ready : (fs'.without D).place p = .ok D := left ▸ h.detached D place
  have source : (fs'.without D).directoryAt artifact.source = .ok S := by
    rw [left]
    exact FileSystem.directoryAt_mono h.source (site.made fs).home
      (without_mono hne (site.made fs).grows.le)
  refine ⟨site.withParents_of_place
    (FileSystem.place_mono site.artifact ready rfl (FileSystem.without_le fs' hne)), sub, ?_⟩
  exact of_ready site' ready (Or.inr (FileSystem.pathExists_of_directoryAt there)) source h.apart
    h.fits (sub ▸ h.reach) (sub ▸ copy)

end Favourable

theorem chain_of_isPlain {d : String} (h : IsPlain d) (checkout : String) :
    Chain (PathText.join checkout d) (PathText.ancestors (PathText.join checkout d)) := by
  obtain ⟨init, n, hp, hn⟩ := PathText.pieces_join_plain checkout h
  refine PathText.chain_ancestors ?_
  rw [hp, PathText.dropIdle_concat hn]

/-- **Staging succeeds, whatever was in the place, and again to the same end.**  For all files that
staging needs: it ends well, with the digest of the source; from any other such files that differ in
the place alone it comes to the same; and what it leaves it does not change when it is done again. -/
theorem stage_succeeds {σ : Type} (o : Outside σ) (w : World σ) (artifact : Artifact)
    (r : Repository) (plain : IsPlain artifact.dest)
    (h : Favourable artifact (target artifact r.checkout) (suffixText w.nonce) w.files S D) :
    let run := (stage artifact r).run.play o w
    run.value = .ok ⟨target artifact r.checkout, (w.files.tree.below S).digest,
      (w.files.tree.below S).fileCount⟩ ∧
    (∀ (w' : World σ) (S' : Location),
      Favourable artifact (target artifact r.checkout) (suffixText w'.nonce) w'.files S' D →
      w'.files.home = w.files.home →
      (∀ k, D.within k = none → w'.files.tree.find? k = w.files.tree.find? k) →
      let other := (stage artifact r).run.play o w'
      other.value = run.value ∧ other.world.files = run.world.files) ∧
    ∀ w' : World σ, w'.files = run.world.files →
      Usable (target artifact r.checkout) (suffixText w'.nonce) w'.files (w.files.tree.below S) →
      let again := (stage artifact r).run.play o w'
      again.value = run.value ∧ again.world.files = run.world.files := by
  intro run
  have chain : Chain (target artifact r.checkout)
    (PathText.ancestors (target artifact r.checkout)) := chain_of_isPlain plain r.checkout
  have sited (w : World σ) :
      ∃ q n m, Site (target artifact r.checkout) (suffixText w.nonce) q n m :=
    site_of_isPlain plain r.checkout (slash_not_mem_suffixText w.nonce)
  have settled {w : World σ} {S : Location}
      (h : Favourable artifact (target artifact r.checkout) (suffixText w.nonce) w.files S D) :
      Settled artifact (target artifact r.checkout) w.files S D
        (((stage artifact r).run.play o w).value,
          ((stage artifact r).run.play o w).world.files) := by
    obtain ⟨q, n, m, site⟩ := sited w
    rw [play_stage]
    exact replace_succeeds plain site chain h
  obtain ⟨q, n, m, site⟩ := sited w
  obtain ⟨value, placed, place⟩ := settled h
  refine ⟨value, fun w' S' h' home apart => ?_, fun w' files copy => ?_⟩
  · obtain ⟨q', n', m', site'⟩ := sited w'
    obtain ⟨value', placed', -⟩ := settled h'
    obtain ⟨sub, homes, aparts⟩ := h.alike h' site site' chain home apart
    rw [sub] at value' placed'
    exact ⟨value'.trans value.symm, placed_unique placed placed' homes aparts⟩
  · obtain ⟨q', n', m', site'⟩ := sited w'
    rw [files] at copy
    obtain ⟨same, sub, favourable⟩ := h.again site site' chain placed place copy
    rw [← files] at same sub favourable
    obtain ⟨value', placed', -⟩ := settled favourable
    rw [sub] at value' placed'
    rw [same] at placed'
    refine ⟨value'.trans value.symm, ?_⟩
    have still : w'.files.Placed D (w.files.tree.below S) w'.files :=
      ⟨rfl, files ▸ placed.there, files ▸ placed.below, fun _ _ => rfl⟩
    exact (placed_unique still placed' rfl fun _ _ => rfl).trans files

section Sample

/-- The sample, with nothing in the place. -/
def clearFiles : FileSystem := sampleFiles.without (locationOf "r/L")

theorem apart_sample (k : Location) (hk : (locationOf "r/L").within k = none) :
    clearFiles.tree.find? k = sampleFiles.tree.find? k :=
  FileSystem.find?_without_apart _ (by decide +kernel) hk

theorem usable_sample {fs : FileSystem} (T : Location)
    (place : fs.place (temporaryPath "r/L" (suffixText 0)) = .ok T)
    (vacant : fs.tree.find? T = none) :
    Usable "r/L" (suffixText 0) fs (sampleFiles.tree.below (locationOf "s")) where
  unused := fun E hE => by
    rw [← Except.ok.inj (place.symm.trans hE)]
    exact vacant
  fits := by decide +kernel
  reach := by decide +kernel

theorem favourable_sample {fs : FileSystem} (h : fs = sampleFiles ∨ fs = clearFiles) :
    Favourable sampleArtifact "r/L" (suffixText 0) fs (locationOf "s") (locationOf "r/L") := by
  obtain ⟨q, n, m, site⟩ := site_of_isPlain plain_sample "r" (slash_not_mem_suffixText 0)
  have sub : fs.tree.below (locationOf "s") = sampleFiles.tree.below (locationOf "s") := by
    rcases h with rfl | rfl
    · rfl
    · exact Tree.below_eq_of_apart (by decide +kernel) (by decide +kernel) apart_sample
  refine Favourable.of_ready site ?_ ?_ ?_ (by decide +kernel) (by decide +kernel) ?_
    (sub ▸ usable_sample (locationOf (temporaryPath "r/L" (suffixText 0))) ?_ ?_)
  all_goals rcases h with rfl | rfl <;> decide +kernel

/-- The sample is staged, also when nothing was in the place, and once more. -/
theorem stage_succeeds_sample :
    let run (fs : FileSystem) :=
      (stage sampleArtifact sampleRepository).run.play Rehearsal.outside (worldOf fs)
    IsPlain sampleArtifact.dest ∧
    (∀ fs, fs = sampleFiles ∨ fs = clearFiles →
      Favourable sampleArtifact "r/L" (suffixText 0) fs (locationOf "s") (locationOf "r/L")) ∧
    (run sampleFiles).value =
      .ok ⟨"r/L", (sampleFiles.tree.below (locationOf "s")).digest, 1⟩ ∧
    ((run clearFiles).value = (run sampleFiles).value ∧
      (run clearFiles).world.files = (run sampleFiles).world.files) ∧
    (run (run sampleFiles).world.files).value = (run sampleFiles).value ∧
      (run (run sampleFiles).world.files).world.files = (run sampleFiles).world.files := by
  intro run
  have staged {fs : FileSystem} (h : Favourable sampleArtifact "r/L" (suffixText 0) fs
      (locationOf "s") (locationOf "r/L")) :
      (run fs).value = .ok ⟨"r/L", (fs.tree.below (locationOf "s")).digest,
        (fs.tree.below (locationOf "s")).fileCount⟩ ∧
      (∀ fs' : FileSystem, Favourable sampleArtifact "r/L" (suffixText 0) fs'
          (locationOf "s") (locationOf "r/L") → fs'.home = fs.home →
        (∀ k, (locationOf "r/L").within k = none → fs'.tree.find? k = fs.tree.find? k) →
        (run fs').value = (run fs).value ∧ (run fs').world.files = (run fs).world.files) ∧
      ∀ files, files = (run fs).world.files →
        Usable "r/L" (suffixText 0) files (fs.tree.below (locationOf "s")) →
        (run files).value = (run fs).value ∧ (run files).world.files = (run fs).world.files := by
    obtain ⟨value, independent, again⟩ := stage_succeeds Rehearsal.outside (worldOf fs)
      sampleArtifact sampleRepository plain_sample h
    exact ⟨value, fun fs' h' => independent (worldOf fs') _ h', fun files => again (worldOf files)⟩
  obtain ⟨value, independent, again⟩ := staged (favourable_sample (Or.inl rfl))
  have count : (sampleFiles.tree.below (locationOf "s")).fileCount = 1 := by decide +kernel
  have unused : (run sampleFiles).world.files.place (temporaryPath "r/L" (suffixText 0)) =
        .ok (locationOf (temporaryPath "r/L" (suffixText 0))) ∧
      (run sampleFiles).world.files.tree.find?
        (locationOf (temporaryPath "r/L" (suffixText 0))) = none := by decide +kernel
  exact ⟨plain_sample, fun _ => favourable_sample, count ▸ value,
    independent clearFiles (favourable_sample (Or.inr rfl)) rfl apart_sample,
    again _ rfl (usable_sample _ unused.1 unused.2)⟩

/-- **What promises staging to succeed**: as what it needs, but nothing is asked of what comes of
making the missing ancestors, of the way to the place, or of the name of the copy. -/
def Promising (artifact : Artifact) (p : String) (fs : FileSystem) (S D : Location) : Prop :=
  (PathText.isAbsolute p = false → fs.tree.find? fs.home = some .directory) ∧
  (∀ a ∈ PathText.ancestors p, a ≠ "" → fs.Holds a → fs.isDirectory a = true) ∧
  (∀ E ∈ (fs.place p).toOption, E = D) ∧ (fs.Holds p → fs.pathExists p = true) ∧
  (fs.without D).directoryAt artifact.source = .ok S ∧
  (S.within D = none ∧ D.within S = none) ∧ (∀ a ∈ p :: PathText.ancestors p, a ≠ "" → Fits a) ∧
  (fs.tree.below S).withinReach artifact.source = true

instance (artifact : Artifact) (p : String) (fs : FileSystem) (S D : Location) :
    Decidable (Promising artifact p fs S D) := inferInstanceAs (Decidable (_ ∧ _))

/-- The sample, with the name for the copy taken. -/
def takenFiles : FileSystem := filesOf [("r", .directory),
  (s!"r/.L.staging-{suffixText 0}", .file [] false), ("s", .directory), ("s/f", .file [110] true)]

/-- As `strayFiles`, but with a file to which the way leads astray. -/
def barredFiles : FileSystem := filesOf [("r", .directory), ("r/L", .directory),
  ("r/L/t", .link "../e/s/t"), ("r/e", .directory), ("r/e/s", .directory),
  ("r/e/s/t", .directory), ("r/e/x", .link ".."), ("r/x", .file [] false), ("s", .directory),
  ("s/f", .file [110] false)]

/-- The sample artifact is staged in a checkout. -/
def runIn (checkout : String) (fs : FileSystem) :
    Played Rehearsal.Cast (Except StagingFailure StagedArtifact) :=
  (stage sampleArtifact ⟨"", checkout, "main"⟩).run.play Rehearsal.outside (worldOf fs)

/-- Staging fails in a checkout, though the place that this is to have promises success. -/
def Stumbles (checkout : String) (fs : FileSystem) (D : Location) : Prop :=
  Promising sampleArtifact (target sampleArtifact checkout) fs (locationOf "s") D ∧
    (runIn checkout fs).value.toOption = none

instance (checkout : String) (fs : FileSystem) (D : Location) :
    Decidable (Stumbles checkout fs D) := inferInstanceAs (Decidable (_ ∧ _))

/-- Once `m` is made, there is a directory in the place that is not empty. -/
theorem stumbles_held : Stumbles "m/../r" sampleFiles (locationOf "r/L") := by decide +kernel

/-- Once `m` is made, an ancestor is there that is a file. -/
theorem stumbles_blocked : Stumbles "m/../r/L/old" sampleFiles (locationOf "r/L/old/L") := by
  decide +kernel

/-- Once `m` is made, the source has more in it than what was read. -/
theorem stumbles_grown : Stumbles "s/m/../../c" sampleFiles (locationOf "c/L") := by
  decide +kernel

/-- Once the place is empty, the way to it leads to a file. -/
theorem stumbles_astray : Stumbles "r/L/t/../../x" barredFiles (locationOf "r/L") := by
  decide +kernel

/-- A file has the name for the copy. -/
theorem stumbles_taken : Stumbles "r" takenFiles (locationOf "r/L") := by decide +kernel

/-- **What promises staging to succeed is not enough.** -/
theorem stage_stumbles :
    IsPlain sampleArtifact.dest ∧
    Stumbles "m/../r" sampleFiles (locationOf "r/L") ∧
    Stumbles "m/../r/L/old" sampleFiles (locationOf "r/L/old/L") ∧
    Stumbles "s/m/../../c" sampleFiles (locationOf "c/L") ∧
    Stumbles "r/L/t/../../x" barredFiles (locationOf "r/L") ∧
    Stumbles "r" takenFiles (locationOf "r/L") :=
  ⟨plain_sample, stumbles_held, stumbles_blocked, stumbles_grown, stumbles_astray, stumbles_taken⟩

end Sample

end Staging
end GatedRelease
