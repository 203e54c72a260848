import GatedRelease.Proofs.FileSystem.Directories

/-! # Removing and moving

An entry can be removed for good if the way to it does not lead through the entry itself
(`Detached`): what is left is the tree without it (`removeAny_of_detached`).  A directory moves to a
place that holds nothing, or an empty directory, and else nothing happens (`rename_cases`).
-/
namespace GatedRelease.FileSystem
variable {fs fs' : FileSystem} {p q n : String} {l D : Location} {e : Entry}
open PathText (Under)

/-- The files without an entry and all that is below it. -/
def without (fs : FileSystem) (l : Location) : FileSystem := { fs with tree := fs.tree.prune l }

theorem find?_without_within (fs : FileSystem) (hl : l ≠ []) (k : Location) :
    (fs.without l).tree.find? (l ++ k) = none := Tree.find?_prune_within _ hl k

theorem find?_without_apart (fs : FileSystem) (hl : l ≠ []) {k : Location}
    (hk : l.within k = none) : (fs.without l).tree.find? k = fs.tree.find? k :=
  Tree.find?_prune_apart _ hl hk

theorem without_le (fs : FileSystem) (hl : l ≠ []) : (fs.without l).tree ≤ fs.tree :=
  Tree.prune_le _ hl

/-- Nothing is below what is no directory, and so nothing goes with it. -/
theorem find?_without_ne (fs : FileSystem) (hl : l ≠ []) (bare : fs.tree.find? l ≠ some .directory)
    {k : Location} (hk : k ≠ l) : (fs.without l).tree.find? k = fs.tree.find? k := by
  rcases Location.within_cases l k with ⟨rest, rfl⟩ | apart
  · have below : rest ≠ [] := by
      rintro rfl
      exact hk (List.append_nil l)
    rw [Tree.find?_beneath bare below]
    exact find?_without_within fs hl rest
  · exact find?_without_apart fs hl apart

/-- **The way to a place does not lead through the place itself**: when nothing is left there, the
path still names it. -/
def Detached (fs : FileSystem) (p : String) : Prop :=
  ∀ l, fs.place p = .ok l → (fs.without l).place p = .ok l

/-- Nothing is in the place that the path names. -/
def Vacant (fs : FileSystem) (p : String) : Prop :=
  ∀ l, fs.place p = .ok l → fs.tree.find? l = none

theorem place_mono (h : Under p q n) (hD : fs.place p = .ok D) (home : fs'.home = fs.home)
    (le : fs.tree ≤ fs'.tree) : fs'.place p = .ok D := by
  obtain ⟨hp, l, m, hl, hd, hm, rfl⟩ := (place_eq_ok_iff h).mp hD
  exact (place_eq_ok_iff h).mpr ⟨hp, l, m, hl.mono home le, le _ _ hd, hm, rfl⟩

theorem Vacant.not_pathExists (hv : fs.Vacant p) (h : Under p q n) : fs.pathExists p = false := by
  rw [Bool.eq_false_iff]
  intro he
  obtain ⟨D, hD, e, hf⟩ := place_of_pathExists h he
  rw [hv D hD] at hf
  exact absurd hf nofun

theorem lastName_under (h : Under p q n) : lastName p = some n := by
  obtain ⟨dots, -, names⟩ := h.names
  unfold lastName
  rw [names, ← List.append_assoc, List.getLast?_concat]

theorem entryAt_of_place (h : Under p q n) (hD : fs.place p = .ok D)
    (he : fs.tree.find? D = some e) :
    fs.locate false p = .ok D ∧ fs.entryAt p = .ok e := by
  have located : fs.locate false p = .ok D := by
    unfold locate
    rw [steps_under h, spot_of_place hD h, he]
    rfl
  refine ⟨located, ?_⟩
  unfold entryAt
  simp only [located, bind, Except.bind, he]

/-! ## Removing -/

theorem removeFile_apply (h : Under p q n) (hD : fs.place p = .ok D)
    (he : fs.tree.find? D = some e) (hne : e ≠ .directory) :
    removeFile p fs = (.ok (), fs.without D) := by
  obtain ⟨-, h₁, h₂, -⟩ := h.step
  have hd : fs.tree.find? D ≠ some .directory := by
    rw [he]
    exact fun heq => hne (Option.some.inj heq)
  have plain : ¬(some n = none ∨ some n = some "." ∨ some n = some "..") := by
    simp [h₁, h₂]
  refine FileStep.atOnce_ok ?_
  rw [spot_of_place hD h, he, if_neg nofun]
  show (if lastName p = none ∨ lastName p = some "." ∨ lastName p = some ".." then
      Except.error Cause.isDirectory
    else if fs.tree.find? D = some .directory then .error .isDirectory
    else if PathText.endsInSlash p then .error .notDirectory
    else .ok (fs.without D)) = _
  rw [lastName_under h, if_neg plain, if_neg hd, h.slash]
  rfl

theorem removeDirectory_apply (h : Under p q n) (hD : fs.place p = .ok D)
    (hd : fs.tree.find? D = some .directory) (empty : fs.tree.isEmptyDirectory D = true) :
    removeDirectory p fs = (.ok (), fs.without D) := by
  obtain ⟨-, h₁, h₂, -⟩ := h.step
  refine FileStep.atOnce_ok ?_
  rw [spot_of_place hD h, hd, if_neg nofun]
  show (if lastName p = none then Except.error Cause.busy
    else if lastName p = some "." then .error .invalidArgument
    else if lastName p = some ".." then .error .notEmpty
    else if fs.tree.find? D ≠ some .directory then .error .notDirectory
    else if fs.tree.isEmptyDirectory D then .ok (fs.without D)
    else .error .notEmpty) = _
  rw [lastName_under h, if_neg nofun, if_neg (by simpa using h₁), if_neg (by simpa using h₂),
    if_neg (not_not_intro hd), if_pos empty]

theorem isEmptyDirectory_iff {t : Tree} : t.isEmptyDirectory l = true ↔
    t.find? l = some .directory ∧ ∀ k ≠ [], t.find? (l ++ k) = none := by
  unfold Tree.isEmptyDirectory
  rw [Bool.and_eq_true, decide_eq_true_eq, List.isEmpty_iff]
  refine and_congr_right fun _ => ⟨fun h k hk => ?_, fun h => ?_⟩
  · rw [← Tree.find?_below _ _ hk]
    cases he : (t.below l).find? k with
    | none => rfl
    | some e =>
      have := (Tree.find?_eq_some_iff hk).mp he
      rw [h] at this
      exact absurd this List.not_mem_nil
  · refine List.eq_nil_iff_forall_not_mem.mpr fun ⟨k, e⟩ hm => ?_
    have hk : k ≠ [] := (t.below l).rooted _ hm
    have he := (Tree.find?_eq_some_iff hk).mpr hm
    rw [Tree.find?_below _ _ hk, h k hk] at he
    exact absurd he nofun

/-! ### Directories -/

/-- The files with the directory at a location emptied. -/
def emptied (fs : FileSystem) (l : Location) : FileSystem :=
  { fs with tree := (fs.tree.prune l).put l .directory }

section Emptied
variable (rooted : D ≠ []) (hd : fs.tree.find? D = some .directory)
include rooted hd

theorem canHold_emptied : (fs.tree.prune D).CanHold D .directory := by
  refine Tree.canHold_of_absent rooted ?_ (by simpa using Tree.find?_prune_within _ rooted []) _
  have short : D.within D.dropLast = none := by
    refine Location.within_eq_none_iff.mpr fun rest he => ?_
    have length := congrArg List.length he
    have := List.length_pos_iff.mpr rooted
    simp only [List.length_dropLast, List.length_append] at length
    omega
  rw [Tree.find?_prune_apart _ rooted short]
  exact Tree.find?_dropLast rooted hd

theorem find?_emptied (k : Location) : (fs.emptied D).tree.find? k =
    if k = D then some .directory else (fs.without D).tree.find? k :=
  Tree.find?_put (canHold_emptied rooted hd) k

theorem without_le_emptied : (fs.without D).tree ≤ (fs.emptied D).tree := by
  intro k e he
  rw [find?_emptied rooted hd]
  by_cases hk : k = D
  · have gone := find?_without_within fs rooted []
    rw [List.append_nil] at gone
    rw [hk, gone] at he
    exact absurd he nofun
  · rw [if_neg hk]
    exact he

/-- Emptying a directory adds nothing. -/
theorem emptied_le : (fs.emptied D).tree ≤ fs.tree := by
  intro k e he
  rw [find?_emptied rooted hd] at he
  by_cases hk : k = D
  · rw [if_pos hk] at he
    rw [hk, hd, ← he]
  · rw [if_neg hk] at he
    exact without_le fs rooted k e he

theorem isEmptyDirectory_emptied : (fs.emptied D).tree.isEmptyDirectory D = true := by
  refine isEmptyDirectory_iff.mpr ⟨?_, fun k hk => ?_⟩
  · rw [find?_emptied rooted hd, if_pos rfl]
  · rw [find?_emptied rooted hd, if_neg (by simpa using hk)]
    exact find?_without_within fs rooted k

theorem emptied_without : (fs.emptied D).without D = fs.without D := by
  have same : (fs.emptied D).tree.prune D = fs.tree.prune D := by
    refine Tree.ext_find? fun k => ?_
    rcases Location.within_cases D k with ⟨rest, rfl⟩ | hk
    · rw [Tree.find?_prune_within _ rooted, Tree.find?_prune_within _ rooted]
    · rw [Tree.find?_prune_apart _ rooted hk, find?_emptied rooted hd,
        if_neg (Location.ne_of_within hk)]
      rfl
  unfold without
  rw [same]
  rfl

end Emptied

/-- **A directory is emptied, and then removed** if it is still found. -/
theorem removeTree_of_directory (h : Under p q n) (hD : fs.place p = .ok D)
    (hd : fs.tree.find? D = some .directory) : removeTree p fs =
      match removeDirectory p (fs.emptied D) with
      | (.ok (), gs) | (.error .notFound, gs) => (.ok (), gs)
      | (.error e, gs) => (.error e, gs) := by
  obtain ⟨located, entry⟩ := entryAt_of_place h hD hd
  have clear : clearDirectory D fs = (.ok (), fs.emptied D) := FileStep.atOnce_ok rfl
  unfold removeTree
  rw [FileStep.bind_apply, FileStep.look_apply, entry]
  dsimp only
  rw [FileStep.bind_apply, FileStep.look_apply, located]
  dsimp only
  rw [FileStep.bind_apply, clear]
  dsimp only
  rw [FileStep.bind_apply, FileStep.attempt_apply]
  rcases removeDirectory p (fs.emptied D) with ⟨e | u, gs⟩
  · cases e <;> rfl
  · rfl

/-- **A directory is removed with all that is below it**, if the way to it does not lead through
it. -/
theorem removeTree_of_detached (h : Under p q n) (hD : fs.place p = .ok D)
    (hd : fs.tree.find? D = some .directory) (detached : (fs.without D).place p = .ok D) :
    removeTree p fs = (.ok (), fs.without D) := by
  have rooted : D ≠ [] := place_ne_nil hD h
  -- What is left in between is an empty directory.
  have found : (fs.emptied D).place p = .ok D :=
    place_mono h detached rfl (without_le_emptied rooted hd)
  have empty := isEmptyDirectory_emptied rooted hd
  rw [removeTree_of_directory h hD hd,
    removeDirectory_apply h found (isEmptyDirectory_iff.mp empty).1 empty,
    emptied_without rooted hd]

/-- **Whatever is in a place is removed**, if the way there does not lead through it. -/
theorem removeAny_of_detached (h : Under p q n) (hD : fs.place p = .ok D)
    (he : fs.tree.find? D = some e) (detached : (fs.without D).place p = .ok D) :
    removeAny p fs = (.ok (), fs.without D) := by
  unfold removeAny
  rw [FileStep.bind_apply, FileStep.look_apply, (entryAt_of_place h hD he).2]
  cases e with
  | directory => exact removeTree_of_detached h hD he detached
  | file bytes executable => exact removeFile_apply h hD he nofun
  | link target => exact removeFile_apply h hD he nofun

/-! ## Moving -/

theorem hasPlainEnd_under (h : Under p q n) : hasPlainEnd p = true := by
  obtain ⟨-, h₁, h₂, -⟩ := h.step
  unfold hasPlainEnd
  rw [lastName_under h]
  simp [h₁, h₂]

/-- **Two ways of a move of a directory**: it fails and changes nothing, or it puts the directory
into a place that holds nothing, or an empty directory. -/
theorem rename_cases {s r m : String} {S : Location} (hs : Under s r m) (ht : Under p q n)
    (hS : fs.place s = .ok S) (hd : fs.tree.find? S = some .directory)
    (apart : ∀ D, fs.place p = .ok D → S.within D = none ∧ D.within S = none) :
    (∃ e, rename s p fs = (.error e, fs)) ∨
      ∃ D, fs.place p = .ok D ∧
        (fs.tree.find? D = none ∨ fs.tree.isEmptyDirectory D = true) ∧
        rename s p fs = (.ok (), { fs with tree := fs.tree.move S D }) := by
  have source : fs.spot false s (names s) = .ok (.present S) := by
    rw [spot_of_place hS hs, hd, if_neg nofun]
  have ends : (!hasPlainEnd s || !hasPlainEnd p) = false := by
    rw [hasPlainEnd_under hs, hasPlainEnd_under ht]
    rfl
  unfold rename
  cases ha : fs.holder s with
  | error e => exact Or.inl ⟨e, FileStep.atOnce_error (by rw [ha]; rfl)⟩
  | ok a =>
  cases hb : fs.holder p with
  | error e => exact Or.inl ⟨e, FileStep.atOnce_error (by rw [ha, hb]; rfl)⟩
  | ok b =>
  cases hx : fs.spot false p (names p) with
  | error e =>
    refine Or.inl ⟨e, FileStep.atOnce_error ?_⟩
    simp only [ha, hb, ends, source, hx, bind, Except.bind, Bool.false_eq_true, if_false]
  | ok x =>
    have hD : fs.place p = .ok x.location := place_of_spot hx
    obtain ⟨h₁, h₂⟩ := apart _ hD
    have hspot := spot_of_place hD ht
    generalize x.location = D at hD h₁ h₂ hspot
    have other : ¬D = S := Location.ne_of_within h₁
    unfold FileStep.atOnce
    simp only [ha, hb, ends, source, hspot, hd, bind, Except.bind, Bool.false_eq_true, if_false,
      decide_true, Bool.not_true, Bool.false_and, if_true]
    by_cases hn : fs.tree.find? D = none
    · simp only [if_pos hn, h₁, Option.isSome_none, Bool.false_eq_true, if_false]
      exact Or.inr ⟨D, hD, Or.inl hn, rfl⟩
    · simp only [if_neg hn, if_neg other, h₁, h₂, Option.isSome_none, Bool.false_eq_true, if_false]
      by_cases ht : fs.tree.find? D = some .directory
      · by_cases he : fs.tree.isEmptyDirectory D = true
        · simp only [ht, he, ne_eq, not_true_eq_false, if_false, if_true]
          exact Or.inr ⟨D, hD, Or.inr he, rfl⟩
        · simp only [ht, he, ne_eq, not_true_eq_false, if_false]
          exact Or.inl ⟨_, rfl⟩
      · simp only [ht, ne_eq, not_false_eq_true, if_true]
        exact Or.inl ⟨_, rfl⟩

end GatedRelease.FileSystem
