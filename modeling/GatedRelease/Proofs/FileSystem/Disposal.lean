import GatedRelease.Proofs.FileSystem.Enclosure

/-! # What removing leaves

Removing an entry with all that is below it can end in a few ways (`removeTree_removed`), also if
the way to the entry leads through the entry itself.  In each of them nothing is added and nothing
else is touched, and if it succeeds, the path does not lead to anything any more
(`Removed.not_pathExists`).
-/
namespace GatedRelease.FileSystem
variable {fs fs' : FileSystem} {p q n : String} {l D : Location} {e : Entry}
open PathText (Under)

/-- **What becomes of what is to be removed with all below it.** -/
inductive Removed (fs : FileSystem) (p : String) : Except Cause Unit × FileSystem → Prop
  | refused (e : Cause) : Removed fs p (.error e, fs)
  /-- The entry is gone, and of a link only the link. -/
  | gone {D : Location} {e : Entry} : fs.place p = .ok D → fs.tree.find? D = some e →
      Removed fs p (.ok (), fs.without D)
  /-- The directory is empty, and the path does not lead to it any more. -/
  | lost {D : Location} : fs.place p = .ok D → fs.tree.find? D = some .directory →
      (fs.emptied D).pathExists p = false → Removed fs p (.ok (), fs.emptied D)
  | left {D : Location} (e : Cause) : fs.place p = .ok D → fs.tree.find? D = some .directory →
      Removed fs p (.error e, fs.emptied D)

/-- Where there is less, a path leads to nothing else than before. -/
theorem not_pathExists_of_le (h : Under p q n) (hD : fs.place p = .ok D) (home : fs'.home = fs.home)
    (le : fs'.tree ≤ fs.tree) (gone : fs'.tree.find? D = none) : fs'.pathExists p = false := by
  rw [Bool.eq_false_iff]
  intro there
  obtain ⟨l, hl, e, he⟩ := place_of_pathExists h there
  have same := (place_mono h hl home.symm le).symm.trans hD
  rw [Except.ok.inj same, gone] at he
  exact absurd he nofun

/-- A path that does not name an entry as it stands does not lead to one along links. -/
theorem not_pathExists_of_spot (h : Under p q n)
    (missing : ∀ l, fs.spot false p (names p) ≠ .ok (.present l)) : fs.pathExists p = false := by
  rw [Bool.eq_false_iff]
  intro there
  obtain ⟨D, hD, e, he⟩ := place_of_pathExists h there
  refine missing D ?_
  rw [spot_of_place hD h, he, if_neg nofun]

/-- What a path is found to name is in its place. -/
theorem place_of_entryAt (h : Under p q n) (he : fs.entryAt p = .ok e) :
    ∃ D, fs.place p = .ok D ∧ fs.tree.find? D = some e := by
  obtain ⟨D, located, he⟩ := ok_of_bind he
  obtain ⟨hp, hw⟩ := locate_eq_ok_iff.mp located
  rw [steps_under h] at hw
  refine ⟨D, place_of_spot (spot_eq_ok_iff.mpr ⟨hp, hw⟩), ?_⟩
  cases hf : fs.tree.find? D with
  | none =>
    rw [hf] at he
    exact absurd he nofun
  | some e' =>
    rw [hf] at he
    rw [Except.ok.inj he]

theorem removeTree_of_link {target : String} (h : Under p q n) (hD : fs.place p = .ok D)
    (he : fs.tree.find? D = some (.link target)) : removeTree p fs = (.ok (), fs.without D) := by
  unfold removeTree
  rw [FileStep.bind_apply, FileStep.look_apply, (entryAt_of_place h hD he).2]
  exact removeFile_apply h hD he nofun

theorem removeTree_of_file {bytes : Bytes} {executable : Bool} (h : Under p q n)
    (hD : fs.place p = .ok D) (he : fs.tree.find? D = some (.file bytes executable)) :
    removeTree p fs = (.error .notDirectory, fs) := by
  unfold removeTree
  rw [FileStep.bind_apply, FileStep.look_apply, (entryAt_of_place h hD he).2]
  rfl

/-- **The ways in which removing can end.** -/
theorem removeTree_removed (h : Under p q n) (fs : FileSystem) :
    Removed fs p (removeTree p fs) := by
  cases entry : fs.entryAt p with
  | error e =>
    have refused : removeTree p fs = (.error e, fs) := by
      unfold removeTree
      rw [FileStep.bind_apply, FileStep.look_apply, entry]
    rw [refused]
    exact .refused e
  | ok e =>
    obtain ⟨D, hD, he⟩ := place_of_entryAt h entry
    cases e with
    | file bytes executable =>
      rw [removeTree_of_file h hD he]
      exact .refused _
    | link target =>
      rw [removeTree_of_link h hD he]
      exact .gone hD he
    | directory =>
      have rooted := place_ne_nil hD h
      have empty := isEmptyDirectory_emptied rooted he
      rw [removeTree_of_directory h hD he]
      cases hx : (fs.emptied D).spot false p (names p) with
      | error e =>
        have astray := not_pathExists_of_spot h fun l => by rw [hx]; exact nofun
        have missed : removeDirectory p (fs.emptied D) = (.error e, fs.emptied D) :=
          FileStep.atOnce_error (by rw [hx]; rfl)
        rw [missed]
        cases e with
        | notFound => exact .lost hD he astray
        | _ => exact .left _ hD he
      | ok x =>
        cases x with
        | absent l =>
          have astray := not_pathExists_of_spot h fun l => by rw [hx]; exact nofun
          have missed : removeDirectory p (fs.emptied D) = (.error .notFound, fs.emptied D) :=
            FileStep.atOnce_error (by rw [hx]; rfl)
          rw [missed]
          exact .lost hD he astray
        | present l =>
          -- With less in the tree, the path leads nowhere but to the directory.
          have found : (fs.emptied D).place p = .ok l := place_of_spot hx
          have before : fs.place p = .ok l := place_mono h found rfl (emptied_le rooted he)
          rw [Except.ok.inj (before.symm.trans hD)] at found
          rw [removeDirectory_apply h found (isEmptyDirectory_iff.mp empty).1 empty,
            emptied_without rooted he]
          exact .gone hD he

namespace Removed
variable {r : Except Cause Unit × FileSystem}

theorem home (h : Removed fs p r) : r.2.home = fs.home := by
  cases h <;> rfl

/-- Nothing is added. -/
theorem le (h : Removed fs p r) (hp : Under p q n) : r.2.tree ≤ fs.tree := by
  cases h with
  | refused => exact Tree.le_refl fs.tree
  | gone hD _ => exact without_le fs (place_ne_nil hD hp)
  | lost hD hd _ | left _ hD hd => exact emptied_le (place_ne_nil hD hp) hd

/-- **Nothing is touched but the entry and what is below it.** -/
theorem apart (h : Removed fs p r) (hp : Under p q n)
    (hl : ∀ D, fs.place p = .ok D → D.within l = none) : r.2.tree.find? l = fs.tree.find? l := by
  cases h with
  | refused => rfl
  | gone hD _ => exact find?_without_apart fs (place_ne_nil hD hp) (hl _ hD)
  | lost hD hd _ | left _ hD hd =>
    have rooted := place_ne_nil hD hp
    rw [find?_emptied rooted hd, if_neg (Location.ne_of_within (hl _ hD))]
    exact find?_without_apart fs rooted (hl _ hD)

/-- **If removing succeeds, the path leads to nothing any more.** -/
theorem not_pathExists (h : Removed fs p r) (hp : Under p q n) (ok : r.1 = .ok ()) :
    r.2.pathExists p = false := by
  cases h with
  | refused | left => exact absurd ok nofun
  | lost _ _ astray => exact astray
  | gone hD _ =>
    have rooted := place_ne_nil hD hp
    have gone := find?_without_within fs rooted []
    rw [List.append_nil] at gone
    exact not_pathExists_of_le hp hD rfl (without_le fs rooted) gone

end Removed

end GatedRelease.FileSystem
