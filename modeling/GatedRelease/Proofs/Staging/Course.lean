import GatedRelease.Proofs.Staging.Copy
import GatedRelease.Proofs.Staging.Destination
import GatedRelease.Script.Run

/-! # The courses that staging can take

A plain destination has a place in the directory above it, and the copy has one beside it (`Site`).
If the way there does not lead through the place itself, what is in the place can always be
removed, so that a replacement ends in one of three ways (`replace_course`): the source is refused
and nothing is done; it fails with the place emptied or untouched (`Emptied`); or the place was
empty and holds all of the source.
-/
namespace GatedRelease

namespace Staging
variable {fs gs : FileSystem} {p q n m suffix : String} {D T k : Location}
open PathText (Under IsStep IsPlain)

/-! ## The place and the place beside it -/

theorem toList_copyName (n suffix : String) : (s!".{n}.staging-{suffix}").toList =
    '.' :: (n.toList ++ (".staging-".toList ++ suffix.toList)) := by
  simp [toString]

theorem length_copyName (n suffix : String) :
    (s!".{n}.staging-{suffix}").length = n.length + suffix.length + 10 := by
  rw [← String.length_toList, toList_copyName, List.length_cons, List.length_append,
    List.length_append, String.length_toList, String.length_toList, String.length_toList]
  have : ".staging-".length = 9 := by decide
  omega

/-- The name of the copy is one step. -/
theorem isStep_copyName {n : String} (hn : IsStep n) (hs : '/' ∉ suffix.toList) :
    IsStep s!".{n}.staging-{suffix}" := by
  have length := length_copyName n suffix
  refine ⟨fun he => ?_, fun he => ?_, fun he => ?_, ?_⟩
  · rw [he] at length
    exact absurd length (by rw [String.length_empty]; omega)
  · rw [he] at length
    have : ".".length = 1 := by decide
    omega
  · rw [he] at length
    have : "..".length = 2 := by decide
    omega
  · rw [toList_copyName]
    simp [hn.2.2.2, hs]

theorem temporaryPath_eq {n : String} (parent : PathText.parent? p = some q)
    (file : PathText.fileName? p = some n) (suffix : String) :
    temporaryPath p suffix = PathText.join q s!".{n}.staging-{suffix}" := by
  unfold temporaryPath
  rw [parent, file]
  rfl

/-- The place of an artifact and that of its copy are in one directory. -/
theorem site_of_isPlain {d : String} (h : IsPlain d) (checkout : String)
    (hs : '/' ∉ suffix.toList) : ∃ q n m, Site (PathText.join checkout d) suffix q n m := by
  obtain ⟨init, n, hp, hn⟩ := PathText.pieces_join_plain checkout h
  obtain ⟨q, parent, file, under, above⟩ :=
    PathText.under_parent hp hn (PathText.endsInSlash_of_step hp hn)
  refine ⟨q, n, s!".{n}.staging-{suffix}", parent, above, under, ?_, fun he => ?_⟩
  · rw [temporaryPath_eq parent file]
    exact PathText.under_join q (isStep_copyName hn hs)
  · have length := length_copyName n suffix
    rw [← he] at length
    omega

/-- Above the place, there are more directories at most. -/
theorem Site.made (h : Site p suffix q n m) (fs : FileSystem) :
    FileSystem.Made (PathText.ancestors p) fs (fs.withParents p) := by
  unfold FileSystem.withParents
  rw [h.above, h.parent]
  exact (FileSystem.makeDirectories_made q fs).1

/-- Where the directory for a place is there, nothing is made. -/
theorem Site.withParents_of_place (h : Site p suffix q n m) (hD : fs.place p = .ok D) :
    fs.withParents p = fs := by
  obtain ⟨-, l, -, hl, -, -, -⟩ := (FileSystem.place_eq_ok_iff h.artifact).mp hD
  unfold FileSystem.withParents
  rw [h.parent]
  exact FileSystem.makeDirectories_of_leads hl

/-! ## Emptying the place -/

/-- The files, or the files without what is in the place. -/
def Emptied (p : String) (fs gs : FileSystem) : Prop :=
  gs = fs ∨ ∃ D, fs.place p = .ok D ∧ gs = fs.without D

namespace Emptied

theorem home (h : Emptied p fs gs) : gs.home = fs.home := by
  rcases h with rfl | ⟨D, -, rfl⟩ <;> rfl

theorem le (h : Emptied p fs gs) (hp : Under p q n) : gs.tree ≤ fs.tree := by
  rcases h with rfl | ⟨D, hD, rfl⟩
  · exact Tree.le_refl _
  · exact FileSystem.without_le _ (FileSystem.place_ne_nil hD hp)

/-- All apart from the place is as it was. -/
theorem apart (h : Emptied p fs gs) (hp : Under p q n) (hD : fs.place p = .ok D)
    (hk : D.within k = none) : gs.tree.find? k = fs.tree.find? k := by
  rcases h with rfl | ⟨E, hE, rfl⟩
  · rfl
  · rw [hD] at hE
    obtain rfl := Except.ok.inj hE
    exact FileSystem.find?_without_apart _ (FileSystem.place_ne_nil hD hp) hk

/-- What is vacant stays vacant. -/
theorem vacant (h : Emptied p fs gs) (hp : Under p q n) {t : String} (ht : Under t q m)
    (hv : fs.Vacant t) : gs.Vacant t := by
  intro T hT
  have before := hv T (FileSystem.place_mono ht hT h.home.symm (h.le hp))
  exact Tree.absent_of_le (h.le hp) before

/-- **Clearing away what is in the place**, if anything is, leaves it emptied. -/
theorem cleared (h : Emptied p fs gs) (hp : Under p q n) (detached : fs.Detached p) :
    Emptied p fs (if gs.pathExists p = true then (FileSystem.removeAny p gs).2 else gs) := by
  by_cases there : gs.pathExists p = true
  · rw [if_pos there]
    obtain ⟨D, hD, e, he⟩ := FileSystem.place_of_pathExists hp there
    rcases h with rfl | ⟨E, hE, rfl⟩
    · rw [FileSystem.removeAny_of_detached hp hD he (detached D hD)]
      exact Or.inr ⟨D, hD, rfl⟩
    · -- There is nothing left to clear away.
      rw [detached E hE] at hD
      obtain rfl := Except.ok.inj hD
      have gone := FileSystem.find?_without_within fs (FileSystem.place_ne_nil hE hp) []
      rw [List.append_nil] at gone
      exact absurd (he.symm.trans gone) nofun
  · rw [if_neg there]
    exact h

end Emptied

/-- What stood in the place is gone once it is removed, and there are directories above it. -/
theorem Site.removed (h : Site p suffix q n m) (detached : (fs.withParents p).Detached p)
    (there : fs.pathExists p = true) : ∃ gs, FileSystem.removeAny p fs = (.ok (), gs) ∧
      Emptied p (fs.withParents p) (gs.withParents p) := by
  obtain ⟨D, hD, e, he⟩ := FileSystem.place_of_pathExists h.artifact there
  rw [h.withParents_of_place hD] at detached ⊢
  refine ⟨fs.without D, FileSystem.removeAny_of_detached h.artifact hD he (detached D hD), ?_⟩
  rw [h.withParents_of_place (detached D hD)]
  exact Or.inr ⟨D, hD, rfl⟩

/-! ## Directories above the place -/

/-- **A directory above the place** that was not there before, named by a path above. -/
structure Raised (p : String) (fs fs' : FileSystem) (l : Location) : Prop where
  before : fs.tree.find? l = none
  after : fs'.tree.find? l = some .directory
  named : ∃ a ∈ PathText.ancestors p, fs'.directoryAt a = .ok l

/-- On the way to a place there are the places of all paths above. -/
theorem Site.leads (h : Site p suffix q n m) (hD : fs.place p = .ok D) {a : String}
    (ha : a ∈ PathText.ancestors p) : ∃ l, fs.Leads a l := by
  obtain ⟨-, l, -, hl, -, -, -⟩ := (FileSystem.place_eq_ok_iff h.artifact).mp hD
  have above : PathText.isAbsolute a = PathText.isAbsolute q ∧
      FileSystem.names a <+: FileSystem.names q := by
    rw [h.above] at ha
    rcases List.mem_cons.mp ha with rfl | ha
    · exact ⟨rfl, List.prefix_rfl⟩
    · exact PathText.above_ancestors ha
  exact hl.above above.1 above.2

/-- **What is apart from the place** is as it was, but for directories above. -/
theorem Site.rest {fs' : FileSystem} (h : Site p suffix q n m)
    (detached : (fs.withParents p).Detached p) (hD : (fs.withParents p).place p = .ok D)
    (home : fs'.home = fs.home)
    (apart : ∀ k, D.within k = none → fs'.tree.find? k = (fs.withParents p).tree.find? k)
    (hk : D.within k = none) : fs'.tree.find? k = fs.tree.find? k ∨ Raised p fs fs' k := by
  have made := h.made fs
  have hne := FileSystem.place_ne_nil hD h.artifact
  rw [apart k hk]
  refine (made.grows k).imp_right fun ⟨hn, hd⟩ => ⟨hn, (apart k hk).trans hd, ?_⟩
  obtain ⟨a, ha, hl⟩ := made.named k hn hd
  obtain ⟨hc, leads, -⟩ := FileSystem.directoryAt_eq_ok_iff.mp hl
  -- The path leads there by what is neither at nor below the place.
  obtain ⟨l, hb⟩ := h.leads (detached D hD) ha
  have here : l = k :=
    hb.unique leads (FileSystem.without_le _ hne) (Tree.le_refl _) rfl rfl
  rw [here] at hb
  have found := hb.mono (home.trans made.home.symm) (Tree.prune_le_of_apart hne apart)
  exact ⟨a, ha, FileSystem.directoryAt_eq_ok_iff.mpr ⟨hc, found, (apart k hk).trans hd⟩⟩

/-- **The path names the place still** when a directory has come there and all else is as it was. -/
theorem Site.directoryAt {fs' : FileSystem} (h : Site p suffix q n m)
    (detached : (fs.withParents p).Detached p) (hD : (fs.withParents p).place p = .ok D)
    (home : fs'.home = fs.home)
    (apart : ∀ k, D.within k = none → fs'.tree.find? k = (fs.withParents p).tree.find? k)
    (there : fs'.tree.find? D = some .directory) : fs'.directoryAt p = .ok D := by
  refine FileSystem.directoryAt_of_place ?_ h.artifact there
  refine FileSystem.place_mono h.artifact (detached D hD) (home.trans (h.made fs).home.symm) ?_
  exact Tree.prune_le_of_apart (FileSystem.place_ne_nil hD h.artifact) apart

/-- **The place itself is left alone** by the making of directories above it. -/
theorem Site.untouched (h : Site p suffix q n m) (detached : (fs.withParents p).Detached p)
    (hD : (fs.withParents p).place p = .ok D) (k : Location) :
    (fs.withParents p).tree.find? (D ++ k) = fs.tree.find? (D ++ k) := by
  have made := h.made fs
  have hne := FileSystem.place_ne_nil hD h.artifact
  refine (made.grows (D ++ k)).resolve_right fun ⟨hn, hd⟩ => ?_
  obtain ⟨a, ha, hl⟩ := made.named _ hn hd
  obtain ⟨hc, leads, -⟩ := FileSystem.directoryAt_eq_ok_iff.mp hl
  obtain ⟨l, hb⟩ := h.leads (detached D hD) ha
  have here : l = D ++ k :=
    hb.unique leads (FileSystem.without_le _ hne) (Tree.le_refl _) rfl rfl
  obtain ⟨e, he⟩ := hb.found (FileSystem.ne_empty_of_checkText hc)
  rw [here, FileSystem.find?_without_within _ hne] at he
  exact absurd he nofun

/-! ## The courses -/

/-- **How a replacement goes.** -/
inductive Course (artifact : Artifact) (p suffix : String) (fs : FileSystem) :
    Except StagingFailure StagedArtifact × FileSystem → Prop
  /-- The source cannot be read, and nothing is done. -/
  | refused {f : StagingFailure} :
      fs.isDirectory artifact.source = false ∨ (∃ e, fs.treeDigest artifact.source = .error e) →
      Course artifact p suffix fs (.error f, fs)
  /-- The place stays as it was or holds nothing. -/
  | failed {f : StagingFailure} {gs : FileSystem} {digest : String} :
      fs.isDirectory artifact.source = true → fs.treeDigest artifact.source = .ok digest →
      Emptied p (fs.withParents p) gs → Course artifact p suffix fs (.error f, gs)
  /-- The place holds the source. -/
  | done {digest : String} {count : Nat} {gs fs' : FileSystem} {T S D : Location} :
      fs.isDirectory artifact.source = true → fs.treeDigest artifact.source = .ok digest →
      Emptied p (fs.withParents p) gs →
      Copied artifact.source (temporaryPath p suffix) p digest gs count fs' T S D →
      Course artifact p suffix fs (.ok ⟨p, digest, count⟩, fs')

/-- **The way to a place can be relied on**: it does not lead through the place itself, and the name
of the copy is not in use. -/
structure Passable (p suffix : String) (fs : FileSystem) : Prop where
  detached : (fs.withParents p).Detached p
  unused : (fs.withParents p).Vacant (temporaryPath p suffix)

/-- **What a replacement does once there is room**: the place is filled, or cleared away again. -/
def fill (artifact : Artifact) (p digest suffix : String) :
    FileStep StagingFailure StagedArtifact := do
  let count ← (clearingOnFailure (populate artifact.source p digest suffix) p
    FileSystem.removeAny).orElseSay (.notPopulated p)
  return ⟨p, digest, count⟩

theorem course_of_populate {artifact : Artifact} {digest : String} (h : Site p suffix q n m)
    (hd : fs.isDirectory artifact.source = true)
    (hs : fs.treeDigest artifact.source = .ok digest) (way : Passable p suffix fs)
    (room : Emptied p (fs.withParents p) (gs.withParents p)) :
    Course artifact p suffix fs (fill artifact p digest suffix gs) := by
  unfold fill
  rw [FileStep.bind_apply, FileStep.orElseSay_apply, clearingOnFailure_apply]
  have vacant := room.vacant h.artifact h.copy way.unused
  rcases populate_cases artifact.source digest h vacant with
    ⟨e, he⟩ | ⟨count, fs', T, S, D, he, copied⟩
  · rw [he]
    exact .failed hd hs (room.cleared h.artifact way.detached)
  · rw [he]
    exact .done hd hs room copied

/-- The path of the place for an artifact. -/
def target (artifact : Artifact) (checkout : String) : String :=
  PathText.join checkout artifact.dest

/-- **Every replacement takes one of the courses.** -/
theorem replace_course {artifact : Artifact} {checkout : String} (plain : IsPlain artifact.dest)
    (h : Site (target artifact checkout) suffix q n m)
    (way : Passable (target artifact checkout) suffix fs) :
    Course artifact (target artifact checkout) suffix fs (replace artifact checkout suffix fs) := by
  have hp : destination artifact.dest checkout = .ok (target artifact checkout) :=
    destination_of_isPlain plain checkout
  unfold replace
  rw [FileStep.bind_apply, FileStep.look_apply, hp]
  generalize target artifact checkout = p at h way
  dsimp only
  rw [FileStep.bind_apply, FileStep.get_apply]
  dsimp only
  cases hd : fs.isDirectory artifact.source with
  | false => exact .refused (Or.inl hd)
  | true =>
  rw [if_neg (by decide), FileStep.bind_apply, FileStep.orElseSay_apply, FileStep.look_apply]
  cases hs : fs.treeDigest artifact.source with
  | error e => exact .refused (Or.inr ⟨e, hs⟩)
  | ok digest =>
  dsimp only [Except.mapError]
  rw [FileStep.bind_apply, FileStep.get_apply]
  dsimp only
  by_cases there : fs.pathExists p = true
  · obtain ⟨gs, hr, room⟩ := h.removed way.detached there
    rw [if_pos there, FileStep.bind_apply, FileStep.orElseSay_apply, hr]
    exact course_of_populate h hd hs way room
  · rw [if_neg there]
    exact course_of_populate h hd hs way (Or.inl rfl)

/-! ## The step in a run -/

theorem slash_not_mem_suffixText (nonce : Nat) : '/' ∉ (suffixText nonce).toList := by
  have digit (k : Nat) : Hex.digit (k % 16) ≠ '/' := by
    have all : ∀ d < 16, Hex.digit d ≠ '/' := by decide
    exact all _ (Nat.mod_lt _ (by decide))
  have digits (width k : Nat) : '/' ∉ Hex.digits width k := by
    induction width generalizing k with
    | zero => exact List.not_mem_nil
    | succ width ih =>
      rw [Hex.digits, List.mem_append, List.mem_singleton]
      exact not_or.mpr ⟨ih _, (digit k).symm⟩
  unfold suffixText
  rw [String.toList_ofList]
  exact digits 32 nonce

/-- Staging is a replacement with a text of its own. -/
theorem play_stage {σ : Type} (o : Outside σ) (w : World σ) (artifact : Artifact)
    (r : Repository) :
    (((stage artifact r).run.play o w).value, ((stage artifact r).run.play o w).world.files) =
      replace artifact r.checkout (suffixText w.nonce) w.files := rfl

/-- **Staging takes one of the courses**, at a place beside that of the copy. -/
theorem stage_course {σ : Type} (o : Outside σ) (w : World σ) {artifact : Artifact}
    {r : Repository} (plain : IsPlain artifact.dest)
    (way : Passable (target artifact r.checkout) (suffixText w.nonce) w.files) :
    (∃ q n m, Site (target artifact r.checkout) (suffixText w.nonce) q n m) ∧
      Course artifact (target artifact r.checkout) (suffixText w.nonce) w.files
        (((stage artifact r).run.play o w).value,
          ((stage artifact r).run.play o w).world.files) := by
  obtain ⟨q, n, m, h⟩ :=
    site_of_isPlain plain r.checkout (slash_not_mem_suffixText w.nonce)
  rw [play_stage]
  exact ⟨⟨q, n, m, h⟩, replace_course plain h way⟩

end Staging
end GatedRelease
