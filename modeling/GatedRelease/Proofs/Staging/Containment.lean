import GatedRelease.Proofs.FileSystem.Enclosure
import GatedRelease.Proofs.Staging.Failure

/-! # Staging stays inside the checkout

A destination is taken or refused by how it is written (`Descending`).  That keeps staging inside
the checkout as long as the files do not lead astray (`Enclosed`): the way to the checkout does not
lead through the checkout, no link is on the way from there to the place, and the name of the copy
is not in use.  Then all that staging creates, changes or removes is strictly below the directory of
the checkout, wherever it fails (`stage_stays_inside`).

A link in the checkout on the way to the place is gone along, and what is behind it is removed and
replaced, wherever that is (`stage_escapes`).
-/
namespace GatedRelease

namespace PathText
/-- The last of the pieces that count for something. -/
theorem split_at_last {ps : List String} (h : ∃ s ∈ ps, ¬(s = "" ∨ s = ".")) :
    ∃ front n idle, ps = front ++ n :: idle ∧ ¬(n = "" ∨ n = ".") ∧
      ∀ s ∈ idle, s = "" ∨ s = "." := by
  induction ps with
  | nil => exact absurd h.choose_spec.1 List.not_mem_nil
  | cons first rest ih =>
    by_cases later : ∃ s ∈ rest, ¬(s = "" ∨ s = ".")
    · obtain ⟨front, n, idle, hr, hn, hi⟩ := ih later
      exact ⟨first :: front, n, idle, by rw [hr]; rfl, hn, hi⟩
    · have idle : ∀ s ∈ rest, s = "" ∨ s = "." := fun s hs =>
        Classical.byContradiction fun hn => later ⟨s, hs, hn⟩
      obtain ⟨s, hs, hn⟩ := h
      rcases List.mem_cons.mp hs with rfl | hs
      · exact ⟨[], s, rest, rfl, hn, idle⟩
      · exact absurd (idle s hs) hn

/-- **A path down** with a last name: relative, never up, and what is written after the name counts
for nothing. -/
structure Descending (d : String) (front : List String) (n : String) : Prop where
  relative : isAbsolute d = false
  pieces : ∃ idle, (∀ s ∈ idle, s = "" ∨ s = ".") ∧ pieces d = front ++ n :: idle
  step : IsStep n
  down : ".." ∉ front

end PathText

namespace Staging
variable {fs gs : FileSystem} {suffix : String}
open PathText (Descending IsStep)
open FileSystem (Kept Straight Reaches)

/-! ## Destinations that are taken -/

/-- **A destination that is taken** is a path down. -/
theorem descending_of_destination {d checkout p : String} (h : destination d checkout = .ok p) :
    p = PathText.join checkout d ∧ ∃ front n, Descending d front n := by
  obtain ⟨relative, never, down, hp⟩ := destination_eq_ok_iff.mp h
  refine ⟨hp, ?_⟩
  obtain ⟨front, n, idle, hd, hn, hi⟩ := PathText.split_at_last down
  have member : n ∈ PathText.pieces d := by
    rw [hd]
    simp
  refine ⟨front, n, relative, ⟨idle, hi, hd⟩, ⟨fun he => hn (Or.inl he), fun he => hn (Or.inr he),
    fun he => never (he ▸ member), PathText.free_of_mem_pieces member⟩, fun up => never ?_⟩
  rw [hd]
  exact List.mem_append_left _ up

/-! ## The paths of a staging -/

/-- The steps of `front`, then `n`, and then dots, which lead nowhere. -/
def EndsIn (path front : List String) (n : String) : Prop :=
  ∃ dots, (∀ d ∈ dots, d = ".") ∧ path = front ++ n :: dots

/-- How many directories down an entry is that the steps of `front` and one more lead to. -/
def depth (front : List String) : Nat := (front.filter (· ≠ ".")).length + 1

namespace EndsIn
variable {path front : List String} {n : String}

theorem length (h : EndsIn path front n) (hn : IsStep n) :
    (path.filter (· ≠ ".")).length = depth front := by
  obtain ⟨dots, hdots, rfl⟩ := h
  have idle : dots.filter (· ≠ ".") = [] := by
    rw [List.filter_eq_nil_iff]
    intro d hd
    rw [hdots d hd]
    decide
  rw [List.filter_append, List.filter_cons_of_pos (by simpa using hn.2.1), idle,
    List.length_append]
  rfl

theorem down (h : EndsIn path front n) (hn : IsStep n) (hf : ".." ∉ front) : ".." ∉ path := by
  obtain ⟨dots, hdots, rfl⟩ := h
  intro up
  rcases List.mem_append.mp up with up | up
  · exact hf up
  · rcases List.mem_cons.mp up with up | up
    · exact hn.2.2.1 up.symm
    · exact absurd (hdots _ up) (by decide)

theorem ne_nil (h : EndsIn path front n) : path ≠ [] := by
  obtain ⟨dots, -, rfl⟩ := h
  simp

theorem single (front : List String) (n : String) : EndsIn (front ++ [n]) front n :=
  ⟨[], by simp, rfl⟩

/-- **Where such steps lead** from a directory, if along no links. -/
theorem reached {checkout : String} {C : Location} {follow : Bool} {x : Spot}
    (h : EndsIn path front n) (hn : IsStep n) (hf : ".." ∉ front) (hC : gs.Leads checkout C)
    (straight : Straight gs.tree follow C path)
    (hw : FileSystem.Walks gs.tree follow FileSystem.linkLimit
      (FileSystem.start gs.home checkout) (FileSystem.names checkout ++ path) x) :
    ∃ k, x.location = C ++ k ∧ k.length = depth front := by
  obtain ⟨k, hk, spelled⟩ := hC.descends straight (h.down hn hf) (Or.inl h.ne_nil) hw
  exact ⟨k, hk, spelled.length.trans (h.length hn)⟩

end EndsIn

/-- **How the paths of a staging are written.**  The place `p` goes on from the checkout by the
names of the destination, and the copy `t` is called `m` in the directory `q` above the place. -/
structure Layout (checkout dest p q t : String) (front : List String) (n m : String) : Prop where
  relative : PathText.isAbsolute dest = false
  names : EndsIn (FileSystem.names dest) front n
  step : IsStep n
  down : ".." ∉ front
  place : p = PathText.join checkout dest
  above : PathText.isAbsolute q = PathText.isAbsolute checkout
  up : ∃ dots, (∀ d ∈ dots, d = ".") ∧
    FileSystem.names q ++ dots = FileSystem.names checkout ++ front
  copy : t = PathText.join q m
  copyStep : IsStep m

theorem layout_of_destination {d checkout p : String} (h : destination d checkout = .ok p)
    (hs : '/' ∉ suffix.toList) : ∃ q front n m, PathText.parent? p = some q ∧
      Layout checkout d p q (temporaryPath p suffix) front n m := by
  obtain ⟨hp, front, n, path⟩ := descending_of_destination h
  obtain ⟨idle, hi, hd⟩ := path.pieces
  obtain ⟨outer, whole, hc, absolute⟩ := PathText.pieces_join checkout path.relative
  rw [← hp, hd, ← List.append_assoc] at whole
  obtain ⟨q, dots, parent, file, above, hdots, up⟩ :=
    PathText.parent_of_step whole path.step hi
  refine ⟨q, front.filter (· != ""), n, s!".{n}.staging-{suffix}", parent, ?_⟩
  exact
    { relative := path.relative
      names := by
        refine ⟨idle.filter (· != ""), fun s hs => ?_, ?_⟩
        · obtain ⟨hm, hne⟩ := List.mem_filter.mp hs
          exact (hi s hm).resolve_left (by simpa using hne)
        · unfold FileSystem.names
          rw [hd, List.filter_append, List.filter_cons_of_pos (by simpa using path.step.1)]
      step := path.step
      down := fun hm => path.down (List.mem_filter.mp hm).1
      place := hp
      above := by rw [above, hp, absolute]
      up := by
        refine ⟨dots, hdots, ?_⟩
        rw [up, List.filter_append, hc]
        rfl
      copy := temporaryPath_eq parent file suffix
      copyStep := isStep_copyName path.step hs }

/-- **Nothing leads astray**: the way to the checkout does not lead through it, and there is no link
on the way from there to the place, nor is the copy one. -/
structure Clear (checkout dest : String) (front : List String) (m : String) (C : Location)
    (fs : FileSystem) : Prop where
  steady : fs.Steady checkout C
  place : Straight fs.tree false C (FileSystem.steps dest)
  copy : Straight fs.tree true C (front ++ [m])

/-- Whatever has changed inside, the path of the checkout leads to it. -/
theorem Clear.leads {checkout dest m : String} {front : List String} {C : Location}
    (clear : Clear checkout dest front m C fs) (kept : Kept C (depth front) fs gs) :
    gs.Leads checkout C ∧ gs.tree.find? C = some .directory :=
  (FileSystem.directoryAt_eq_ok_iff.mp (clear.steady gs kept.toInside)).2

namespace Layout
variable {checkout dest p q t n m : String} {front : List String} {C l S : Location}
  {follow : Bool} {x : Spot}

theorem steps (h : Layout checkout dest p q t front n m) :
    EndsIn (FileSystem.steps dest) front n := by
  obtain ⟨dots, hdots, names⟩ := h.names
  unfold FileSystem.steps
  rw [names]
  split
  · refine ⟨dots ++ ["."], fun d hd => ?_, by simp⟩
    rcases List.mem_append.mp hd with hd | hd
    · exact hdots d hd
    · exact List.mem_singleton.mp hd
  · exact ⟨dots, hdots, rfl⟩

theorem start_place (h : Layout checkout dest p q t front n m) (here : Location) :
    FileSystem.start here p = FileSystem.start here checkout := by
  refine FileSystem.start_congr here ?_
  rw [h.place, PathText.isAbsolute_join checkout h.relative]

theorem isAbsolute_copy (h : Layout checkout dest p q t front n m) :
    PathText.isAbsolute t = PathText.isAbsolute checkout := by
  rw [h.copy, PathText.isAbsolute_join q (PathText.isAbsolute_step h.copyStep), h.above]

theorem names_copy (h : Layout checkout dest p q t front n m) :
    FileSystem.names t = FileSystem.names q ++ [m] := by
  rw [h.copy, PathText.names_join_step q h.copyStep]

theorem steps_copy (h : Layout checkout dest p q t front n m) :
    FileSystem.steps t = FileSystem.names t := by
  rw [h.copy]
  exact FileSystem.steps_under (PathText.under_join q h.copyStep)

theorem straight_copy (h : Layout checkout dest p q t front n m)
    (clear : Clear checkout dest front m C fs) (kept : Kept C (depth front) fs gs) :
    Straight gs.tree true C (front ++ [m]) :=
  kept.straight clear.copy (Nat.le_of_eq ((EndsIn.single front m).length h.copyStep))

theorem straight_place (h : Layout checkout dest p q t front n m)
    (clear : Clear checkout dest front m C fs) (kept : Kept C (depth front) fs gs) :
    Straight gs.tree false C (FileSystem.steps dest) :=
  kept.straight clear.place (Nat.le_of_eq (h.steps.length h.step))

/-- A walk to the copy is one from the checkout. -/
theorem walks_copy (h : Layout checkout dest p q t front n m)
    (hw : FileSystem.Walks gs.tree follow FileSystem.linkLimit (FileSystem.start gs.home t)
      (FileSystem.names t) x) :
    FileSystem.Walks gs.tree follow FileSystem.linkLimit (FileSystem.start gs.home checkout)
      (FileSystem.names checkout ++ (front ++ [m])) x := by
  obtain ⟨dots, hdots, up⟩ := h.up
  rw [h.names_copy, FileSystem.start_congr _ h.isAbsolute_copy] at hw
  rw [← List.append_assoc, ← up, List.append_assoc]
  exact FileSystem.walks_dots hdots (by simp) hw

/-- **The place is inside.** -/
theorem reaches_place (h : Layout checkout dest p q t front n m)
    (clear : Clear checkout dest front m C fs) : Reaches C (depth front) fs p := by
  have hne : dest ≠ "" := by
    rintro rfl
    have := h.names.ne_nil
    rw [PathText.names_empty] at this
    exact this rfl
  refine ⟨fun gs x kept hx => ?_, fun gs l kept hl => ?_⟩
  · obtain ⟨-, hw⟩ := FileSystem.spot_eq_ok_iff.mp hx
    rw [h.start_place, h.place, PathText.names_join checkout h.relative] at hw
    have straight : Straight gs.tree false C (FileSystem.names dest) := by
      have whole := h.straight_place clear kept
      unfold FileSystem.steps at whole
      split at whole
      · exact (whole.front (by simp)).weaken
      · exact whole
    exact h.names.reached h.step h.down (clear.leads kept).1 straight hw
  · obtain ⟨-, hw⟩ := FileSystem.locate_eq_ok_iff.mp hl
    rw [h.start_place, h.place, PathText.steps_join checkout h.relative hne] at hw
    exact h.steps.reached h.step h.down (clear.leads kept).1 (h.straight_place clear kept) hw

/-- The copy is inside, whether links are followed or not. -/
theorem reached_copy (h : Layout checkout dest p q t front n m)
    (clear : Clear checkout dest front m C fs) (kept : Kept C (depth front) fs gs)
    (hw : FileSystem.Walks gs.tree follow FileSystem.linkLimit (FileSystem.start gs.home t)
      (FileSystem.names t) x) : ∃ k, x.location = C ++ k ∧ k.length = depth front :=
  (EndsIn.single front m).reached h.copyStep h.down (clear.leads kept).1
    (h.straight_copy clear kept).weaken (h.walks_copy hw)

theorem reaches_copy (h : Layout checkout dest p q t front n m)
    (clear : Clear checkout dest front m C fs) : Reaches C (depth front) fs t := by
  refine ⟨fun gs x kept hx => ?_, fun gs l kept hl => ?_⟩
  · exact h.reached_copy clear kept (FileSystem.spot_eq_ok_iff.mp hx).2
  · have hw := (FileSystem.locate_eq_ok_iff.mp hl).2
    rw [h.steps_copy] at hw
    exact h.reached_copy clear kept hw

theorem canonical_copy (h : Layout checkout dest p q t front n m)
    (clear : Clear checkout dest front m C fs) (kept : Kept C (depth front) fs gs)
    (hl : gs.canonical t = .ok l) : ∃ k, l = C ++ k ∧ k.length = depth front := by
  have hw := (FileSystem.locate_eq_ok_iff.mp hl).2
  rw [h.steps_copy] at hw
  exact h.reached_copy clear kept hw

/-- The copy is no link. -/
theorem copy_ne_link (h : Layout checkout dest p q t front n m)
    (clear : Clear checkout dest front m C fs) (kept : Kept C (depth front) fs gs)
    (hx : gs.spot false t (FileSystem.names t) = .ok (.present S)) (target : String) :
    gs.tree.find? S ≠ some (.link target) := by
  have hw := h.walks_copy (FileSystem.spot_eq_ok_iff.mp hx).2
  have straight := h.straight_copy clear kept
  obtain ⟨k, hk, spelled⟩ := (clear.leads kept).1.descends straight.weaken
    ((EndsIn.single front m).down h.copyStep h.down) (Or.inl (by simp)) hw
  have here : S = C ++ k := hk
  rw [here]
  exact straight _ [] k (List.append_nil _).symm (Or.inr rfl) spelled target

/-- **A new directory on the way to the copy is inside**: those on the way to the checkout are
there. -/
theorem below {paths : List String} (h : Layout checkout dest p q t front n m)
    (clear : Clear checkout dest front m C fs) {hs : FileSystem}
    (kept : Kept C (depth front) fs gs) (made : FileSystem.Made paths gs hs)
    (way : ∀ a ∈ paths, PathText.isAbsolute a = PathText.isAbsolute t ∧
      FileSystem.names a <+: FileSystem.names t)
    (hn : gs.tree.find? l = none) (hd : hs.tree.find? l = some .directory) :
    ∃ k, l = C ++ k := by
  obtain ⟨a, ha, hl⟩ := made.named l hn hd
  obtain ⟨absolute, names⟩ := way a ha
  obtain ⟨-, walks, -⟩ := FileSystem.directoryAt_eq_ok_iff.mp hl
  unfold FileSystem.Leads at walks
  have hC : hs.Leads checkout C := (clear.leads kept).1.mono made.home made.grows.le
  have straight := (h.straight_copy clear kept).grow made.grows
  rw [h.names_copy, List.prefix_concat_iff] at names
  rcases names with whole | ⟨more, names⟩
  · rw [← h.names_copy] at whole
    rw [whole, FileSystem.start_congr _ absolute] at walks
    obtain ⟨k, hk, -⟩ := hC.descends straight
      ((EndsIn.single front m).down h.copyStep h.down) (Or.inr rfl) (h.walks_copy walks)
    exact ⟨k, hk⟩
  · obtain ⟨dots, -, up⟩ := h.up
    rw [← names, List.append_assoc, List.append_eq_append_iff] at up
    rcases up with ⟨outer, above, -⟩ | ⟨inner, below, hf⟩
    · -- The path is one above the checkout, and led there before.
      obtain ⟨k, hk⟩ := (clear.leads kept).1.above (absolute.trans h.isAbsolute_copy)
        ⟨outer, above.symm⟩
      exact absurd (hn.symm.trans (made.before hk hl)) nofun
    · rw [below, FileSystem.start_congr _ (absolute.trans h.isAbsolute_copy)] at walks
      have down : ".." ∉ inner := fun hm => h.down (hf ▸ List.mem_append_left _ hm)
      rw [hf, List.append_assoc] at straight
      obtain ⟨k, hk, -⟩ := hC.descends (straight.front (by simp)) down (Or.inr rfl) walks
      exact ⟨k, hk⟩

/-- **Making the directory of the copy, or the one above, keeps inside.** -/
theorem makeDirectories_preserves (h : Layout checkout dest p q t front n m)
    (clear : Clear checkout dest front m C fs) {r : String}
    (absolute : PathText.isAbsolute r = PathText.isAbsolute t)
    (names : FileSystem.names r <+: FileSystem.names t) :
    (FileSystem.makeDirectories r).Preserves (Kept C (depth front) fs) := by
  intro gs kept
  have made := (FileSystem.makeDirectories_made r gs).1
  refine kept.trans (made.kept (clear.leads kept).2 fun l hn hd => ?_)
  refine h.below clear kept made (fun a ha => ?_) hn hd
  rcases List.mem_cons.mp ha with rfl | ha
  · exact ⟨absolute, names⟩
  · obtain ⟨habs, hnames⟩ := PathText.above_ancestors ha
    exact ⟨habs.trans absolute, hnames.trans names⟩

end Layout

/-! ## Staging, step by step -/

section Preserves
variable {checkout dest p q t n m source expected : String} {front : List String}
  {C : Location} {k : Location}

/-- Copying entries into a place that deep keeps inside. -/
theorem copyEntries_preserves {depth : Nat} (source target : String) (hk : depth = k.length)
    {xs : List (Location × Entry)} (hx : ∀ x ∈ xs, x.1 ≠ []) :
    (copyEntries source target (C ++ k) xs).Preserves (Kept C depth fs) := by
  intro gs kept
  have planted (xs : List (Location × Entry)) (hx : ∀ x ∈ xs, x.1 ≠ []) :
      ∀ gs : FileSystem, Kept C depth fs gs →
        Kept C depth fs { gs with tree := gs.tree.plant (C ++ k) xs } := by
    induction xs with
    | nil => exact fun gs kept => kept
    | cons x xs ih =>
      obtain ⟨hx, hxs⟩ := List.forall_mem_cons.mp hx
      intro gs kept
      have hne : k ++ x.1 ≠ [] := fun he => hx (List.append_eq_nil_iff.mp he).2
      have deep : depth < (k ++ x.1).length := by
        have pos := List.length_pos_iff.mpr hx
        rw [List.length_append]
        omega
      have once := kept.trans (Kept.put (e := x.2) gs hne (Or.inr deep))
      rw [← List.append_assoc] at once
      exact ih hxs _ once
  rcases copyEntries_cases source target (C ++ k) xs gs with ⟨e, done, hd, he⟩ | he
  · rw [he]
    exact planted done (fun x hm => hx x (hd.subset hm)) gs kept
  · rw [he]
    exact planted xs hx gs kept

theorem copyTree_preserves (h : Layout checkout dest p q t front n m)
    (clear : Clear checkout dest front m C fs) (source : String) :
    (copyTree source t).Preserves (Kept C (depth front) fs) := by
  refine .bind (h.makeDirectories_preserves clear rfl List.prefix_rfl) fun _ => ?_
  refine .bind (FileStep.preserves_look _) fun S => ?_
  refine .bind_of (Q := fun T => ∃ k, T = C ++ k ∧ k.length = depth front)
    (FileStep.preserves_look _) (fun gs T kept hT => h.canonical_copy clear kept hT) ?_
  rintro _ ⟨k, rfl, hk⟩
  by_cases into : (S.within (C ++ k)).isSome = true
  · rw [if_pos into]
    exact FileStep.preserves_throw _
  · rw [if_neg into]
    refine .bind FileStep.preserves_get fun gs => ?_
    exact copyEntries_preserves source t hk.symm (gs.tree.below S).rooted

theorem copyChecked_preserves (h : Layout checkout dest p q t front n m)
    (clear : Clear checkout dest front m C fs) (source expected : String) :
    (copyChecked source t p expected).Preserves (Kept C (depth front) fs) := by
  refine .bind ((copyTree_preserves h clear source).orElseSay _) fun count => ?_
  refine .bind ((FileStep.preserves_look _).orElseSay _) fun copied => ?_
  by_cases differs : copied ≠ expected
  · rw [if_pos differs]
    exact FileStep.preserves_throw _
  · rw [if_neg differs]
    have moves : (FileSystem.rename t p).Preserves (Kept C (depth front) fs) :=
      FileSystem.rename_preserves (h.reaches_copy clear) (h.reaches_place clear)
        (Nat.succ_pos _) fun gs S kept hS => h.copy_ne_link clear kept hS
    exact .bind (moves.orElseSay _) fun _ => FileStep.preserves_pure _

theorem clearingOnFailure_preserves {ε α : Type} {P : FileSystem → Prop} {step : FileStep ε α}
    {path : String} {clear : String → FileStep Cause Unit} (hs : step.Preserves P)
    (hc : (clear path).Preserves P) : (clearingOnFailure step path clear).Preserves P := by
  intro fs h
  have after := hs fs h
  rw [clearingOnFailure_apply]
  rcases hr : step fs with ⟨e | a, fs'⟩ <;> rw [hr] at after
  · dsimp only
    split
    · exact hc fs' after
    · exact after
  · exact after

theorem populate_preserves (h : Layout checkout dest p q (temporaryPath p suffix) front n m)
    (parent : PathText.parent? p = some q) (clear : Clear checkout dest front m C fs)
    (source expected : String) :
    (populate source p expected suffix).Preserves (Kept C (depth front) fs) := by
  have above : (PathText.parent? p).getD "" = q := by
    rw [parent]
    rfl
  have made : (FileSystem.makeDirectories q).Preserves (Kept C (depth front) fs) := by
    refine h.makeDirectories_preserves clear ?_ ?_
    · rw [h.above, h.isAbsolute_copy]
    · rw [h.names_copy]
      exact List.prefix_append _ _
  unfold populate
  rw [above]
  refine .bind (made.orElseSay _) fun _ => clearingOnFailure_preserves ?_ ?_
  · exact copyChecked_preserves h clear source expected
  · exact FileSystem.removeTree_preserves (h.reaches_copy clear) (Nat.succ_pos _)

/-- **A replacement keeps inside**, whether it succeeds or fails. -/
theorem replace_preserves {artifact : Artifact}
    (place : destination artifact.dest checkout = .ok p)
    (h : Layout checkout artifact.dest p q (temporaryPath p suffix) front n m)
    (parent : PathText.parent? p = some q) (clear : Clear checkout artifact.dest front m C fs) :
    (replace artifact checkout suffix).Preserves (Kept C (depth front) fs) := by
  have removed : (FileSystem.removeAny p).Preserves (Kept C (depth front) fs) :=
    FileSystem.removeAny_preserves (h.reaches_place clear) (Nat.succ_pos _)
  unfold replace
  refine .bind_of (Q := (· = p)) (FileStep.preserves_look _) ?_ ?_
  · intro gs r _ hr
    rw [FileStep.look_apply, place] at hr
    exact (Except.ok.inj hr).symm
  intro r hr
  rw [hr]
  have filled (digest : String) :
      (fill artifact p digest suffix).Preserves (Kept C (depth front) fs) :=
    .bind ((clearingOnFailure_preserves (populate_preserves h parent clear _ _)
      removed).orElseSay _) fun _ => FileStep.preserves_pure _
  refine .bind FileStep.preserves_get fun gs => ?_
  by_cases missing : (!gs.isDirectory artifact.source) = true
  · rw [if_pos missing]
    exact FileStep.preserves_throw _
  rw [if_neg missing]
  refine .bind ((FileStep.preserves_look _).orElseSay _) fun digest => ?_
  refine .bind FileStep.preserves_get fun gs => ?_
  by_cases there : gs.pathExists p = true
  · rw [if_pos there]
    exact .bind (removed.orElseSay _) fun _ => filled digest
  · rw [if_neg there]
    exact filled digest

end Preserves
/-! ## What is and what is not inside -/

/-- **Nothing leads out of the checkout at `C`**: the way to the checkout does not lead through it,
there is no link on the way from there to the place, and no entry is called as the copy will be. -/
structure Enclosed (artifact : Artifact) (checkout suffix : String) (fs : FileSystem)
    (C : Location) : Prop where
  steady : fs.Steady checkout C
  straight : Straight fs.tree false C (FileSystem.steps artifact.dest)
  unused : ∀ k n,
    FileSystem.lastName (temporaryPath (target artifact checkout) suffix) = some n.text →
    fs.tree.find? (C ++ k ++ [n]) = none

theorem Enclosed.clear {artifact : Artifact} {checkout q n m : String} {front : List String}
    {C : Location} (h : Enclosed artifact checkout suffix fs C)
    (layout : Layout checkout artifact.dest (target artifact checkout) q
      (temporaryPath (target artifact checkout) suffix) front n m) :
    Clear checkout artifact.dest front m C fs := by
  refine ⟨h.steady, h.straight, fun path rest k hp _ hk target he => ?_⟩
  have near : path <+: front ++ [m] := ⟨rest, hp.symm⟩
  rcases List.prefix_concat_iff.mp near with rfl | ⟨more, hf⟩
  · -- At the end of the way there would be an entry with the name of the copy.
    have named : k.map Name.text = front.filter (· ≠ ".") ++ [m] := by
      rw [hk, List.filter_append, List.filter_cons_of_pos (by simpa using layout.copyStep.2.1)]
      rfl
    obtain ⟨j, last, rfl, -, hl⟩ := List.map_eq_append_iff.mp named
    obtain ⟨c, rfl, hc⟩ := List.map_eq_singleton_iff.mp hl
    have called : FileSystem.lastName (temporaryPath (Staging.target artifact checkout) suffix) =
        some c.text := by
      unfold FileSystem.lastName
      rw [layout.names_copy, List.getLast?_concat, hc]
    rw [← List.append_assoc, h.unused j c called] at he
    exact absurd he nofun
  · obtain ⟨dots, -, steps⟩ := layout.steps
    refine h.straight path (more ++ n :: dots) k ?_ (Or.inl (by simp)) hk target he
    rw [steps, ← hf, List.append_assoc]

/-- **Staging stays inside the checkout.**  For all files and every artifact, whether staging
succeeds or fails: if nothing leads out of the checkout, or the destination is refused, each
location that does not hold what it held is strictly below the directory of the checkout. -/
theorem stage_stays_inside {σ : Type} (o : Outside σ) (w : World σ) (artifact : Artifact)
    (r : Repository) {C l : Location}
    (legal : (∃ e, destination artifact.dest r.checkout = .error e) ∨
      Enclosed artifact r.checkout (suffixText w.nonce) w.files C)
    (changed : ((stage artifact r).run.play o w).world.files.tree.find? l ≠
      w.files.tree.find? l) :
    w.files.directoryAt r.checkout = .ok C ∧ ∃ k ≠ [], l = C ++ k := by
  have after : ((stage artifact r).run.play o w).world.files =
      (replace artifact r.checkout (suffixText w.nonce) w.files).2 :=
    congrArg Prod.snd (play_stage o w artifact r)
  rw [after] at changed
  cases hp : destination artifact.dest r.checkout with
  | error e =>
    rw [replace_refused hp] at changed
    exact absurd rfl changed
  | ok p =>
    have enclosed := legal.resolve_left fun ⟨e, he⟩ => by
      rw [hp] at he
      exact absurd he nofun
    obtain rfl : p = target artifact r.checkout := (descending_of_destination hp).1
    obtain ⟨q, front, n, m, parent, layout⟩ :=
      layout_of_destination hp (slash_not_mem_suffixText w.nonce)
    have kept := replace_preserves hp layout parent (enclosed.clear layout) w.files (.refl ..)
    refine ⟨enclosed.steady w.files ⟨rfl, fun _ _ => rfl⟩, ?_⟩
    by_contra outside
    exact changed (kept.rest l fun k hk he => outside ⟨k, hk, he⟩)

section Sample

theorem enclosed_sample : Enclosed sampleArtifact "r" (suffixText 0) sampleFiles
    (locationOf "r") := by
  have linkless : ∀ l target, sampleFiles.tree.find? l ≠ some (.link target) := by
    intro l target he
    by_cases hl : l = []
    · rw [hl, Tree.find?_root] at he
      exact absurd he nofun
    · have plain : ∀ x ∈ sampleFiles.tree.entries, isFile x.2 = true ∨ x.2 = .directory := by
        decide +kernel
      exact absurd (plain _ ((Tree.find?_eq_some_iff hl).mp he)) nofun
  have straight {follow : Bool} {here : Location} {path : List String} :
      Straight sampleFiles.tree follow here path := fun _ _ _ _ _ _ => linkless _
  refine ⟨FileSystem.steady_of_straight (by decide +kernel) straight (by decide +kernel), straight,
    fun k n called => ?_⟩
  have unused : ∀ x ∈ sampleFiles.tree.entries, FileSystem.lastName
      (temporaryPath (target sampleArtifact "r") (suffixText 0)) ≠ x.1.getLast?.map (·.text) := by
    decide +kernel
  cases he : sampleFiles.tree.find? (locationOf "r" ++ k ++ [n]) with
  | none => rfl
  | some e =>
    have member := (Tree.find?_eq_some_iff (by simp)).mp he
    refine absurd called ?_
    have := unused _ member
    rw [List.getLast?_concat] at this
    exact this

/-- What was in the place is gone, and was inside. -/
theorem stage_stays_inside_sample :
    ((∃ e, destination sampleArtifact.dest "r" = .error e) ∨
      Enclosed sampleArtifact "r" (suffixText 0) sampleFiles (locationOf "r")) ∧
    sampleRun.world.files.tree.find? (locationOf "r/L/old") ≠
      sampleFiles.tree.find? (locationOf "r/L/old") ∧
    sampleFiles.directoryAt "r" = .ok (locationOf "r") ∧
      ∃ k ≠ [], locationOf "r/L/old" = locationOf "r" ++ k := by
  have changed : sampleRun.world.files.tree.find? (locationOf "r/L/old") ≠
      sampleFiles.tree.find? (locationOf "r/L/old") := by decide +kernel
  exact ⟨Or.inr enclosed_sample, changed, stage_stays_inside Rehearsal.outside
    (worldOf sampleFiles) sampleArtifact sampleRepository (Or.inr enclosed_sample) changed⟩

/-- A checkout `co` with a link to a directory beside it. -/
def escapeFiles : FileSystem := filesOf [("co", .directory), ("co/l", .link "../out"),
  ("out", .directory), ("out/x", .directory), ("out/x/keep", .file [107] false),
  ("s", .directory), ("s/f", .file [110] false)]

def escapeRun : Played Rehearsal.Cast (Except StagingFailure StagedArtifact) :=
  (stage ⟨"s", "l/x"⟩ ⟨"", "co", "main"⟩).run.play Rehearsal.outside (worldOf escapeFiles)

/-- **A link in the checkout leads staging out of it.**  The destination `l/x` is taken for a place
inside, and staging succeeds; but the place is `out/x`, and what was there is gone. -/
theorem stage_escapes :
    escapeFiles.directoryAt "co" = .ok (locationOf "co") ∧
    destination "l/x" "co" = .ok "co/l/x" ∧
    escapeRun.value.toOption.map (·.destination) = some "co/l/x" ∧
    ∃ l, Location.within (locationOf "co") l = none ∧
      escapeFiles.tree.find? l = some (.file [107] false) ∧
      escapeRun.world.files.tree.find? l = none := by
  refine ⟨by decide +kernel, by decide +kernel, ?_, locationOf "out/x/keep", by decide +kernel,
    by decide +kernel, ?_⟩
  · decide +kernel
  · decide +kernel

end Sample

end Staging
end GatedRelease
