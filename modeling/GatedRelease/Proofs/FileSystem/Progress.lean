import GatedRelease.Proofs.Staging.Copy
import Mathlib.Data.List.DropRight

/-! # When nothing is in the way

What the operations need in order to succeed.  A directory can be made with all above it unless
something that is no directory stands on the way, or a path or a name is too long
(`makeDirectories_succeeds`): the chain of paths is worked off from the far end, and a path fails
only if the one before it leads to no directory.  A directory can be moved to any place that holds
nothing (`rename_succeeds`).
-/
namespace GatedRelease

namespace PathText

/-! ## Chains of paths -/

/-- **A path is another one and a step on from there**, down, up or nowhere. -/
structure Follows (p q : String) : Prop where
  absolute : isAbsolute p = isAbsolute q
  names : ∃ dots n, (∀ d ∈ dots, d = ".") ∧
    FileSystem.names p = FileSystem.names q ++ (dots ++ [n])

/-- **A path and all above it**, to the root or to the directory that relative paths start from. -/
inductive Chain : String → List String → Prop
  | start : Chain "" []
  | root {p : String} : isAbsolute p = true → FileSystem.names p = [] → Chain p []
  | step {p q : String} {above : List String} : Follows p q → Chain q above → Chain p (q :: above)

theorem dropIdle_dropIdle (ps : List String) : dropIdle (dropIdle ps) = dropIdle ps := by
  cases ps with
  | nil => rfl
  | cons first rest =>
    let p := fun piece : String => piece == "" || piece == "."
    show first :: ((rest.reverse.dropWhile p).reverse.reverse.dropWhile p).reverse =
      first :: (rest.reverse.dropWhile p).reverse
    rw [List.reverse_reverse, List.dropWhile_idempotent]

/-- What is left after what counts for nothing ends in a step. -/
theorem last_of_dropIdle {first last : String} {mid : List String}
    (h : dropIdle (first :: (mid ++ [last])) = first :: (mid ++ [last])) : last ≠ "" := by
  rintro rfl
  have tail := (List.cons.inj h).2
  rw [List.reverse_append, List.reverse_singleton, List.singleton_append,
    List.dropWhile_cons_of_pos rfl] at tail
  have short := (List.dropWhile_sublist (fun piece : String => piece == "" || piece == ".")
    (l := mid.reverse)).length_le
  have length := congrArg List.length tail
  simp only [List.length_reverse, List.length_append, List.length_singleton] at short length
  omega

/-- The ancestors of pieces of a path are a chain for each path of these pieces, if they end in a
step. -/
theorem chain_ancestorsOf {absolute : Bool} {ps : List String} (hne : ps ≠ [])
    (h : Proper absolute ps) (tidy : dropIdle ps = ps) :
    ∀ r, FileSystem.names r = ps.filter (· != "") → isAbsolute r = absolute →
      Chain r (ancestorsOf absolute ps) := by
  fun_induction ancestorsOf absolute ps with
  | case1 ps he => exact absurd (tidy.symm.trans he) hne
  | case2 ps only he hs =>
    intro r names root
    have single : ps = [only] := tidy.symm.trans he
    have empty : only = "" := by simpa using hs
    subst single empty
    exact .root (root.trans (h.first.mpr rfl)) names
  | case3 ps only he hs =>
    intro r names relative
    have single : ps = [only] := tidy.symm.trans he
    have other : only ≠ "" := by simpa using hs
    subst single
    have from' : absolute = false := by
      rw [Bool.eq_false_iff, Ne, h.first]
      simpa using other
    refine .step ⟨relative.trans from', [], only, List.forall_mem_nil _, ?_⟩ .start
    rw [names, names_empty]
    simpa using other
  | case4 ps first second rest he shorter ih =>
    intro r names same
    have whole : ps = first :: second :: rest := tidy.symm.trans he
    have hs : shorter <+: ps := by
      rw [whole]
      exact (prefix_dropIdle _).trans (List.dropLast_prefix _)
    have some : shorter ≠ [] := dropIdle_ne_nil (by simp)
    have proper := h.shorter hs some
    have front := names_ofPieces proper some
    have root := isAbsolute_ofPieces proper some
    obtain ⟨idle, split, hidle⟩ := dropIdle_append (first :: second :: rest).dropLast
    obtain ⟨mid, last, cut⟩ : ∃ mid last, second :: rest = mid ++ [last] :=
      ⟨_, _, (List.dropLast_concat_getLast (by simp)).symm⟩
    have named : last ≠ "" := by
      rw [whole, cut] at tidy
      exact last_of_dropIdle tidy
    -- The pieces are those of the shorter path, idle ones that are left out of it, and a step.
    refine .step ⟨same.trans root.symm, idle.filter (· != ""), last, fun d hd => ?_, ?_⟩
      (ih some proper (dropIdle_dropIdle _) _ front root)
    · obtain ⟨hm, hn⟩ := List.mem_filter.mp hd
      exact (hidle d hm).resolve_left (by simpa using hn)
    · have ends : ps = shorter ++ idle ++ [last] := by
        rw [← split, whole, cut, ← List.cons_append, List.dropLast_concat]
      rw [names, front, ends, List.filter_append, List.filter_append, List.append_assoc]
      simp [named]

/-- **The ancestors of a path** are a chain, if the path ends in a step. -/
theorem chain_ancestors {p : String} (tidy : dropIdle (pieces p) = pieces p) :
    Chain p (ancestors p) := by
  by_cases hp : p = ""
  · rw [hp, ancestors_empty]
    exact .start
  · exact chain_ancestorsOf (pieces_ne_nil p) (proper_pieces hp) tidy p rfl rfl

end PathText

namespace FileSystem
variable {fs gs : FileSystem} {p q n : String} {l D : Location} {above : List String} {e : Cause}
open PathText (Under Follows Chain IsStep)

/-! ## Walks that go astray -/

/-- A walk found that something is not there. -/
def Astray (r : Except Cause Spot) : Prop := r = .error .notFound ∨ ∃ l, r = .ok (.absent l)

theorem walkNames_astray {t : Tree} {follow : Bool} {here : Location} {xs ys : List String}
    {along along' : Location → List String → Except Cause Spot} (hy : ys ≠ [])
    (again : ∀ here rest, Astray (along here rest) → along' here (rest ++ ys) = .error .notFound)
    (h : Astray (walkNames t false along here xs)) :
    walkNames t follow along' here (xs ++ ys) = .error .notFound := by
  fun_induction walkNames t false along here xs with
  | case1 | case2 | case5 | case9 =>
    rcases h with h | ⟨l, h⟩
    · cases h
    · cases h
  | case3 here rest hd ih =>
    rw [List.cons_append, walkNames, if_neg hd, if_pos rfl, ih h]
  | case4 here rest hd hs ih =>
    rw [List.cons_append, walkNames, if_neg hd, if_neg hs, if_pos rfl, ih h]
  | case6 here step hd h₁ h₂ n hn ha =>
    rw [List.singleton_append, walkNames, if_neg hd, if_neg h₁, if_neg h₂, hn]
    dsimp only
    rw [ha]
    dsimp only
    rw [if_neg hy]
  | case7 here step rest hd h₁ h₂ n hn ha hr =>
    rw [List.cons_append, walkNames, if_neg hd, if_neg h₁, if_neg h₂, hn]
    dsimp only
    rw [ha]
    dsimp only
    rw [if_neg (by simp [hy])]
  | case8 here step rest hd h₁ h₂ n hn target ha hr =>
    rw [List.cons_append, walkNames, if_neg hd, if_neg h₁, if_neg h₂, hn]
    dsimp only
    rw [ha]
    dsimp only
    rw [if_pos (Or.inl (by simp [hy])), ← List.append_assoc]
    exact again _ _ h
  | case10 here step rest hd h₁ h₂ n hn e other he ih =>
    rw [List.cons_append, walkNames, if_neg hd, if_neg h₁, if_neg h₂, hn]
    dsimp only
    rw [he]
    cases e with
    | link target => exact absurd rfl (other target)
    | directory | file => exact ih h

/-- **What is not there leads no further.** -/
theorem walk_astray {t : Tree} {follow : Bool} {links : Nat} {here : Location}
    {xs ys : List String} (hy : ys ≠ []) (h : Astray (walk t false links here xs)) :
    walk t follow links here (xs ++ ys) = .error .notFound := by
  induction links generalizing here xs with
  | zero =>
    refine walkNames_astray hy (fun _ _ h => ?_) h
    rcases h with h | ⟨l, h⟩
    · exact absurd h nofun
    · exact absurd h nofun
  | succ links ih => exact walkNames_astray hy (fun _ _ h => ih h) h

/-! ## Making directories -/

/-- There is an entry where the path leads, a link at the end taken for itself. -/
def Holds (fs : FileSystem) (p : String) : Prop := ∃ l, fs.spot false p (names p) = .ok (.present l)

instance (fs : FileSystem) (p : String) : Decidable (fs.Holds p) :=
  match h : fs.spot false p (names p) with
  | .ok (.present l) => isTrue ⟨l, h⟩
  | .ok (.absent _) => isFalse fun ⟨_, hk⟩ => nomatch h.symm.trans hk
  | .error _ => isFalse fun ⟨_, hk⟩ => nomatch h.symm.trans hk

/-- **No limit is reached**: the path can be walked, and its names can be those of entries. -/
def Fits (p : String) : Prop :=
  checkText p = .ok () ∧ ∀ s ∈ names p, s = "." ∨ s = ".." ∨ Name.isValid s = true

instance (p : String) : Decidable (Fits p) := inferInstanceAs (Decidable (_ ∧ _))

/-- **Something is in the way** of a directory. -/
def Blocked (fs : FileSystem) (p : String) : Prop := fs.Holds p ∧ fs.isDirectory p = false

/-- Relative paths start from a directory. -/
def Grounded (fs : FileSystem) (p : String) : Prop :=
  PathText.isAbsolute p = false → fs.tree.find? fs.home = some .directory

theorem Grounded.mono {fs' : FileSystem} (h : fs.Grounded p) (home : fs'.home = fs.home)
    (le : fs.tree ≤ fs'.tree) : fs'.Grounded p := by
  intro relative
  rw [home]
  exact le _ _ (h relative)

theorem Grounded.of_follows (h : fs.Grounded p) (hp : Follows p q) : fs.Grounded q := by
  intro relative
  exact h (hp.absolute.trans relative)

theorem Grounded.leads_empty (h : fs.Grounded "") :
    ∃ l, fs.Leads "" l ∧ fs.tree.find? l = some .directory :=
  ⟨fs.home, FileSystem.leads_empty fs, h rfl⟩

theorem leads_of_isDirectory (h : fs.isDirectory p = true) :
    ∃ l, fs.Leads p l ∧ fs.tree.find? l = some .directory := by
  obtain ⟨l, hl⟩ := isDirectory_iff.mp h
  obtain ⟨-, leads, hd⟩ := directoryAt_eq_ok_iff.mp hl
  exact ⟨l, leads, hd⟩

theorem directoryAt_mono {fs' : FileSystem} (h : fs.directoryAt p = .ok l)
    (home : fs'.home = fs.home) (le : fs.tree ≤ fs'.tree) : fs'.directoryAt p = .ok l := by
  obtain ⟨hc, leads, hd⟩ := directoryAt_eq_ok_iff.mp h
  exact directoryAt_eq_ok_iff.mpr ⟨hc, leads.mono home le, le _ _ hd⟩

/-- **From a directory, a step leads** to an entry or to a place for one. -/
theorem spot_of_follows (hp : Follows p q) (hq : fs.Leads q l)
    (hd : fs.tree.find? l = some .directory) (fits : Fits p) :
    fs.Holds p ∨ ∃ k, fs.spot false p (names p) = .ok (.absent k) := by
  obtain ⟨dots, n, hdots, names⟩ := hp.names
  obtain ⟨left, ha⟩ := hq.append
  have last : fs.spot false p (FileSystem.names p) = walk fs.tree false left l [n] := by
    unfold spot
    rw [fits.1, names]
    show walk fs.tree false linkLimit (start fs.home p) _ = _
    rw [start_congr _ hp.absolute, ha false _ (by simp), walk_dots hdots hd]
  unfold Holds
  rw [last, walk_cons, if_neg (not_not_intro hd)]
  have named : n ∈ FileSystem.names p := by
    rw [names]
    simp
  by_cases h₁ : n = "."
  · rw [if_pos h₁, walk_nil]
    exact Or.inl ⟨l, rfl⟩
  by_cases h₂ : n = ".."
  · rw [if_neg h₁, if_pos h₂, walk_nil]
    exact Or.inl ⟨l.dropLast, rfl⟩
  have valid : Name.isValid n = true := ((fits.2 n named).resolve_left h₁).resolve_left h₂
  have name : Name.ofString? n = some ⟨n, valid⟩ := dif_pos valid
  rw [if_neg h₁, if_neg h₂, name]
  dsimp only
  cases fs.tree.find? (l ++ [⟨n, valid⟩]) with
  | none => exact Or.inr ⟨_, rfl⟩
  | some e =>
    cases e with
    | link target => exact Or.inl ⟨_, if_neg (by simp)⟩
    | directory | file => exact Or.inl ⟨_, walk_nil ..⟩

/-- A path from a directory that is not there leads no further. -/
theorem spot_of_astray (hp : Follows p q) (fits : Fits p) (hq : q ≠ "")
    (astray : Astray (fs.spot false q (names q))) :
    fs.spot false p (names p) = .error .notFound := by
  obtain ⟨dots, n, -, names⟩ := hp.names
  have walked : Astray (walk fs.tree false linkLimit (start fs.home q) (FileSystem.names q)) := by
    unfold spot at astray
    cases hc : checkText q with
    | ok u =>
      rw [hc] at astray
      exact astray
    | error c =>
      rw [hc] at astray
      rcases astray with h | ⟨l, h⟩
      · exact absurd (hc.trans (congrArg _ (Except.error.inj h))) (checkText_ne_notFound hq)
      · exact absurd h nofun
  unfold spot
  rw [fits.1, names]
  show walk fs.tree false linkLimit (start fs.home p) _ = _
  rw [start_congr _ hp.absolute]
  exact walk_astray (by simp) walked

theorem spot_root (absolute : PathText.isAbsolute p = true) (none : names p = []) (fits : Fits p) :
    fs.spot false p (names p) = .ok (.present []) := by
  unfold spot
  rw [fits.1, none]
  show walk fs.tree false linkLimit (start fs.home p) [] = _
  unfold start
  rw [walk_nil, absolute]
  rfl

/-- **A path that cannot be walked** is one from an entry that is in the way. -/
theorem blocked_of_spot (chain : Chain p above) (ground : fs.Grounded p)
    (fits : ∀ a ∈ p :: above, a ≠ "" → Fits a) (hp : p ≠ "")
    (hx : fs.spot false p (names p) = .error e) (he : e ≠ .notFound) :
    ∃ a ∈ above, a ≠ "" ∧ fs.Blocked a := by
  induction chain generalizing e with
  | start => exact absurd rfl hp
  | @root p absolute none =>
    exact absurd (hx.symm.trans (spot_root absolute none (fits p (.head _) hp))) nofun
  | @step p q above hf chain ih =>
    have fit := fits p (.head _) hp
    have stuck : ¬∃ l, fs.Leads q l ∧ fs.tree.find? l = some .directory := by
      rintro ⟨l, hq, hd⟩
      rcases spot_of_follows hf hq hd fit with ⟨k, hk⟩ | ⟨k, hk⟩
      · exact absurd (hx.symm.trans hk) nofun
      · exact absurd (hx.symm.trans hk) nofun
    have other : q ≠ "" := by
      rintro rfl
      exact stuck (Grounded.leads_empty (ground.of_follows hf))
    have closed : fs.isDirectory q = false := by
      rw [Bool.eq_false_iff]
      exact fun h => stuck (leads_of_isDirectory h)
    have astray (h : Astray (fs.spot false q (names q))) : False := by
      have := spot_of_astray hf fit other h
      exact he (Except.error.inj (hx.symm.trans this))
    cases hy : fs.spot false q (names q) with
    | ok x =>
      cases x with
      | present k => exact ⟨q, .head _, other, ⟨k, hy⟩, closed⟩
      | absent k => exact (astray (Or.inr ⟨k, hy⟩)).elim
    | error c =>
      by_cases hc : c = .notFound
      · exact (astray (Or.inl (hc ▸ hy))).elim
      · obtain ⟨a, ha, hn, blocked⟩ :=
          ih (ground.of_follows hf) (fun a ha => fits a (.tail _ ha)) other hy hc
        exact ⟨a, .tail _ ha, hn, blocked⟩

/-- What a walk finds where a directory should be made is in its way, or a directory. -/
theorem blocked_of_madeOrThere
    (hx : fs.Holds p ∨ ∃ k, fs.spot false p (names p) = .ok (.absent k))
    (h : madeOrThere p fs = (.error e, gs)) : gs.Blocked p := by
  rw [madeOrThere_apply, makeDirectory_apply] at h
  rcases hx with ⟨k, hk⟩ | ⟨k, hk⟩
  · rw [hk] at h
    dsimp only at h
    split at h
    · exact absurd (Prod.mk.inj h).1 nofun
    · next closed =>
      rw [← (Prod.mk.inj h).2]
      exact ⟨⟨k, hk⟩, by simpa using closed⟩
  · rw [hk] at h
    exact absurd (Prod.mk.inj h).1 nofun

/-- Where the walk does not miss anything, what fails has something in its way. -/
theorem blocked_of_found (chain : Chain p above) (ground : fs.Grounded p)
    (fits : ∀ a ∈ p :: above, a ≠ "" → Fits a) (hp : p ≠ "")
    (found : fs.spot false p (names p) ≠ .error .notFound)
    (h : madeOrThere p fs = (.error e, gs)) : ∃ a ∈ p :: above, a ≠ "" ∧ gs.Blocked a := by
  cases hx : fs.spot false p (names p) with
  | ok x =>
    refine ⟨p, .head _, hp, blocked_of_madeOrThere ?_ h⟩
    cases x with
    | present k => exact Or.inl ⟨k, hx⟩
    | absent k => exact Or.inr ⟨k, hx⟩
  | error c =>
    -- Nothing was done, so that what is in the way was there before.
    rw [madeOrThere_apply, makeDirectory_apply, hx] at h
    dsimp only at h
    split at h
    · exact absurd (Prod.mk.inj h).1 nofun
    · rw [← (Prod.mk.inj h).2]
      have other : c ≠ .notFound := fun hc => found (hx.trans (congrArg _ hc))
      obtain ⟨a, ha, hn, blocked⟩ := blocked_of_spot chain ground fits hp hx other
      exact ⟨a, .tail _ ha, hn, blocked⟩

/-- What a path leads to does not have its ancestors made. -/
theorem makeDirectoriesFrom_of_spot (above : List String) (hp : p ≠ "")
    (hx : fs.spot false p (names p) ≠ .error .notFound) :
    makeDirectoriesFrom p above fs = madeOrThere p fs := by
  refine makeDirectoriesFrom_of_found hp fun missing => hx ?_
  rw [makeDirectory_apply] at missing
  cases hc : fs.spot false p (names p) with
  | error c =>
    rw [hc] at missing
    exact congrArg _ (Except.error.inj missing)
  | ok x =>
    rw [hc] at missing
    cases x <;> exact absurd missing nofun

/-- **What cannot be made** has something in its way. -/
theorem blocked_of_makeDirectoriesFrom (chain : Chain p above) (ground : fs.Grounded p)
    (fits : ∀ a ∈ p :: above, a ≠ "" → Fits a)
    (h : makeDirectoriesFrom p above fs = (.error e, gs)) :
    ∃ a ∈ p :: above, a ≠ "" ∧ gs.Blocked a := by
  induction chain generalizing e gs with
  | start =>
    rw [makeDirectoriesFrom_apply, if_pos rfl] at h
    exact absurd (Prod.mk.inj h).1 nofun
  | @root p absolute none =>
    have hp : p ≠ "" := by
      rintro rfl
      exact absurd absolute (by decide +kernel)
    have hx : fs.spot false p (names p) ≠ .error .notFound := by
      rw [spot_root absolute none (fits p (.head _) hp)]
      exact nofun
    rw [makeDirectoriesFrom_of_spot _ hp hx] at h
    exact blocked_of_found (.root absolute none) ground fits hp hx h
  | @step p q above hf chain ih =>
    have hp : p ≠ "" := by
      rintro rfl
      obtain ⟨dots, n, -, names⟩ := hf.names
      rw [PathText.names_empty] at names
      simp at names
    by_cases hx : fs.spot false p (names p) ≠ .error .notFound
    · rw [makeDirectoriesFrom_of_spot _ hp hx] at h
      exact blocked_of_found (.step hf chain) ground fits hp hx h
    · have failed : makeDirectory p fs = (.error .notFound, fs) := by
        rw [makeDirectory_apply, not_not.mp hx]
      rw [makeDirectoriesFrom_apply, if_neg hp, failed] at h
      dsimp only at h
      obtain ⟨made, there⟩ := makeDirectoriesFrom_made q above fs
      rcases hm : makeDirectoriesFrom q above fs with ⟨c | u, hs⟩
      · rw [hm] at h
        obtain ⟨-, rfl⟩ := Prod.mk.inj h
        obtain ⟨a, ha, hn, blocked⟩ :=
          ih (ground.of_follows hf) (fun a ha => fits a (.tail _ ha)) hm
        exact ⟨a, .tail _ ha, hn, blocked⟩
      · rw [hm] at h made there
        have ground := (ground.of_follows hf).mono made.home made.grows.le
        obtain ⟨l, hq, hd⟩ : ∃ l, hs.Leads q l ∧ hs.tree.find? l = some .directory := by
          rcases there rfl with rfl | there
          · exact ground.leads_empty
          · exact leads_of_isDirectory there
        have hx := spot_of_follows hf hq hd (fits p (.head _) hp)
        exact ⟨p, .head _, hp, blocked_of_madeOrThere hx h⟩

/-- **A directory can be made with all above it**, unless something that is no directory turns up on
the way. -/
theorem makeDirectories_succeeds (chain : Chain p (PathText.ancestors p)) (ground : fs.Grounded p)
    (fits : ∀ a ∈ p :: PathText.ancestors p, a ≠ "" → Fits a)
    (clear : ∀ a ∈ p :: PathText.ancestors p, a ≠ "" → (makeDirectories p fs).2.Holds a →
      (makeDirectories p fs).2.isDirectory a = true) :
    ∃ l, makeDirectories p fs = (.ok (), (makeDirectories p fs).2) ∧
      (makeDirectories p fs).2.Leads p l ∧
      (makeDirectories p fs).2.tree.find? l = some .directory := by
  obtain ⟨made, there⟩ := makeDirectories_made p fs
  rcases hm : makeDirectories p fs with ⟨e | u, gs⟩
  · rw [hm] at clear
    obtain ⟨a, ha, hn, held, closed⟩ := blocked_of_makeDirectoriesFrom chain ground fits hm
    exact absurd ((clear a ha hn held).symm.trans closed) nofun
  · rw [hm] at made there
    obtain ⟨l, hl⟩ : ∃ l, gs.Leads p l ∧ gs.tree.find? l = some .directory := by
      rcases there rfl with rfl | there
      · exact (ground.mono made.home made.grows.le).leads_empty
      · exact leads_of_isDirectory there
    exact ⟨l, rfl, hl⟩

/-- Where the directory is there, nothing needs to be made. -/
theorem makeDirectories_of_directory (hq : fs.Leads q l) (hd : fs.tree.find? l = some .directory)
    (fits : q ≠ "" → Fits q) : makeDirectories q fs = (.ok (), fs) := by
  unfold makeDirectories
  by_cases hn : q = ""
  · rw [makeDirectoriesFrom_apply, if_pos hn]
  · obtain ⟨k, hk⟩ := Walks.unfollowed hq
    have spot : fs.spot false q (names q) = .ok (.present k) :=
      spot_eq_ok_iff.mpr ⟨(fits hn).1, hk⟩
    have there : fs.isDirectory q = true :=
      isDirectory_iff.mpr ⟨l, directoryAt_eq_ok_iff.mpr ⟨(fits hn).1, hq, hd⟩⟩
    rw [makeDirectoriesFrom_apply, if_neg hn, makeDirectory_apply, spot]
    exact if_pos there

/-- A name in a directory that is there has a place. -/
theorem place_of_leads (hp : Under p q n) (hq : fs.Leads q l)
    (hd : fs.tree.find? l = some .directory) (fits : Fits p) :
    ∃ m : Name, m.text = n ∧ fs.place p = .ok (l ++ [m]) := by
  obtain ⟨-, h₁, h₂, -⟩ := hp.step
  obtain ⟨dots, -, names⟩ := hp.names
  have named : n ∈ FileSystem.names p := by
    rw [names]
    simp
  have valid : Name.isValid n = true := ((fits.2 n named).resolve_left h₁).resolve_left h₂
  exact ⟨⟨n, valid⟩, rfl, (place_eq_ok_iff hp).mpr ⟨fits.1, l, ⟨n, valid⟩, hq, hd, rfl, rfl⟩⟩

/-- What a path that names a place goes on from is a directory. -/
theorem directory_before {a : String} {more : List String} (hp : Under p q n)
    (hD : fs.place p = .ok D) (absolute : PathText.isAbsolute a = PathText.isAbsolute p)
    (split : names p = names a ++ more) (onward : more ≠ []) :
    ∃ l, fs.Leads a l ∧ fs.tree.find? l = some .directory := by
  obtain ⟨-, walks⟩ := spot_eq_ok_iff.mp (spot_of_place hD hp)
  rw [split, start_congr _ absolute.symm] at walks
  obtain ⟨l, left, first, rest⟩ := walks.split onward
  obtain ⟨s, more, rfl⟩ := List.exists_cons_of_ne_nil onward
  exact ⟨l, first, directory_of_walk rest.walk⟩

/-- **A directory is made in a free place.** -/
theorem Free.makeDirectories {T : Location} (h : fs.Free p T) (hp : Under p q n) :
    makeDirectories p fs = (.ok (), fs.withCopy T []) := by
  have spot : fs.spot false p (names p) = .ok (.absent T) := by
    rw [spot_of_place h.place hp, if_pos h.vacant]
  unfold FileSystem.makeDirectories
  rw [makeDirectoriesFrom_apply, if_neg hp.ne_empty, makeDirectory_apply, spot]
  rfl

/-! ## Moving -/

/-- What holds the place of a path is there. -/
theorem holder_of_place (hp : Under p q n) (hD : fs.place p = .ok D) : ∃ l, fs.holder p = .ok l := by
  obtain ⟨hc, l, m, hl, hd, -, rfl⟩ := (place_eq_ok_iff hp).mp hD
  obtain ⟨dots, hdots, names⟩ := hp.names
  obtain ⟨left, ha⟩ := hl.append
  have front : (FileSystem.names p).dropLast = FileSystem.names q ++ dots := by
    rw [names, ← List.append_assoc, List.dropLast_concat]
  have spot : fs.spot true p (FileSystem.names p).dropLast = .ok (.present l) := by
    unfold spot
    rw [hc, front]
    show walk fs.tree true linkLimit (start fs.home p) _ = _
    rw [start_congr _ hp.absolute]
    by_cases hn : dots = []
    · rw [hn, List.append_nil]
      exact hl.walk
    · have stay : walk fs.tree true left l (dots ++ []) = walk fs.tree true left l [] :=
        walk_dots hdots hd
      rw [List.append_nil] at stay
      rw [ha true dots hn, stay, walk_nil]
  refine ⟨l, ?_⟩
  unfold holder
  rw [spot]
  exact if_pos hd

/-- **A directory moves to a place that holds nothing.** -/
theorem rename_succeeds {s r m : String} {S : Location} (hs : Under s r m) (hp : Under p q n)
    (hS : fs.place s = .ok S) (hd : fs.tree.find? S = some .directory) (hD : fs.place p = .ok D)
    (vacant : fs.tree.find? D = none) (apart : S.within D = none) :
    rename s p fs = (.ok (), { fs with tree := fs.tree.move S D }) := by
  obtain ⟨a, ha⟩ := holder_of_place hs hS
  obtain ⟨b, hb⟩ := holder_of_place hp hD
  have source : fs.spot false s (names s) = .ok (.present S) := by
    rw [spot_of_place hS hs, hd, if_neg nofun]
  have target : fs.spot false p (names p) = .ok (.absent D) := by
    rw [spot_of_place hD hp, if_pos vacant]
  have ends : (!hasPlainEnd s || !hasPlainEnd p) = false := by
    rw [hasPlainEnd_under hs, hasPlainEnd_under hp]
    rfl
  unfold rename
  refine FileStep.atOnce_ok ?_
  simp only [ha, hb, ends, source, target, hd, apart, bind, Except.bind, Bool.false_eq_true,
    if_false, decide_true, Bool.not_true, Bool.false_and, Option.isSome_none]

end FileSystem
end GatedRelease
