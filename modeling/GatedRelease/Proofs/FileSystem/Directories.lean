import GatedRelease.Proofs.FileSystem.PathText
import GatedRelease.Proofs.FileSystem.Walk

/-! # Making directories

A path that ends in a step leads into the directory that its parent names, and there to the entry
of that name (`spot_under`); the place of the entry is the same whether it is there or not
(`place`).  Making a directory with all above it adds directories and nothing else, each of which
is one that a path of the chain names (`Made`).
-/
namespace GatedRelease

/-! ## Steps on the files -/

namespace FileStep
variable {ε δ α β : Type} (fs : FileSystem)

theorem bind_apply (x : FileStep ε α) (f : α → FileStep ε β) :
    (x >>= f) fs = match x fs with
      | (.ok a, fs') => f a fs'
      | (.error e, fs') => (.error e, fs') := by
  show (ExceptT.bindCont f (x fs).1) (x fs).2 = _
  rcases x fs with ⟨_ | _, _⟩ <;> rfl

theorem look_apply (f : FileSystem → Except ε α) : look f fs = (f fs, fs) := rfl

theorem atOnce_ok {f : FileSystem → Except ε FileSystem} {fs fs' : FileSystem}
    (h : f fs = .ok fs') : atOnce f fs = (.ok (), fs') := by
  unfold atOnce
  rw [h]

theorem atOnce_error {f : FileSystem → Except ε FileSystem} {fs : FileSystem} {e : ε}
    (h : f fs = .error e) : atOnce f fs = (.error e, fs) := by
  unfold atOnce
  rw [h]

theorem get_apply : (get : FileStep ε FileSystem) fs = (.ok fs, fs) := rfl

theorem modify_apply (f : FileSystem → FileSystem) :
    (modify f : FileStep ε PUnit) fs = (.ok ⟨⟩, f fs) := rfl

theorem attempt_apply (x : FileStep ε α) :
    (x.attempt : FileStep δ (Except ε α)) fs = (.ok (x fs).1, (x fs).2) := rfl

theorem orElseSay_apply (x : FileStep ε α) (say : ε → δ) :
    x.orElseSay say fs = ((x fs).1.mapError say, (x fs).2) := by
  unfold orElseSay
  rcases x fs with ⟨_ | _, _⟩ <;> rfl

end FileStep

namespace FileSystem
variable {fs fs' : FileSystem} {p q n : String} {l D : Location}
open PathText (Under)

/-! ## Where a path leads -/

/-- The names of the path lead to the location, along all links. -/
def Leads (fs : FileSystem) (p : String) (l : Location) : Prop :=
  Walks fs.tree true linkLimit (start fs.home p) (names p) (.present l)

theorem leads_empty (fs : FileSystem) : fs.Leads "" fs.home := by
  unfold Leads
  rw [PathText.names_empty]
  exact .here

/-- Where a walk begins depends on the first character of the path alone. -/
theorem start_congr (here : Location) (h : PathText.isAbsolute p = PathText.isAbsolute q) :
    start here p = start here q := by
  unfold start
  rw [h]

theorem steps_under (h : Under p q n) : steps p = names p := by
  unfold steps
  rw [h.slash]
  rfl

theorem Leads.mono (h : fs.Leads p l) (home : fs'.home = fs.home) (le : fs.tree ≤ fs'.tree) :
    fs'.Leads p l := by
  unfold Leads
  rw [home]
  exact Walks.mono h le

theorem Leads.unique {k : Location} {gs hs : FileSystem} (h : fs.Leads p l) (h' : gs.Leads p k)
    (le : fs.tree ≤ hs.tree) (le' : gs.tree ≤ hs.tree) (home : fs.home = hs.home)
    (home' : gs.home = hs.home) : l = k := by
  unfold Leads at h h'
  rw [home] at h
  rw [home'] at h'
  exact h.unique h' le le'

/-- A path that leads somewhere does so from each path that it goes on from. -/
theorem Leads.above {a : String} (h : fs.Leads p l)
    (absolute : PathText.isAbsolute a = PathText.isAbsolute p) (ha : names a <+: names p) :
    ∃ k, fs.Leads a k := by
  obtain ⟨more, names⟩ := ha
  unfold Leads at h ⊢
  rw [start_congr _ absolute]
  rw [← names] at h
  by_cases hm : more = []
  · rw [hm, List.append_nil] at h
    exact ⟨l, h⟩
  · obtain ⟨k, -, hk, -⟩ := h.split hm
    exact ⟨k, hk⟩

theorem spot_eq_ok_iff {follow : Bool} {path : List String} {x : Spot} :
    fs.spot follow p path = .ok x ↔ checkText p = .ok () ∧
      Walks fs.tree follow linkLimit (start fs.home p) path x := by
  rw [← walk_eq_ok_iff]
  unfold spot
  cases h : checkText p with
  | error e =>
    constructor
    · exact nofun
    · rintro ⟨⟨⟩, -⟩
  | ok u =>
    constructor
    · exact fun hw => ⟨rfl, hw⟩
    · exact fun hw => hw.2

theorem locate_eq_ok_iff {follow : Bool} : fs.locate follow p = .ok l ↔ checkText p = .ok () ∧
    Walks fs.tree follow linkLimit (start fs.home p) (steps p) (.present l) := by
  rw [← spot_eq_ok_iff]
  unfold locate
  cases h : fs.spot follow p (steps p) with
  | error e => exact ⟨nofun, nofun⟩
  | ok x =>
    cases x with
    | present k =>
      constructor
      · intro h
        rw [Except.ok.inj h]
      · intro h
        rw [Spot.present.inj (Except.ok.inj h)]
        rfl
    | absent k => exact ⟨nofun, nofun⟩

theorem directoryAt_iff_canonical : fs.directoryAt p = .ok l ↔
    fs.canonical p = .ok l ∧ fs.tree.find? l = some .directory := by
  unfold directoryAt
  cases h : fs.canonical p with
  | error e => exact ⟨nofun, fun h => absurd h.1 nofun⟩
  | ok k =>
    show (if fs.tree.find? k = some .directory then Except.ok k
      else Except.error Cause.notDirectory) = _ ↔ _
    by_cases hk : fs.tree.find? k = some .directory
    · rw [if_pos hk]
      constructor
      · intro h
        rw [← Except.ok.inj h]
        exact ⟨rfl, hk⟩
      · exact fun h => h.1
    · rw [if_neg hk]
      constructor
      · exact nofun
      · rintro ⟨h, hl⟩
        rw [Except.ok.inj h] at hk
        exact absurd hl hk

/-- **A directory is where the names of its path lead**, with or without a slash at the end. -/
theorem directoryAt_eq_ok_iff : fs.directoryAt p = .ok l ↔
    checkText p = .ok () ∧ fs.Leads p l ∧ fs.tree.find? l = some .directory := by
  rw [directoryAt_iff_canonical, canonical, locate_eq_ok_iff, and_assoc]
  refine and_congr_right fun _ => ?_
  unfold steps Leads
  by_cases hs : PathText.endsInSlash p = true
  · rw [if_pos hs]
    constructor
    · rintro ⟨hw, hd⟩
      obtain ⟨k, left, h₁, h₂⟩ := hw.split (by simp)
      -- A dot stays where it is.
      have stay := h₂.walk
      rw [walk_cons] at stay
      by_cases hk : fs.tree.find? k = some .directory
      · rw [if_neg (not_not_intro hk), if_pos rfl, walk_nil] at stay
        rw [← Spot.present.inj (Except.ok.inj stay)]
        exact ⟨h₁, hk⟩
      · rw [if_pos hk] at stay
        exact absurd stay nofun
    · rintro ⟨hw, hd⟩
      obtain ⟨left, ha⟩ := hw.append
      refine ⟨walks_of_walk ?_, hd⟩
      rw [ha true ["."] (by simp), walk_cons, if_neg (not_not_intro hd), if_pos rfl, walk_nil]
  · rw [if_neg hs]

theorem isDirectory_iff : fs.isDirectory p = true ↔ ∃ l, fs.directoryAt p = .ok l := by
  unfold isDirectory
  cases fs.directoryAt p with
  | error e => exact ⟨nofun, fun h => absurd h.choose_spec nofun⟩
  | ok l => exact ⟨fun _ => ⟨l, rfl⟩, fun _ => rfl⟩

/-- Where a name leads in a directory. -/
def into (t : Tree) (l : Location) (n : String) : Except Cause Spot :=
  if t.find? l ≠ some .directory then .error .notDirectory
  else match Name.ofString? n with
    | none => .error .nameTooLong
    | some m => .ok (if t.find? (l ++ [m]) = none then .absent (l ++ [m]) else .present (l ++ [m]))

theorem walk_step {t : Tree} {links : Nat} {dots : List String} (hdots : ∀ d ∈ dots, d = ".")
    (hn : PathText.IsStep n) : walk t false links l (dots ++ [n]) = into t l n := by
  obtain ⟨-, h₁, h₂, -⟩ := hn
  unfold into
  by_cases hd : t.find? l = some .directory
  · rw [if_neg (not_not_intro hd)]
    induction dots with
    | nil =>
      rw [List.nil_append, walk_cons, if_neg (not_not_intro hd), if_neg h₁, if_neg h₂]
      cases Name.ofString? n with
      | none => rfl
      | some m =>
        dsimp only
        cases he : t.find? (l ++ [m]) with
        | none => rfl
        | some e =>
          cases e with
          | link target => simp
          | directory | file => simp [walk_nil]
    | cons d dots ih =>
      obtain ⟨rfl, more⟩ := List.forall_mem_cons.mp hdots
      rw [List.cons_append, walk_cons, if_neg (not_not_intro hd), if_pos rfl, ih more]
  · rw [if_pos hd]
    cases dots with
    | nil => rw [List.nil_append, walk_cons, if_pos hd]
    | cons d dots => rw [List.cons_append, walk_cons, if_pos hd]

theorem ne_empty_of_checkText (h : checkText p = .ok ()) : p ≠ "" := by
  rintro rfl
  exact absurd h (by decide +kernel)

/-- A path leads to an entry. -/
theorem Leads.found (h : fs.Leads p l) (hp : p ≠ "") : ∃ e, fs.tree.find? l = some e := by
  unfold Leads at h
  refine Walks.found h ?_
  by_cases hn : names p = []
  · have root : PathText.isAbsolute p = true := PathText.isAbsolute_of_names hp hn
    unfold start
    rw [root]
    exact Or.inr ⟨_, Tree.find?_root _⟩
  · exact Or.inl hn

/-- Only the empty path is missed for its text. -/
theorem checkText_ne_notFound (hp : p ≠ "") : checkText p ≠ .error .notFound := by
  have hb : ¬(p == "") = true := by simpa using hp
  unfold checkText
  rw [if_neg hb]
  split
  · exact nofun
  · split <;> exact nofun

/-- **A path that ends in a step leads into the directory that its parent names.** -/
theorem spot_under (h : Under p q n) (hq : fs.Leads q l) (hp : checkText p = .ok ()) :
    fs.spot false p (names p) = into fs.tree l n := by
  obtain ⟨dots, hdots, names⟩ := h.names
  obtain ⟨left, ha⟩ := hq.append
  unfold spot
  rw [hp, names]
  show walk fs.tree false linkLimit (start fs.home p) _ = _
  rw [start_congr _ h.absolute, ha false _ (by simp), walk_step hdots h.step]

theorem leads_of_spot {x : Spot} (h : Under p q n) (hx : fs.spot false p (names p) = .ok x) :
    ∃ l, fs.Leads q l := by
  obtain ⟨dots, hdots, names⟩ := h.names
  obtain ⟨-, hw⟩ := spot_eq_ok_iff.mp hx
  rw [names, start_congr _ h.absolute] at hw
  obtain ⟨l, -, h₁, -⟩ := hw.split (by simp)
  exact ⟨l, h₁⟩

/-- The place of the entry that a path names, a link taken for itself; the entry need not be
there. -/
def place (fs : FileSystem) (p : String) : Except Cause Location :=
  (fs.spot false p (names p)).map Spot.location

theorem place_of_spot {x : Spot} (hx : fs.spot false p (names p) = .ok x) :
    fs.place p = .ok x.location := by
  unfold place
  rw [hx]
  rfl

theorem into_eq_ok_iff {t : Tree} {x : Spot} : into t l n = .ok x ↔
    t.find? l = some .directory ∧ ∃ m : Name, m.text = n ∧
      x = if t.find? (l ++ [m]) = none then .absent (l ++ [m]) else .present (l ++ [m]) := by
  unfold into
  by_cases hd : t.find? l = some .directory
  · rw [if_neg (not_not_intro hd)]
    cases hm : Name.ofString? n with
    | none =>
      constructor
      · exact nofun
      · rintro ⟨-, m, rfl, -⟩
        rw [m.ofString?_text] at hm
        exact absurd hm nofun
    | some m =>
      constructor
      · exact fun h => ⟨hd, m, Name.text_of_ofString? hm, (Except.ok.inj h).symm⟩
      · rintro ⟨-, m', rfl, rfl⟩
        rw [m'.ofString?_text] at hm
        rw [Option.some.inj hm]
  · rw [if_pos hd]
    exact ⟨nofun, fun h => absurd h.1 hd⟩

/-- **The place of a path that ends in a step** is in the directory that its parent names. -/
theorem place_eq_ok_iff (h : Under p q n) : fs.place p = .ok D ↔ checkText p = .ok () ∧
    ∃ l m, fs.Leads q l ∧ fs.tree.find? l = some .directory ∧ m.text = n ∧ D = l ++ [m] := by
  unfold place
  constructor
  · intro hD
    cases hx : fs.spot false p (names p) with
    | error e =>
      rw [hx] at hD
      exact absurd hD nofun
    | ok x =>
      rw [hx] at hD
      obtain ⟨hp, -⟩ := spot_eq_ok_iff.mp hx
      obtain ⟨l, hl⟩ := leads_of_spot h hx
      rw [spot_under h hl hp] at hx
      obtain ⟨hd, m, hm, rfl⟩ := into_eq_ok_iff.mp hx
      refine ⟨hp, l, m, hl, hd, hm, ?_⟩
      rw [← Except.ok.inj hD]
      split <;> rfl
  · rintro ⟨hp, l, m, hl, hd, hm, rfl⟩
    rw [spot_under h hl hp, into_eq_ok_iff.mpr ⟨hd, m, hm, rfl⟩]
    show Except.ok _ = _
    congr 1
    split <;> rfl

/-- What stands in the place of a path is what the path names. -/
theorem spot_of_place (hD : fs.place p = .ok D) (h : Under p q n) : fs.spot false p (names p) =
    .ok (if fs.tree.find? D = none then .absent D else .present D) := by
  obtain ⟨hp, l, m, hl, hd, hm, rfl⟩ := (place_eq_ok_iff h).mp hD
  rw [spot_under h hl hp]
  exact into_eq_ok_iff.mpr ⟨hd, m, hm, rfl⟩

theorem place_ne_nil (hD : fs.place p = .ok D) (h : Under p q n) : D ≠ [] := by
  obtain ⟨-, l, m, -, -, -, rfl⟩ := (place_eq_ok_iff h).mp hD
  simp

theorem find?_holder (hD : fs.place p = .ok D) (h : Under p q n) :
    fs.tree.find? D.dropLast = some .directory := by
  obtain ⟨-, l, m, -, hd, -, rfl⟩ := (place_eq_ok_iff h).mp hD
  rw [List.dropLast_concat]
  exact hd

/-- A path leads to what is in its place, unless that is a link. -/
theorem leads_of_place (hD : fs.place p = .ok D) (h : Under p q n) {e : Entry}
    (he : fs.tree.find? D = some e) (solid : ∀ target, e ≠ .link target) : fs.Leads p D := by
  obtain ⟨hp, l, m, hl, hq, hm, rfl⟩ := (place_eq_ok_iff h).mp hD
  obtain ⟨dots, hdots, names⟩ := h.names
  obtain ⟨left, ha⟩ := hl.append
  have down : Walks fs.tree true left l (dots ++ [n]) (.present (l ++ [m])) := by
    clear names ha
    induction dots with
    | nil =>
      rw [← hm]
      exact .down he solid .here
    | cons d dots ih =>
      obtain ⟨rfl, more⟩ := List.forall_mem_cons.mp hdots
      exact .dot hq (ih more)
  unfold Leads
  rw [names, start_congr _ h.absolute]
  refine walks_of_walk ?_
  rw [ha true _ (by simp)]
  exact down.walk

theorem pathExists_of_place (hD : fs.place p = .ok D) (h : Under p q n) {e : Entry}
    (he : fs.tree.find? D = some e) (solid : ∀ target, e ≠ .link target) :
    fs.pathExists p = true := by
  obtain ⟨hp, -⟩ := (place_eq_ok_iff h).mp hD
  have leads := leads_of_place hD h he solid
  unfold Leads at leads
  rw [← steps_under h] at leads
  have found : fs.canonical p = .ok D := locate_eq_ok_iff.mpr ⟨hp, leads⟩
  unfold pathExists
  rw [found]

/-- A directory in the place of a path is the one that the path names. -/
theorem directoryAt_of_place (hD : fs.place p = .ok D) (h : Under p q n)
    (hd : fs.tree.find? D = some .directory) : fs.directoryAt p = .ok D :=
  directoryAt_eq_ok_iff.mpr ⟨((place_eq_ok_iff h).mp hD).1, leads_of_place hD h hd nofun, hd⟩

theorem pathExists_of_directoryAt (h : fs.directoryAt p = .ok l) : fs.pathExists p = true := by
  unfold pathExists
  rw [(directoryAt_iff_canonical.mp h).1]

/-- What a path names is in its place. -/
theorem place_of_pathExists (h : Under p q n) (he : fs.pathExists p = true) :
    ∃ D, fs.place p = .ok D ∧ ∃ e, fs.tree.find? D = some e := by
  unfold pathExists at he
  cases hc : fs.canonical p with
  | error e =>
    rw [hc] at he
    exact absurd he nofun
  | ok k =>
    obtain ⟨hp, hw⟩ := locate_eq_ok_iff.mp hc
    rw [steps_under h] at hw
    obtain ⟨D, hw⟩ := Walks.unfollowed hw
    have hx : fs.spot false p (names p) = .ok (.present D) := spot_eq_ok_iff.mpr ⟨hp, hw⟩
    have hD : fs.place p = .ok D := place_of_spot hx
    refine ⟨D, hD, ?_⟩
    rw [spot_of_place hD h] at hx
    cases hf : fs.tree.find? D with
    | some e => exact ⟨e, rfl⟩
    | none =>
      rw [if_pos hf] at hx
      exact absurd hx nofun

/-! ## Making directories -/

theorem makeDirectory_apply (p : String) (fs : FileSystem) : makeDirectory p fs =
    match fs.spot false p (names p) with
    | .error e => (.error e, fs)
    | .ok (.present _) => (.error .alreadyExists, fs)
    | .ok (.absent l) => (.ok (), { fs with tree := fs.tree.put l .directory }) := by
  unfold makeDirectory FileStep.atOnce
  dsimp only
  cases fs.spot false p (names p) with
  | error e => rfl
  | ok x => cases x <;> rfl

/-- **What making directories does**: there are more directories, each named by one of the paths. -/
structure Made (paths : List String) (fs fs' : FileSystem) : Prop where
  home : fs'.home = fs.home
  grows : fs.tree.Grows fs'.tree
  named : ∀ l, fs.tree.find? l = none → fs'.tree.find? l = some .directory →
    ∃ a ∈ paths, fs'.directoryAt a = .ok l

namespace Made
variable {paths more : List String}

theorem refl (paths : List String) (fs : FileSystem) : Made paths fs fs := by
  refine ⟨rfl, .refl _, fun l hn hd => ?_⟩
  rw [hn] at hd
  exact absurd hd nofun

theorem mono (h : Made paths fs fs') (hp : ∀ a ∈ paths, a ∈ more) : Made more fs fs' := by
  refine ⟨h.home, h.grows, fun l hn hd => ?_⟩
  obtain ⟨a, ha, hl⟩ := h.named l hn hd
  exact ⟨a, hp a ha, hl⟩

theorem trans {gs : FileSystem} (h : Made paths fs fs') (h' : Made paths fs' gs) :
    Made paths fs gs := by
  refine ⟨h'.home.trans h.home, h.grows.trans h'.grows, fun l hn hd => ?_⟩
  cases he : fs'.tree.find? l with
  | none => exact h'.named l he hd
  | some e =>
    have stays := h'.grows.le l e he
    rw [hd] at stays
    rw [← Option.some.inj stays] at he
    obtain ⟨a, ha, hl⟩ := h.named l hn he
    -- What the path named it still names, since all that it led along is still there.
    obtain ⟨hc, hleads, -⟩ := directoryAt_eq_ok_iff.mp hl
    exact ⟨a, ha, directoryAt_eq_ok_iff.mpr ⟨hc, hleads.mono h'.home h'.grows.le, hd⟩⟩

/-- A directory to which a path led before is none of the new ones. -/
theorem before {a : String} {k : Location} (h : Made paths fs fs') (leads : fs.Leads a k)
    (hl : fs'.directoryAt a = .ok l) : fs.tree.find? l = some .directory := by
  obtain ⟨hc, leads', hd⟩ := directoryAt_eq_ok_iff.mp hl
  have same : k = l := leads.unique leads' h.grows.le (Tree.le_refl _) h.home.symm rfl
  obtain ⟨e, he⟩ := leads.found (ne_empty_of_checkText hc)
  rw [same] at he
  rw [he, ← h.grows.le l e he]
  exact hd

end Made

/-- Making one directory succeeds where there is a place for it, and else changes nothing. -/
theorem makeDirectory_made (p : String) (fs : FileSystem) :
    Made [p] fs (makeDirectory p fs).2 ∧
      ((makeDirectory p fs).1 = .ok () → (makeDirectory p fs).2.isDirectory p = true) := by
  rw [makeDirectory_apply]
  cases hx : fs.spot false p (names p) with
  | error e => exact ⟨.refl _ _, nofun⟩
  | ok x =>
    cases x with
    | present l => exact ⟨.refl _ _, nofun⟩
    | absent l =>
      obtain ⟨hp, hw⟩ := spot_eq_ok_iff.mp hx
      obtain ⟨m, n, rfl, hm, hn⟩ := hw.absent_cases
      have can : fs.tree.CanHold (m ++ [n]) .directory :=
        Tree.canHold_of_absent (by simp) (by rw [List.dropLast_concat]; exact hm) hn _
      have grows : fs.tree.Grows (fs.tree.put (m ++ [n]) .directory) :=
        Tree.grows_put (by simp) (by rw [List.dropLast_concat]; exact hm) hn
      have hd : (fs.tree.put (m ++ [n]) .directory).find? (m ++ [n]) = some .directory := by
        rw [Tree.find?_put can, if_pos rfl]
      have made : FileSystem.directoryAt ⟨fs.tree.put (m ++ [n]) .directory, fs.home⟩ p =
          .ok (m ++ [n]) :=
        directoryAt_eq_ok_iff.mpr ⟨hp, hw.made grows.le hd, hd⟩
      refine ⟨⟨rfl, grows, fun l hl hl' => ?_⟩, fun _ => isDirectory_iff.mpr ⟨_, made⟩⟩
      have here : l = m ++ [n] := by
        by_contra hne
        rw [Tree.find?_put can, if_neg hne, hl] at hl'
        exact absurd hl' nofun
      subst here
      exact ⟨p, by simp, made⟩

/-- Where a directory could not be made, one that is there does as well. -/
def madeOrThere (p : String) : FileStep Cause Unit := do
  match ← (makeDirectory p).attempt with
  | .ok () => return
  | .error e => if (← get).isDirectory p then return else throw e

theorem makeDirectoriesFrom_apply (p : String) (above : List String) (fs : FileSystem) :
    makeDirectoriesFrom p above fs =
      if p = "" then (.ok (), fs)
      else match makeDirectory p fs with
        | (.ok (), fs') => (.ok (), fs')
        | (.error .notFound, fs') =>
          match above with
          | [] => (.error .notFound, fs')
          | parent :: above =>
            match makeDirectoriesFrom parent above fs' with
            | (.ok (), gs) => madeOrThere p gs
            | (.error e, gs) => (.error e, gs)
        | (.error e, fs') =>
          if fs'.isDirectory p = true then (.ok (), fs') else (.error e, fs') := by
  have there (e : Cause) (gs : FileSystem) : ((do
      if (← get).isDirectory p then return else throw e : FileStep Cause Unit)) gs =
        if gs.isDirectory p = true then (.ok (), gs) else (.error e, gs) := by
    rw [FileStep.bind_apply, FileStep.get_apply]
    dsimp only
    split <;> rfl
  rw [makeDirectoriesFrom.eq_def]
  by_cases hp : p = ""
  · rw [if_pos hp, hp]
    rfl
  · have hb : (p == "") = false := by simpa using hp
    simp only [hb, Bool.false_eq_true, if_false, if_neg hp]
    rw [FileStep.bind_apply, FileStep.attempt_apply]
    rcases makeDirectory p fs with ⟨e | u, fs'⟩
    · cases e with
      | notFound =>
        cases above with
        | nil => rfl
        | cons parent above =>
          dsimp only
          rw [FileStep.bind_apply]
          rcases makeDirectoriesFrom parent above fs' with ⟨_ | _, gs⟩ <;> rfl
      | _ => exact there _ fs'
    · rfl

theorem madeOrThere_apply (p : String) (fs : FileSystem) : madeOrThere p fs =
    match makeDirectory p fs with
    | (.ok (), fs') => (.ok (), fs')
    | (.error e, fs') => if fs'.isDirectory p = true then (.ok (), fs') else (.error e, fs') := by
  unfold madeOrThere
  rw [FileStep.bind_apply, FileStep.attempt_apply]
  rcases makeDirectory p fs with ⟨e | u, fs'⟩
  · dsimp only
    rw [FileStep.bind_apply, FileStep.get_apply]
    dsimp only
    split <;> rfl
  · rfl

theorem madeOrThere_made (p : String) (fs : FileSystem) : Made [p] fs (madeOrThere p fs).2 ∧
    ((madeOrThere p fs).1 = .ok () → (madeOrThere p fs).2.isDirectory p = true) := by
  have hm := makeDirectory_made p fs
  rw [madeOrThere_apply]
  generalize makeDirectory p fs = made at hm ⊢
  obtain ⟨e | u, fs'⟩ := made
  · dsimp only at hm ⊢
    by_cases hd : fs'.isDirectory p = true
    · rw [if_pos hd]
      exact ⟨hm.1, fun _ => hd⟩
    · rw [if_neg hd]
      exact ⟨hm.1, nofun⟩
  · exact hm

/-- Unless something is missing above, the rest of the chain is not looked at. -/
theorem makeDirectoriesFrom_of_found {above : List String} (hp : p ≠ "")
    (found : (makeDirectory p fs).1 ≠ .error .notFound) :
    makeDirectoriesFrom p above fs = madeOrThere p fs := by
  rw [makeDirectoriesFrom_apply, madeOrThere_apply, if_neg hp]
  generalize makeDirectory p fs = made at found ⊢
  obtain ⟨e | u, fs'⟩ := made
  · cases e with
    | notFound => exact absurd rfl found
    | _ => rfl
  · rfl

/-- The chain of paths is worked off from its end, and what was made for a path stays. -/
theorem makeDirectoriesFrom_made (p : String) (above : List String) (fs : FileSystem) :
    Made (p :: above) fs (makeDirectoriesFrom p above fs).2 ∧
      ((makeDirectoriesFrom p above fs).1 = .ok () →
        p = "" ∨ (makeDirectoriesFrom p above fs).2.isDirectory p = true) := by
  have first : ∀ a ∈ [p], a ∈ p :: above := by simp
  by_cases hp : p = ""
  · rw [makeDirectoriesFrom_apply, if_pos hp]
    exact ⟨.refl _ _, fun _ => Or.inl hp⟩
  by_cases found : (makeDirectory p fs).1 ≠ .error .notFound
  · obtain ⟨hm, hd⟩ := madeOrThere_made p fs
    rw [makeDirectoriesFrom_of_found hp found]
    exact ⟨hm.mono first, fun h => Or.inr (hd h)⟩
  · obtain ⟨hm, -⟩ := makeDirectory_made p fs
    rw [makeDirectoriesFrom_apply, if_neg hp]
    generalize makeDirectory p fs = made at hm found ⊢
    obtain ⟨result, fs'⟩ := made
    obtain rfl : result = .error .notFound := not_not.mp found
    cases above with
    | nil => exact ⟨hm, nofun⟩
    | cons parent above =>
      have rest : ∀ a ∈ parent :: above, a ∈ p :: parent :: above := fun a ha => .tail _ ha
      obtain ⟨hn, -⟩ := makeDirectoriesFrom_made parent above fs'
      dsimp only at hm ⊢
      generalize makeDirectoriesFrom parent above fs' = made at hn ⊢
      obtain ⟨e | u, gs⟩ := made
      · exact ⟨(hm.mono first).trans (hn.mono rest), nofun⟩
      · obtain ⟨hl, hd⟩ := madeOrThere_made p gs
        exact ⟨((hm.mono first).trans (hn.mono rest)).trans (hl.mono first),
          fun h => Or.inr (hd h)⟩
termination_by structural above

/-- **Making a directory with all above it** adds directories that these paths name, and if it
succeeds, there is the directory. -/
theorem makeDirectories_made (p : String) (fs : FileSystem) :
    Made (p :: PathText.ancestors p) fs (makeDirectories p fs).2 ∧
      ((makeDirectories p fs).1 = .ok () →
        p = "" ∨ (makeDirectories p fs).2.isDirectory p = true) :=
  makeDirectoriesFrom_made p _ fs

/-- Where the path leads somewhere, nothing is made. -/
theorem makeDirectories_of_leads (h : fs.Leads p l) : (makeDirectories p fs).2 = fs := by
  unfold makeDirectories
  by_cases hp : p = ""
  · rw [makeDirectoriesFrom_apply, if_pos hp]
  obtain ⟨e, he, hx⟩ : ∃ e, e ≠ .notFound ∧ makeDirectory p fs = (.error e, fs) := by
    rw [makeDirectory_apply]
    cases hc : checkText p with
    | error e =>
      refine ⟨e, fun hn => checkText_ne_notFound hp (hn ▸ hc), ?_⟩
      unfold spot
      rw [hc]
      rfl
    | ok u =>
      obtain ⟨k, hk⟩ := Walks.unfollowed h
      have hx : fs.spot false p (names p) = .ok (.present k) := spot_eq_ok_iff.mpr ⟨hc, hk⟩
      rw [hx]
      exact ⟨.alreadyExists, nofun, rfl⟩
  have found : (makeDirectory p fs).1 ≠ .error .notFound := by
    rw [hx]
    exact fun h => he (Except.error.inj h)
  rw [makeDirectoriesFrom_of_found hp found, madeOrThere_apply, hx]
  dsimp only
  split <;> rfl

end FileSystem
end GatedRelease
