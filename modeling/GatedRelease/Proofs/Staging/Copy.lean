import GatedRelease.Proofs.FileSystem.Removal
import GatedRelease.Staging

/-! # The copy beside the place

Filling a place makes a copy beside it first, under a name that is vacant.  However far the copy
gets, it stands apart from all else (`withCopy`), and taking it away gives back the files from
before (`Free.without`).  So filling a place has two ways to end (`populate_cases`): it fails,
and nothing is left but the directories above the place; or the copy is as the digest says, and all
of it is in the place.
-/
namespace GatedRelease

namespace FileSystem
variable {fs : FileSystem} {p q n : String} {T k : Location} {xs : List (Location × Entry)}
open PathText (Under)

/-- The files once the directories above a place are made, as far as they can be. -/
def withParents (fs : FileSystem) (p : String) : FileSystem :=
  (makeDirectories ((PathText.parent? p).getD "") fs).2

/-- The files with a new directory and entries put below it. -/
def withCopy (fs : FileSystem) (T : Location) (xs : List (Location × Entry)) : FileSystem :=
  { fs with tree := (fs.tree.put T .directory).plant T xs }

/-- **A place beside all that is there**: nothing is in it, but something can be. -/
structure Free (fs : FileSystem) (p : String) (T : Location) : Prop where
  place : fs.place p = .ok T
  rooted : T ≠ []
  holder : fs.tree.find? T.dropLast = some .directory
  vacant : fs.tree.find? T = none

/-- All else stays as it was. -/
theorem find?_withCopy (fs : FileSystem) (xs : List (Location × Entry))
    (hk : T.within k = none) : (fs.withCopy T xs).tree.find? k = fs.tree.find? k := by
  have ne := Location.within_eq_none_iff.mp hk
  exact (Tree.find?_plant_apart fun x _ => ne x.1).trans
    (Tree.find?_put_apart _ (Location.ne_of_within hk))

namespace Free

theorem can (h : fs.Free p T) : fs.tree.CanHold T .directory :=
  Tree.canHold_of_absent h.rooted h.holder h.vacant _

/-- The place of the copy made, and nothing in it. -/
theorem find?_made (h : fs.Free p T) (k : Location) : (fs.withCopy T []).tree.find? k =
    if k = T then some .directory else fs.tree.find? k := Tree.find?_put h.can k

theorem find?_there (h : fs.Free p T) (hx : ∀ x ∈ xs, x.1 ≠ []) :
    (fs.withCopy T xs).tree.find? T = some .directory := by
  have apart : ∀ x ∈ xs, T ≠ T ++ x.1 := by
    intro x hm he
    exact hx x hm (List.append_right_eq_self.mp he.symm)
  refine (Tree.find?_plant_apart apart).trans ((h.find?_made T).trans ?_)
  rw [if_pos rfl]

/-- The copy of a whole tree is that tree. -/
theorem below (h : fs.Free p T) (sub : Tree) :
    (fs.withCopy T sub.entries).tree.below T = sub := by
  refine Tree.ext_find? fun k => ?_
  by_cases hk : k = []
  · rw [hk, Tree.find?_root, Tree.find?_root]
  · rw [Tree.find?_below _ _ hk]
    refine Tree.find?_plant sub ((h.find?_made T).trans (if_pos rfl)) (fun k hk => ?_) hk
    refine (h.find?_made (T ++ k)).trans ?_
    rw [if_neg (by simpa using hk), Tree.find?_append_eq_none h.vacant]

theorem le (h : fs.Free p T) (xs : List (Location × Entry)) :
    fs.tree ≤ (fs.withCopy T xs).tree := by
  intro k e he
  rcases Location.within_cases T k with ⟨rest, rfl⟩ | hk
  · rw [Tree.find?_append_eq_none h.vacant] at he
    exact absurd he nofun
  · rw [find?_withCopy fs xs hk]
    exact he

/-- **The copy is taken away**, and the files are as they were. -/
theorem without (h : fs.Free p T) (xs : List (Location × Entry)) :
    (fs.withCopy T xs).without T = fs := by
  have : (fs.withCopy T xs).tree.prune T = fs.tree := by
    refine Tree.ext_find? fun k => ?_
    rcases Location.within_cases T k with ⟨rest, rfl⟩ | hk
    · rw [Tree.find?_prune_within _ h.rooted, Tree.find?_append_eq_none h.vacant]
    · rw [Tree.find?_prune_apart _ h.rooted hk, find?_withCopy fs xs hk]
  unfold FileSystem.without
  rw [this]
  rfl

theorem place_withCopy (h : fs.Free p T) (hp : Under p q n) (xs : List (Location × Entry)) :
    (fs.withCopy T xs).place p = .ok T :=
  place_mono hp h.place rfl (h.le xs)

theorem removeTree (h : fs.Free p T) (hp : Under p q n) (hx : ∀ x ∈ xs, x.1 ≠ []) :
    removeTree p (fs.withCopy T xs) = (.ok (), fs) := by
  have away := removeTree_of_detached hp (h.place_withCopy hp xs) (h.find?_there hx)
  rw [h.without] at away
  exact away h.place

theorem pathExists (h : fs.Free p T) (hp : Under p q n) (hx : ∀ x ∈ xs, x.1 ≠ []) :
    (fs.withCopy T xs).pathExists p = true :=
  pathExists_of_directoryAt
    (directoryAt_of_place (h.place_withCopy hp xs) hp (h.find?_there hx))

end Free

theorem free_of_place (hp : Under p q n) (hT : fs.place p = .ok T) (hv : fs.Vacant p) :
    fs.Free p T :=
  ⟨hT, place_ne_nil hT hp, find?_holder hT hp, hv T hT⟩

/-- Where the directory for it is there, an entry is not missed for lack of one. -/
theorem spot_ne_notFound {l : Location} (hp : Under p q n) (hq : fs.Leads q l) :
    fs.spot false p (names p) ≠ .error .notFound := by
  intro hx
  cases hc : checkText p with
  | error e =>
    unfold spot at hx
    rw [hc] at hx
    rw [Except.error.inj hx] at hc
    exact checkText_ne_notFound hp.ne_empty hc
  | ok u =>
    rw [spot_under hp hq hc] at hx
    unfold into at hx
    split at hx
    · exact absurd hx nofun
    · split at hx <;> exact absurd hx nofun

/-- **A directory is made in a vacant place**, or nothing is done. -/
theorem makeDirectories_vacant {l : Location} (hp : Under p q n) (hq : fs.Leads q l)
    (hv : fs.Vacant p) : (∃ e, makeDirectories p fs = (.error e, fs)) ∨
      ∃ T, fs.Free p T ∧ makeDirectories p fs = (.ok (), fs.withCopy T []) := by
  have missing : ¬fs.isDirectory p = true := by
    intro hd
    obtain ⟨k, hk⟩ := isDirectory_iff.mp hd
    have there := pathExists_of_directoryAt hk
    rw [hv.not_pathExists hp] at there
    exact absurd there nofun
  unfold makeDirectories
  rw [makeDirectoriesFrom_apply, if_neg hp.ne_empty, makeDirectory_apply]
  cases hx : fs.spot false p (names p) with
  | error e =>
    cases e with
    | notFound => exact absurd hx (spot_ne_notFound hp hq)
    | _ => exact Or.inl ⟨_, if_neg missing⟩
  | ok x =>
    have hT : fs.place p = .ok x.location := place_of_spot hx
    have hn := hv _ hT
    rw [spot_of_place hT hp, if_pos hn] at hx
    generalize x.location = T at hT hn hx
    rw [← Except.ok.inj hx]
    exact Or.inr ⟨T, free_of_place hp hT hv, rfl⟩

/-- **All of a tree is in the place**, and all else is as it was. -/
structure Placed (fs : FileSystem) (D : Location) (sub : Tree) (fs' : FileSystem) : Prop where
  home : fs'.home = fs.home
  there : fs'.tree.find? D = some .directory
  below : fs'.tree.below D = sub
  apart : ∀ k, D.within k = none → fs'.tree.find? k = fs.tree.find? k

/-- **The copy of a tree moved** into a place apart from it. -/
theorem Free.placed {D : Location} {sub : Tree} (h : fs.Free p T) (hD : D ≠ [])
    (hd : fs.tree.find? D.dropLast = some .directory) (hT : T.within D = none) :
    fs.Placed D sub ⟨(fs.withCopy T sub.entries).tree.move T D, fs.home⟩ := by
  have there : (fs.withCopy T sub.entries).tree.find? T = some .directory :=
    h.find?_there sub.rooted
  have moved := Tree.find?_move h.rooted hD hT there (h.le sub.entries _ _ hd)
  refine ⟨rfl, ?_, ?_, fun k hk => ?_⟩
  · have here := moved (D ++ [])
    rw [Location.within_append] at here
    simpa [there] using here
  · refine Tree.ext_find? fun k => ?_
    by_cases hk : k = []
    · rw [hk, Tree.find?_root, Tree.find?_root]
    · rw [Tree.find?_below _ _ hk, moved, Location.within_append]
      dsimp only
      rw [← Tree.find?_below _ _ hk, h.below]
  · rw [moved, hk]
    dsimp only
    rcases Location.within_cases T k with ⟨rest, rfl⟩ | hTk
    · rw [Location.within_append, Tree.find?_append_eq_none h.vacant]
      rfl
    · rw [hTk, find?_withCopy fs sub.entries hTk]
      rfl

/-- Two names in one directory have places apart. -/
theorem places_apart {s m : String} {D : Location} (hp : Under p q n) (hs : Under s q m)
    (hne : n ≠ m) (hT : fs.place p = .ok T) (hD : fs.place s = .ok D) :
    T.within D = none ∧ D.within T = none := by
  obtain ⟨-, l, a, hl, -, ha, rfl⟩ := (place_eq_ok_iff hp).mp hT
  obtain ⟨-, k, b, hk, -, hb, rfl⟩ := (place_eq_ok_iff hs).mp hD
  have same : l = k := hl.unique hk (Tree.le_refl _) (Tree.le_refl _) rfl rfl
  have other : a ≠ b := by
    rintro rfl
    exact hne (ha.symm.trans hb)
  rw [same]
  exact ⟨Location.within_sibling other, Location.within_sibling (Ne.symm other)⟩

/-- A name beside one that has a place has one, too, if it has one once there is more. -/
theorem place_beside {fs' : FileSystem} {s m : String} {D : Location} (hp : Under p q n)
    (hs : Under s q m) (hT : fs.place p = .ok T) (hD : fs'.place s = .ok D)
    (home : fs'.home = fs.home) (le : fs.tree ≤ fs'.tree) : fs.place s = .ok D := by
  obtain ⟨-, l, -, hl, hd, -, -⟩ := (place_eq_ok_iff hp).mp hT
  obtain ⟨hc, k, b, hk, -, hb, rfl⟩ := (place_eq_ok_iff hs).mp hD
  have same : l = k := hl.unique hk le (Tree.le_refl _) home.symm rfl
  rw [← same]
  exact (place_eq_ok_iff hs).mpr ⟨hc, l, b, hl, hd, hb, rfl⟩

theorem treeDigest_eq_ok_iff {root d : String} : fs.treeDigest root = .ok d ↔
    ∃ l, fs.directoryAt root = .ok l ∧ (fs.tree.below l).withinReach root = true ∧
      d = (fs.tree.below l).digest := by
  unfold treeDigest readTree
  cases hl : fs.directoryAt root with
  | error e => exact ⟨nofun, fun h => absurd h.choose_spec.1 nofun⟩
  | ok l =>
    dsimp only
    by_cases reach : (fs.tree.below l).withinReach root = true
    · rw [if_pos reach]
      constructor
      · intro h
        exact ⟨l, rfl, reach, (Except.ok.inj h).symm⟩
      · rintro ⟨k, hk, -, rfl⟩
        rw [Except.ok.inj hk]
        rfl
    · rw [if_neg reach]
      constructor
      · exact nofun
      · rintro ⟨k, hk, hr, -⟩
        rw [Except.ok.inj hk] at reach
        exact absurd hr reach

namespace Free
variable {d : String} {D : Location} {sub : Tree}

/-- The copy has the digest of the tree that it is a copy of. -/
theorem treeDigest (h : fs.Free p T) (hp : Under p q n)
    (hd : (fs.withCopy T sub.entries).treeDigest p = .ok d) :
    d = sub.digest ∧ sub.withinReach p = true := by
  obtain ⟨l, hl, reach, rfl⟩ := treeDigest_eq_ok_iff.mp hd
  have there :=
    directoryAt_of_place (h.place_withCopy hp sub.entries) hp (h.find?_there sub.rooted)
  rw [there] at hl
  rw [← Except.ok.inj hl, h.below] at reach ⊢
  exact ⟨rfl, reach⟩

/-- A place apart that has room with the copy beside it has room without. -/
theorem room (hTD : T.within D = none) (hDT : D.within T = none)
    (held : (fs.withCopy T xs).tree.find? D = none ∨
      (fs.withCopy T xs).tree.isEmptyDirectory D = true) :
    fs.tree.find? D = none ∨ fs.tree.isEmptyDirectory D = true := by
  rw [isEmptyDirectory_iff, find?_withCopy fs xs hTD] at held
  rw [isEmptyDirectory_iff]
  refine held.imp_right fun ⟨hd, empty⟩ => ⟨hd, fun k hk => ?_⟩
  rw [← find?_withCopy fs xs (Location.within_append_eq_none hTD hDT k)]
  exact empty k hk

end Free
end FileSystem

/-- A path that is not longer reaches no less. -/
theorem Tree.withinReach_of_le {sub : Tree} {p q n t r m : String} (hp : PathText.Under p q n)
    (ht : PathText.Under t r m) (le : p.utf8ByteSize ≤ t.utf8ByteSize)
    (h : sub.withinReach t = true) : sub.withinReach p = true := by
  refine List.all_eq_true.mpr fun x hx => ?_
  have reach := of_decide_eq_true (List.all_eq_true.mp h x hx)
  refine decide_eq_true (Nat.lt_of_le_of_lt ?_ reach)
  rw [PathText.join_under hp, PathText.join_under ht]
  split
  · exact Nat.le_refl _
  · rw [String.utf8ByteSize_append, String.utf8ByteSize_append, String.utf8ByteSize_append,
      String.utf8ByteSize_append]
    omega

theorem Tree.fileCount_eq (t : Tree) :
    t.fileCount = t.entries.countP fun x => Staging.isFile x.2 := by
  unfold fileCount
  refine List.countP_congr fun x _ => ?_
  cases x.2 <;> exact Iff.rfl

namespace Staging
variable {fs : FileSystem} {p q n m suffix temporary : String} {T : Location}
open PathText (Under)
open FileSystem (Free)

theorem copyEntries_cons (source target : String) (T l : Location) (e : Entry)
    (xs : List (Location × Entry)) (fs : FileSystem) :
    copyEntries source target T ((l, e) :: xs) fs =
      if FileSystem.pathLimit ≤ (PathText.join source l.render).utf8ByteSize ∨
          FileSystem.pathLimit ≤ (PathText.join target l.render).utf8ByteSize then
        (.error .nameTooLong, fs)
      else match copyEntries source target T xs { fs with tree := fs.tree.put (T ++ l) e } with
        | (.ok count, fs') => (.ok (if isFile e then count + 1 else count), fs')
        | (.error e, fs') => (.error e, fs') := by
  rw [copyEntries]
  split
  · rfl
  · dsimp only
    rw [FileStep.bind_apply, FileStep.modify_apply]
    dsimp only
    rw [FileStep.bind_apply]
    rcases copyEntries source target T xs _ with ⟨_ | _, _⟩ <;> rfl

/-- **Entries are copied one after the other**, all of them or the first few. -/
theorem copyEntries_cases (source target : String) (T : Location) (xs : List (Location × Entry))
    (fs : FileSystem) :
    (∃ e, ∃ done, done <+: xs ∧ copyEntries source target T xs fs =
        (.error e, { fs with tree := fs.tree.plant T done })) ∨
      copyEntries source target T xs fs =
        (.ok (xs.countP fun x => isFile x.2), { fs with tree := fs.tree.plant T xs }) := by
  induction xs generalizing fs with
  | nil => exact Or.inr rfl
  | cons x xs ih =>
    obtain ⟨l, e⟩ := x
    rw [copyEntries_cons]
    split
    · exact Or.inl ⟨_, [], List.nil_prefix, rfl⟩
    · rcases ih { fs with tree := fs.tree.put (T ++ l) e } with ⟨c, done, hd, he⟩ | he
      · rw [he]
        exact Or.inl ⟨c, (l, e) :: done, List.cons_prefix_cons.mpr ⟨rfl, hd⟩, rfl⟩
      · rw [he, List.countP_cons]
        refine Or.inr ?_
        cases isFile e <;> rfl

/-- The tree that is copied is not changed by the directory for the copy. -/
theorem below_withCopy {S : Location} (hS : S.within T = none) :
    (fs.withCopy T []).tree.below S = fs.tree.below S := by
  refine Tree.ext_find? fun k => ?_
  by_cases hk : k = []
  · rw [hk, Tree.find?_root, Tree.find?_root]
  · rw [Tree.find?_below _ _ hk, Tree.find?_below _ _ hk]
    exact Tree.find?_put_apart _ fun he => Location.within_eq_none_iff.mp hS k he.symm

/-- **The ways to copy a tree** into a vacant place: nothing is done, or the copy is begun, or it is
brought to an end. -/
theorem copyTree_cases (source : String) {l : Location} (ht : Under temporary q n)
    (hq : fs.Leads q l) (hv : fs.Vacant temporary) :
    (∃ e, copyTree source temporary fs = (.error e, fs)) ∨
      ∃ T, fs.Free temporary T ∧
        ((∃ e xs, (∀ x ∈ xs, x.1 ≠ []) ∧
            copyTree source temporary fs = (.error e, fs.withCopy T xs)) ∨
          ∃ S, (fs.withCopy T []).canonical source = .ok S ∧ S.within T = none ∧
            copyTree source temporary fs =
              (.ok (fs.tree.below S).fileCount, fs.withCopy T (fs.tree.below S).entries)) := by
  unfold copyTree
  rw [FileStep.bind_apply]
  rcases FileSystem.makeDirectories_vacant ht hq hv with ⟨e, he⟩ | ⟨T, free, he⟩
  · rw [he]
    exact Or.inl ⟨e, rfl⟩
  refine Or.inr ⟨T, free, ?_⟩
  rw [he]
  dsimp only
  rw [FileStep.bind_apply, FileStep.look_apply]
  cases hS : (fs.withCopy T []).canonical source with
  | error e => exact Or.inl ⟨e, [], by simp, rfl⟩
  | ok S =>
    have there : (fs.withCopy T []).canonical temporary = .ok T := by
      have := FileSystem.directoryAt_of_place (free.place_withCopy ht []) ht
        (free.find?_there (by simp))
      exact (FileSystem.directoryAt_iff_canonical.mp this).1
    dsimp only
    rw [FileStep.bind_apply, FileStep.look_apply, there]
    dsimp only
    by_cases inside : (S.within T).isSome = true
    · rw [if_pos inside]
      exact Or.inl ⟨_, [], by simp, rfl⟩
    · have apart : S.within T = none := by simpa using inside
      rw [if_neg inside]
      rw [FileStep.bind_apply, FileStep.get_apply]
      dsimp only
      rw [below_withCopy apart]
      rcases copyEntries_cases source temporary T (fs.tree.below S).entries (fs.withCopy T [])
        with ⟨e, done, hd, he⟩ | he
      · exact Or.inl ⟨e, done, fun x hx => (fs.tree.below S).rooted x (hd.subset hx), he⟩
      · refine Or.inr ⟨S, rfl, apart, ?_⟩
        rw [Tree.fileCount_eq]
        exact he

/-- **All of a tree that the source leads to has come into the place**: it has the digest that was
expected, and the place held nothing before. -/
structure Copied (source temporary destination expected : String) (fs : FileSystem) (count : Nat)
    (fs' : FileSystem) (T S D : Location) : Prop where
  free : fs.Free temporary T
  source : (fs.withCopy T []).canonical source = .ok S
  apart : S.within T = none
  place : fs.place destination = .ok D
  empty : fs.tree.find? D = none ∨ fs.tree.isEmptyDirectory D = true
  digest : (fs.tree.below S).digest = expected
  reach : (fs.tree.below S).withinReach temporary = true
  count : count = (fs.tree.below S).fileCount
  placed : fs.Placed D (fs.tree.below S) fs'

/-- **The names in the directory `q`** under which the artifact and its copy stand. -/
structure Site (p suffix q n m : String) : Prop where
  parent : PathText.parent? p = some q
  above : PathText.ancestors p = q :: PathText.ancestors q
  artifact : Under p q n
  copy : Under (temporaryPath p suffix) q m
  other : n ≠ m

/-- **The ways to copy a tree, check the copy and move it**: it fails with the copy left, or all of
it is in the place. -/
theorem copyChecked_cases (source expected : String) {l : Location} (h : Site p suffix q n m)
    (hq : fs.Leads q l) (hv : fs.Vacant (temporaryPath p suffix)) :
    (∃ e, copyChecked source (temporaryPath p suffix) p expected fs = (.error e, fs)) ∨
      (∃ e T xs, fs.Free (temporaryPath p suffix) T ∧ (∀ x ∈ xs, x.1 ≠ []) ∧
        copyChecked source (temporaryPath p suffix) p expected fs =
          (.error e, fs.withCopy T xs)) ∨
      ∃ count fs' T S D,
        copyChecked source (temporaryPath p suffix) p expected fs = (.ok count, fs') ∧
        Copied source (temporaryPath p suffix) p expected fs count fs' T S D := by
  obtain ⟨-, -, hp, ht, hne⟩ := h
  generalize temporaryPath p suffix = temporary at ht hv ⊢
  unfold copyChecked
  rw [FileStep.bind_apply, FileStep.orElseSay_apply]
  rcases copyTree_cases source ht hq hv with
    ⟨e, he⟩ | ⟨T, free, ⟨e, xs, hxs, he⟩ | ⟨S, hS, apart, he⟩⟩
  · rw [he]
    exact Or.inl ⟨_, rfl⟩
  · rw [he]
    exact Or.inr (Or.inl ⟨_, T, xs, free, hxs, rfl⟩)
  rw [he]
  generalize hsub : fs.tree.below S = sub
  have rooted : ∀ x ∈ sub.entries, x.1 ≠ [] := sub.rooted
  refine Or.inr ?_
  dsimp only [Except.mapError]
  rw [FileStep.bind_apply, FileStep.orElseSay_apply, FileStep.look_apply]
  cases hd : (fs.withCopy T sub.entries).treeDigest temporary with
  | error e => exact Or.inl ⟨_, T, sub.entries, free, rooted, rfl⟩
  | ok copied =>
  dsimp only [Except.mapError]
  by_cases hc : copied = expected
  · rw [if_neg (not_not_intro hc), FileStep.bind_apply, FileStep.orElseSay_apply]
    have beside (D : Location) (hD : (fs.withCopy T sub.entries).place p = .ok D) :
        T.within D = none ∧ D.within T = none :=
      FileSystem.places_apart ht hp (Ne.symm hne) (free.place_withCopy ht _) hD
    rcases FileSystem.rename_cases ht hp (free.place_withCopy ht _) (free.find?_there rooted) beside
      with ⟨e, he⟩ | ⟨D, hD, held, he⟩
    · rw [he]
      exact Or.inl ⟨_, T, sub.entries, free, rooted, rfl⟩
    · rw [he]
      obtain ⟨hTD, hDT⟩ := beside D hD
      have place : fs.place p = .ok D :=
        FileSystem.place_beside ht hp free.place hD rfl (free.le _)
      obtain ⟨rfl, reach⟩ := free.treeDigest ht hd
      refine Or.inr ⟨sub.fileCount, _, T, S, D, rfl, ?_⟩
      exact
        { free := free
          source := hS
          apart := apart
          place := place
          empty := Free.room hTD hDT held
          digest := by rw [hsub]; exact hc
          reach := by rw [hsub]; exact reach
          count := by rw [hsub]
          placed := by
            rw [hsub]
            exact free.placed (FileSystem.place_ne_nil place hp) (FileSystem.find?_holder place hp)
              hTD }
  · rw [if_pos hc]
    exact Or.inl ⟨_, T, sub.entries, free, rooted, rfl⟩

theorem clearingOnFailure_apply {ε α : Type} (step : FileStep ε α) (path : String)
    (clear : String → FileStep Cause Unit) (fs : FileSystem) :
    clearingOnFailure step path clear fs = match step fs with
      | (.ok a, fs') => (.ok a, fs')
      | (.error e, fs') =>
        (.error e, if fs'.pathExists path = true then (clear path fs').2 else fs') := by
  unfold clearingOnFailure
  rw [FileStep.bind_apply, FileStep.attempt_apply]
  rcases step fs with ⟨e | a, fs'⟩
  · dsimp only
    rw [FileStep.bind_apply, FileStep.get_apply]
    dsimp only
    split
    · rfl
    · rfl
  · rfl

/-- **The ways to fill a place**: it fails and leaves no copy, or all of the source is there. -/
theorem populate_cases (source expected : String) (h : Site p suffix q n m)
    (hv : (fs.withParents p).Vacant (temporaryPath p suffix)) :
    (∃ e, populate source p expected suffix fs = (.error e, fs.withParents p)) ∨
      ∃ count fs' T S D, populate source p expected suffix fs = (.ok count, fs') ∧
        Copied source (temporaryPath p suffix) p expected (fs.withParents p) count fs' T S D := by
  unfold populate
  have made := FileSystem.makeDirectories_made q fs
  have parent : (PathText.parent? p).getD "" = q := by rw [h.parent]; rfl
  unfold FileSystem.withParents at hv ⊢
  rw [parent] at hv ⊢
  rw [FileStep.bind_apply, FileStep.orElseSay_apply]
  generalize FileSystem.makeDirectories q fs = x at made hv ⊢
  obtain ⟨e | u, gs⟩ := x
  · exact Or.inl ⟨_, rfl⟩
  dsimp only [Except.mapError] at made hv ⊢
  obtain ⟨l, leads⟩ : ∃ l, gs.Leads q l := by
    rcases made.2 rfl with rfl | hd
    · exact ⟨_, FileSystem.leads_empty gs⟩
    · obtain ⟨l, hl⟩ := FileSystem.isDirectory_iff.mp hd
      exact ⟨l, (FileSystem.directoryAt_eq_ok_iff.mp hl).2.1⟩
  rw [clearingOnFailure_apply]
  rcases copyChecked_cases source expected h leads hv with
    ⟨e, he⟩ | ⟨e, T, xs, free, hxs, he⟩ | ⟨count, fs', T, S, D, he, copied⟩
  · rw [he]
    dsimp only
    rw [hv.not_pathExists h.copy]
    exact Or.inl ⟨e, rfl⟩
  · rw [he]
    dsimp only
    rw [if_pos (free.pathExists h.copy hxs), free.removeTree h.copy hxs]
    exact Or.inl ⟨e, rfl⟩
  · rw [he]
    exact Or.inr ⟨count, fs', T, S, D, rfl, copied⟩

end Staging
end GatedRelease
