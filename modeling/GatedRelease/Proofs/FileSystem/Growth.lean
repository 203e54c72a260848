import GatedRelease.FileSystem.Operations
import Mathlib.Data.List.Induction

/-! # What becomes of a tree

Trees are compared by what stands where: `s ≤ t` says that `t` holds all that `s` holds, and
`Grows s t` that `t` holds nothing more but directories.  For each way to change a tree, one lemma
tells what each location holds afterwards, from the locations alone.
-/
namespace GatedRelease

namespace Location

/-- A location is at or below another one, or it is not. -/
theorem within_cases (l k : Location) : (∃ rest, k = l ++ rest) ∨ l.within k = none := by
  cases h : l.within k with
  | none => exact Or.inr rfl
  | some rest => exact Or.inl ⟨rest, within_eq_some_iff.mp h⟩

theorem within_eq_none_iff {l k : Location} : l.within k = none ↔ ∀ rest, k ≠ l ++ rest := by
  constructor
  · intro h rest hk
    rw [hk, within_append] at h
    exact absurd h nofun
  · intro h
    rcases within_cases l k with ⟨rest, hk⟩ | hn
    · exact absurd hk (h rest)
    · exact hn

theorem ne_of_within {l k : Location} (h : l.within k = none) : k ≠ l := fun he =>
  within_eq_none_iff.mp h [] (he.trans (List.append_nil l).symm)

/-- What is below a place apart from another is apart from it, too, unless the other is below. -/
theorem within_append_eq_none {l k : Location} (h : l.within k = none) (h' : k.within l = none)
    (rest : Location) : l.within (k ++ rest) = none := by
  rw [within_eq_none_iff] at *
  intro more he
  rcases List.append_eq_append_iff.mp he with ⟨x, hx, -⟩ | ⟨x, hx, -⟩
  · exact h' x hx
  · exact h x hx

/-- Two names in one directory are apart. -/
theorem within_sibling {l : Location} {m n : Name} (h : m ≠ n) :
    Location.within (l ++ [m]) (l ++ [n]) = none := by
  rw [within_eq_none_iff]
  intro rest he
  rw [List.append_assoc, List.append_cancel_left_eq] at he
  exact h (List.cons.inj he).1.symm

end Location

namespace Tree
variable {s t u : Tree} {l k : Location} {e : Entry}

/-- All that is in the one tree is in the other. -/
instance : LE Tree := ⟨fun s t => ∀ l e, s.find? l = some e → t.find? l = some e⟩

theorem le_refl (t : Tree) : t ≤ t := fun _ _ h => h

theorem le_trans (h : s ≤ t) (h' : t ≤ u) : s ≤ u := fun l e he => h' l e (h l e he)

theorem absent_of_le (h : s ≤ t) (hn : t.find? l = none) : s.find? l = none := by
  cases he : s.find? l with
  | none => rfl
  | some e => exact absurd (hn.symm.trans (h l e he)) nofun

/-- What holds something is a directory. -/
theorem find?_above (h : t.find? (l ++ k) = some e) (hk : k ≠ []) :
    t.find? l = some .directory := by
  induction k using List.reverseRecOn generalizing e with
  | nil => exact absurd rfl hk
  | append_singleton k n ih =>
    have hd : t.find? (l ++ (k ++ [n])).dropLast = some .directory := find?_dropLast (by simp) h
    rw [← List.append_assoc, List.dropLast_concat] at hd
    by_cases hn : k = []
    · rw [hn, List.append_nil] at hd
      exact hd
    · exact ih hd hn

/-- Nothing is below where there is no directory. -/
theorem find?_beneath (h : t.find? l ≠ some .directory) (hk : k ≠ []) :
    t.find? (l ++ k) = none := by
  cases he : t.find? (l ++ k) with
  | none => rfl
  | some e => exact absurd (find?_above he hk) h

theorem find?_append_eq_none (h : t.find? l = none) (k : Location) : t.find? (l ++ k) = none := by
  by_cases hk : k = []
  · rw [hk, List.append_nil]
    exact h
  · exact find?_beneath (by rw [h]; exact nofun) hk

/-- A location whose last name no entry has holds nothing. -/
theorem canHold_of_absent (hl : l ≠ []) (hd : t.find? l.dropLast = some .directory)
    (hn : t.find? l = none) (e : Entry) : t.CanHold l e := by
  refine ⟨hl, hd, fun h => ?_⟩
  rw [hn] at h
  exact absurd h nofun

/-- **The one tree is the other with more directories.** -/
def Grows (s t : Tree) : Prop :=
  ∀ l, t.find? l = s.find? l ∨ s.find? l = none ∧ t.find? l = some .directory

theorem Grows.refl (t : Tree) : Grows t t := fun _ => Or.inl rfl

theorem Grows.trans (h : Grows s t) (h' : Grows t u) : Grows s u := by
  intro l
  rcases h l with hs | ⟨hs, ht⟩ <;> rcases h' l with hu | ⟨ht', hu⟩
  · exact Or.inl (hu.trans hs)
  · exact Or.inr ⟨hs ▸ ht', hu⟩
  · exact Or.inr ⟨hs, hu.trans ht⟩
  · rw [ht] at ht'
    exact absurd ht' nofun

theorem Grows.le (h : Grows s t) : s ≤ t := by
  intro l e he
  rcases h l with ht | ⟨hs, -⟩
  · exact ht.trans he
  · rw [hs] at he
    exact absurd he nofun

theorem grows_put (hl : l ≠ []) (hd : t.find? l.dropLast = some .directory)
    (hn : t.find? l = none) : Grows t (t.put l .directory) := by
  intro k
  rw [find?_put (canHold_of_absent hl hd hn _)]
  by_cases hk : k = l
  · rw [if_pos hk, hk]
    exact Or.inr ⟨hn, rfl⟩
  · rw [if_neg hk]
    exact Or.inl rfl

theorem prune_le (t : Tree) (hl : l ≠ []) : t.prune l ≤ t := by
  intro k e h
  rw [find?_prune t hl] at h
  split at h
  · exact absurd h nofun
  · exact h

theorem find?_prune_within (t : Tree) (hl : l ≠ []) (k : Location) :
    (t.prune l).find? (l ++ k) = none := by
  rw [find?_prune t hl, Location.within_append]
  rfl

theorem find?_prune_apart (t : Tree) (hl : l ≠ []) (hk : l.within k = none) :
    (t.prune l).find? k = t.find? k := by
  rw [find?_prune t hl, hk]
  rfl

/-- A tree that agrees with another one apart from a place holds all that the other has there. -/
theorem prune_le_of_apart (hl : l ≠ []) (apart : ∀ k, l.within k = none → t.find? k = s.find? k) :
    s.prune l ≤ t := by
  intro k e he
  rcases Location.within_cases l k with ⟨rest, rfl⟩ | hk
  · rw [find?_prune_within s hl] at he
    exact absurd he nofun
  · rw [find?_prune_apart s hl hk] at he
    exact (apart k hk).trans he

/-! ## Planting a tree -/

/-- The tree with entries put below a location, one after the other. -/
def plant (t : Tree) (l : Location) (xs : List (Location × Entry)) : Tree :=
  xs.foldl (fun t x => t.put (l ++ x.1) x.2) t

/-- What is put below a location leaves all else alone. -/
theorem find?_put_apart (e : Entry) (hk : k ≠ l) : (t.put l e).find? k = t.find? k := by
  by_cases h : t.CanHold l e
  · rw [find?_put h, if_neg hk]
  · rw [put, dif_neg h]

theorem find?_plant_apart {xs : List (Location × Entry)} (hk : ∀ x ∈ xs, k ≠ l ++ x.1) :
    (t.plant l xs).find? k = t.find? k := by
  induction xs generalizing t with
  | nil => rfl
  | cons x xs ih =>
    obtain ⟨hx, hxs⟩ := List.forall_mem_cons.mp hk
    exact (ih hxs).trans (find?_put_apart x.2 hx)

/-- **A tree planted in an empty directory** stands there as it is.  Parents come before their
children, so that each entry has a directory to stand in when its turn comes. -/
theorem find?_plant (sub : Tree) (hl : t.find? l = some .directory)
    (empty : ∀ k ≠ [], t.find? (l ++ k) = none) (hk : k ≠ []) :
    (t.plant l sub.entries).find? (l ++ k) = sub.find? k := by
  -- Some entries are planted already, and are all that is there.
  have planted (rest done : List (Location × Entry)) (t : Tree) (hs : sub.entries = done ++ rest)
      (hl : t.find? l = some .directory)
      (hd : ∀ k ≠ [], ∀ e, t.find? (l ++ k) = some e ↔ (k, e) ∈ done) :
      ∀ k ≠ [], ∀ e, (t.plant l rest).find? (l ++ k) = some e ↔ (k, e) ∈ sub.entries := by
    induction rest generalizing t done with
    | nil =>
      rw [hs, List.append_nil]
      exact hd
    | cons x rest ih =>
      obtain ⟨k, e⟩ := x
      have ordered := hs ▸ sub.ordered
      have here : (k, e) ∈ sub.entries := by rw [hs]; simp
      have hk : k ≠ [] := sub.rooted _ here
      have before : ∀ a, (k, a) ∉ done := fun a ha =>
        Std.Irrefl.irrefl k ((List.pairwise_append.mp ordered).2.2 _ ha _ (.head _))
      have absent : t.find? (l ++ k) = none := by
        cases hf : t.find? (l ++ k) with
        | none => rfl
        | some a => exact absurd ((hd k hk a).mp hf) (before a)
      have parent : t.find? (l ++ k).dropLast = some .directory := by
        rw [List.dropLast_append_of_ne_nil hk]
        by_cases hp : k.dropLast = []
        · rw [hp, List.append_nil]
          exact hl
        · have hm := (sub.anchored _ here).resolve_left hp
          rw [hs] at hm
          refine (hd _ hp _).mpr ((List.mem_append.mp hm).resolve_right fun later => ?_)
          -- A parent among those to come would come after its child.
          have lt : k.dropLast < k := by
            have := Location.append_lt_append_iff k.dropLast (a := []) (b := [k.getLast hk])
            rw [List.append_nil, List.dropLast_concat_getLast] at this
            exact this.mpr (by simp)
          rcases List.mem_cons.mp later with heq | hin
          · have : k.dropLast = k := congrArg Prod.fst heq
            rw [this] at lt
            exact Std.Irrefl.irrefl k lt
          · have := (List.pairwise_cons.mp (List.pairwise_append.mp ordered).2.1).1 _ hin
            exact Std.Irrefl.irrefl _ (Trans.trans lt this)
      have can : t.CanHold (l ++ k) e := canHold_of_absent (by simp [hk]) parent absent e
      refine ih (done ++ [(k, e)]) (t.put (l ++ k) e) (by simp [hs]) ?_ ?_
      · rw [find?_put can, if_neg (by simpa using hk)]
        exact hl
      · intro k' hk' e'
        rw [find?_put can]
        by_cases he : k' = k
        · subst he
          rw [if_pos rfl]
          constructor
          · intro h
            rw [Option.some.inj h]
            simp
          · intro h
            rcases List.mem_append.mp h with h | h
            · exact absurd h (before e')
            · rw [(Prod.mk.inj (List.mem_singleton.mp h)).2]
        · rw [if_neg (by simpa using he), hd k' hk' e']
          simp [he]
  refine Option.ext fun e => ?_
  rw [find?_eq_some_iff hk]
  refine planted sub.entries [] t rfl hl ?_ k hk e
  intro k hk e
  rw [empty k hk]
  simp

/-- **A move**, into a place that holds nothing, or an empty directory: all that was at the one
place is at the other. -/
theorem find?_move {source target : Location} (hs : source ≠ []) (ht : target ≠ [])
    (st : source.within target = none)
    (hd : t.find? source = some .directory) (hp : t.find? target.dropLast = some .directory)
    (k : Location) : (t.move source target).find? k =
      match target.within k with
      | some rest => t.find? (source ++ rest)
      | none => if (source.within k).isSome then none else t.find? k := by
  have apart : source.within target.dropLast = none := by
    rw [Location.within_eq_none_iff] at st ⊢
    intro rest he
    refine st (rest ++ [target.getLast ht]) ?_
    rw [← List.append_assoc, ← he, List.dropLast_concat_getLast]
  have short : target.within target.dropLast = none := by
    rw [Location.within_eq_none_iff]
    intro rest he
    have := congrArg List.length he
    have pos := List.length_pos_iff.mpr ht
    simp only [List.length_dropLast, List.length_append] at this
    omega
  have can : ((t.prune source).prune target).CanHold target .directory := by
    refine ⟨ht, ?_, fun _ => rfl⟩
    rw [find?_prune_apart _ ht short, find?_prune_apart _ hs apart]
    exact hp
  have moved : t.move source target =
      (((t.prune source).prune target).put target .directory).plant target
        (t.below source).entries := by
    unfold move graft plant
    rw [hd]
  rw [moved]
  rcases Location.within_cases target k with ⟨rest, rfl⟩ | hk
  · rw [Location.within_append]
    dsimp only
    by_cases hr : rest = []
    · rw [hr, List.append_nil, List.append_nil, hd, find?_plant_apart, find?_put can, if_pos rfl]
      intro x hx he
      exact (t.below source).rooted x hx (List.append_right_eq_self.mp he.symm)
    · rw [find?_plant _ ?_ ?_ hr, find?_below _ _ hr]
      · rw [find?_put can, if_pos rfl]
      · intro k hk
        rw [find?_put can, if_neg (by simpa using hk), find?_prune_within _ ht]
  · have ne := Location.within_eq_none_iff.mp hk
    rw [hk, find?_plant_apart fun x _ => ne x.1, find?_put can,
      if_neg (Location.ne_of_within hk), find?_prune_apart _ ht hk, find?_prune t hs]

end Tree
end GatedRelease
