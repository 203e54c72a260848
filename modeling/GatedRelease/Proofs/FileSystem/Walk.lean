import GatedRelease.Proofs.FileSystem.Growth
import Mathlib.Data.List.Basic

/-! # Where a path leads, in one tree and in another

A walk that comes to an end is a derivation (`Walks`, `walk_eq_ok_iff`): one rule for each kind of
step.  What it found on its way it also finds in a tree that holds more (`Walks.mono`), so that two
trees with a common larger one do not lead to different places (`Walks.unique`), and lead there by
what they have in common (`Walks.both`).  A walk of one path after another is a walk of each, the
links gone along on the first counted (`Walks.append`, `Walks.split`).
-/
namespace GatedRelease

/-- The location at which a walk ends. -/
def Spot.location : Spot → Location
  | .present l | .absent l => l

theorem Name.ofString?_text (n : Name) : Name.ofString? n.text = some n := by
  unfold Name.ofString?
  rw [dif_pos n.valid]

theorem Name.text_of_ofString? {s : String} {n : Name} (h : Name.ofString? s = some n) :
    n.text = s := by
  unfold Name.ofString? at h
  split at h
  · exact congrArg Name.text (Option.some.inj h).symm
  · exact absurd h nofun

theorem Name.text_ne (n : Name) : n.text ≠ "" ∧ n.text ≠ "." ∧ n.text ≠ ".." := by
  have h := n.valid
  unfold Name.isValid at h
  simp only [Bool.and_eq_true, bne_iff_ne, ne_eq] at h
  obtain ⟨⟨⟨⟨⟨h₁, h₂⟩, h₃⟩, -⟩, -⟩, -⟩ := h
  exact ⟨h₁, h₂, h₃⟩

namespace FileSystem
variable {s t : Tree} {follow : Bool} {links : Nat} {here l : Location} {rest : List String}
  {x y : Spot}

/-- **A walk that ends somewhere.** -/
inductive Walks (t : Tree) (follow : Bool) : Nat → Location → List String → Spot → Prop
  | here {links : Nat} {here : Location} : Walks t follow links here [] (.present here)
  | dot {links : Nat} {here : Location} {rest : List String} {x : Spot} :
      t.find? here = some .directory → Walks t follow links here rest x →
      Walks t follow links here ("." :: rest) x
  | up {links : Nat} {here : Location} {rest : List String} {x : Spot} :
      t.find? here = some .directory → Walks t follow links here.dropLast rest x →
      Walks t follow links here (".." :: rest) x
  | down {links : Nat} {here : Location} {n : Name} {e : Entry} {rest : List String} {x : Spot} :
      t.find? (here ++ [n]) = some e → (∀ target, e ≠ .link target) →
      Walks t follow links (here ++ [n]) rest x → Walks t follow links here (n.text :: rest) x
  /-- A link is gone along. -/
  | along {links : Nat} {here : Location} {n : Name} {target : String} {rest : List String}
      {x : Spot} : t.find? (here ++ [n]) = some (.link target) → (rest ≠ [] ∨ follow = true) →
      Walks t follow links (start here target) (steps target ++ rest) x →
      Walks t follow (links + 1) here (n.text :: rest) x
  /-- A link at the end is taken for itself. -/
  | link {links : Nat} {here : Location} {n : Name} {target : String} :
      t.find? (here ++ [n]) = some (.link target) → follow = false →
      Walks t follow links here [n.text] (.present (here ++ [n]))
  | absent {links : Nat} {here : Location} {n : Name} : t.find? here = some .directory →
      t.find? (here ++ [n]) = none →
      Walks t follow links here [n.text] (.absent (here ++ [n]))

theorem walk_name {n : Name} (hd : t.find? here = some .directory) :
    walk t follow links here (n.text :: rest) =
      match t.find? (here ++ [n]) with
      | none => if rest = [] then .ok (.absent (here ++ [n])) else .error .notFound
      | some (.link target) =>
        if rest ≠ [] ∨ follow = true then
          match links with
          | 0 => .error .tooManyLinks
          | links + 1 => walk t follow links (start here target) (steps target ++ rest)
        else .ok (.present (here ++ [n]))
      | some _ => walk t follow links (here ++ [n]) rest := by
  obtain ⟨-, h₁, h₂⟩ := n.text_ne
  have step := walk_cons t follow links here n.text rest
  rw [if_neg (not_not_intro hd), if_neg h₁, if_neg h₂, n.ofString?_text] at step
  exact step

/-- Dots lead nowhere. -/
theorem walk_dots {dots : List String} (hdots : ∀ d ∈ dots, d = ".")
    (hd : t.find? here = some .directory) :
    walk t follow links here (dots ++ rest) = walk t follow links here rest := by
  induction dots with
  | nil => rfl
  | cons d dots ih =>
    obtain ⟨rfl, more⟩ := List.forall_mem_cons.mp hdots
    rw [List.cons_append, walk_cons, if_neg (not_not_intro hd), if_pos rfl, ih more]

theorem Walks.walk (h : Walks t follow links here rest x) :
    walk t follow links here rest = .ok x := by
  induction h with
  | here => exact walk_nil ..
  | dot hd _ ih => rw [walk_cons, if_neg (not_not_intro hd), if_pos rfl, ih]
  | up hd _ ih =>
    rw [walk_cons, if_neg (not_not_intro hd), if_neg (by decide), if_pos rfl, ih]
  | @down _ _ _ e _ _ he hn _ ih =>
    rw [walk_name (Tree.find?_above he (by simp)), he]
    cases e with
    | link target => exact absurd rfl (hn target)
    | directory | file => exact ih
  | along he hf _ ih =>
    rw [walk_name (Tree.find?_above he (by simp)), he]
    dsimp only
    rw [if_pos hf, ih]
  | link he hf =>
    rw [walk_name (Tree.find?_above he (by simp)), he]
    dsimp only
    rw [if_neg (by simp [hf])]
  | absent hd hn =>
    rw [walk_name hd, hn]
    rfl

/-- One stretch of a walk, between links. -/
theorem walks_of_walkNames {along : Location → List String → Except Cause Spot}
    (again : ∀ {here rest x}, along here rest = .ok x →
      ∃ fewer, links = fewer + 1 ∧ Walks t follow fewer here rest x)
    (h : walkNames t follow along here rest = .ok x) : Walks t follow links here rest x := by
  fun_induction walkNames t follow along here rest with
  | case1 => rw [← Except.ok.inj h]; exact .here
  | case2 | case5 | case7 => exact absurd h nofun
  | case3 _ _ hd ih => exact .dot (not_not.mp hd) (ih h)
  | case4 _ _ hd _ ih => exact .up (not_not.mp hd) (ih h)
  | case6 _ _ hd _ _ n hs hn =>
    rw [← Except.ok.inj h, ← Name.text_of_ofString? hs]
    exact .absent (not_not.mp hd) hn
  | case8 _ _ _ _ _ _ n hs target he hf =>
    obtain ⟨fewer, rfl, hw⟩ := again h
    rw [← Name.text_of_ofString? hs]
    exact .along he hf hw
  | case9 _ _ rest _ _ _ n hs target he hf =>
    obtain ⟨hr, hfollow⟩ := not_or.mp hf
    rw [← Except.ok.inj h, ← Name.text_of_ofString? hs, not_not.mp hr]
    exact .link he (by simpa using hfollow)
  | case10 _ _ _ _ _ _ n hs e he hn ih =>
    rw [← Name.text_of_ofString? hs]
    exact .down hn (fun target ht => he target ht) (ih h)

theorem walks_of_walk (h : walk t follow links here rest = .ok x) :
    Walks t follow links here rest x := by
  induction links generalizing here rest x with
  | zero =>
    refine walks_of_walkNames (fun hw => ?_) h
    exact absurd hw nofun
  | succ links ih => exact walks_of_walkNames (fun hw => ⟨links, rfl, ih hw⟩) h

theorem walk_eq_ok_iff : walk t follow links here rest = .ok x ↔ Walks t follow links here rest x :=
  ⟨walks_of_walk, Walks.walk⟩

/-- **A walk finds in a tree that holds more what it finds in this one.** -/
theorem Walks.mono (h : Walks s follow links here rest (.present l)) (hst : s ≤ t) :
    Walks t follow links here rest (.present l) := by
  generalize hx : Spot.present l = x at h
  induction h with
  | here => exact .here
  | dot hd _ ih => exact .dot (hst _ _ hd) (ih hx)
  | up hd _ ih => exact .up (hst _ _ hd) (ih hx)
  | down he hn _ ih => exact .down (hst _ _ he) hn (ih hx)
  | along he hf _ ih => exact .along (hst _ _ he) hf (ih hx)
  | link he hf => exact .link (hst _ _ he) hf
  | absent => exact absurd hx nofun

/-- Two trees with a common larger one lead to one place, if they lead to any. -/
theorem Walks.unique {u : Tree} {k : Location} (h : Walks s follow links here rest (.present l))
    (h' : Walks t follow links here rest (.present k)) (hs : s ≤ u) (ht : t ≤ u) : l = k := by
  have found := (h.mono hs).walk
  rw [(h'.mono ht).walk] at found
  exact (Spot.present.inj (Except.ok.inj found)).symm

theorem directory_of_walk {step : String}
    (h : FileSystem.walk t follow links here (step :: rest) = .ok x) :
    t.find? here = some .directory := by
  rw [walk_cons] at h
  by_cases hd : t.find? here = some .directory
  · exact hd
  · rw [if_pos hd] at h
    exact absurd h nofun

/-- The entry that a walk comes by. -/
theorem entry_of_walk {n : Name}
    (h : FileSystem.walk t follow links here (n.text :: rest) = .ok (.present l)) :
    ∃ e, t.find? (here ++ [n]) = some e := by
  rw [walk_name (directory_of_walk h)] at h
  cases he : t.find? (here ++ [n]) with
  | some e => exact ⟨e, rfl⟩
  | none =>
    rw [he] at h
    dsimp only at h
    split at h
    · exact absurd h nofun
    · exact absurd h nofun

/-- **What two trees have in common is enough** for a walk that both know to the end. -/
theorem Walks.both {r u : Tree} {k : Location} (h : Walks s follow links here rest (.present l))
    (h' : Walks t follow links here rest (.present k)) (hs : s ≤ u) (ht : t ≤ u)
    (hr : ∀ l e, s.find? l = some e → t.find? l = some e → r.find? l = some e) :
    Walks r follow links here rest (.present l) := by
  generalize hx : Spot.present l = x at h
  have same {l : Location} {e e' : Entry} (he : s.find? l = some e) (he' : t.find? l = some e') :
      e' = e := Option.some.inj ((ht _ _ he').symm.trans (hs _ _ he))
  replace h' := h'.walk
  induction h with
  | here => exact .here
  | dot hd _ ih =>
    have hd' := directory_of_walk h'
    rw [walk_cons, if_neg (not_not_intro hd'), if_pos rfl] at h'
    exact .dot (hr _ _ hd hd') (ih hx h')
  | up hd _ ih =>
    have hd' := directory_of_walk h'
    rw [walk_cons, if_neg (not_not_intro hd'), if_neg (by decide), if_pos rfl] at h'
    exact .up (hr _ _ hd hd') (ih hx h')
  | @down _ _ _ e _ _ he hn _ ih =>
    obtain ⟨e', he'⟩ := entry_of_walk h'
    obtain rfl := same he he'
    rw [walk_name (directory_of_walk h'), he'] at h'
    refine .down (hr _ _ he he') hn (ih hx ?_)
    cases e' with
    | link target => exact absurd rfl (hn target)
    | directory | file => exact h'
  | along he hf _ ih =>
    obtain ⟨e', he'⟩ := entry_of_walk h'
    obtain rfl := same he he'
    rw [walk_name (directory_of_walk h'), he'] at h'
    dsimp only at h'
    rw [if_pos hf] at h'
    exact .along (hr _ _ he he') hf (ih hx h')
  | link he hf =>
    obtain ⟨e', he'⟩ := entry_of_walk h'
    obtain rfl := same he he'
    exact .link (hr _ _ he he') hf
  | absent => exact absurd hx nofun

/-- What a walk comes to by a step is an entry. -/
theorem Walks.found (h : Walks t follow links here rest (.present l))
    (way : rest ≠ [] ∨ ∃ e, t.find? here = some e) : ∃ e, t.find? l = some e := by
  generalize hx : Spot.present l = x at h
  induction h with
  | here =>
    obtain rfl := Spot.present.inj hx
    exact way.resolve_left (not_not_intro rfl)
  | dot hd _ ih => exact ih (Or.inr ⟨_, hd⟩) hx
  | @up _ here _ _ hd _ ih =>
    refine ih (Or.inr ?_) hx
    by_cases hr : here = []
    · rw [hr] at hd ⊢
      exact ⟨_, hd⟩
    · exact ⟨_, Tree.find?_dropLast hr hd⟩
  | down he _ _ ih => exact ih (Or.inr ⟨_, he⟩) hx
  | @along _ here _ target _ _ he _ _ ih =>
    refine ih (Or.inr ?_) hx
    unfold FileSystem.start
    split
    · exact ⟨_, Tree.find?_root t⟩
    · exact ⟨_, Tree.find?_above he (by simp)⟩
  | link he => exact ⟨_, Spot.present.inj hx ▸ he⟩
  | absent => exact absurd hx nofun

/-- What a walk misses can be made: its directory is there. -/
theorem Walks.absent_cases (h : Walks t false links here rest (.absent l)) :
    ∃ m n, l = m ++ [n] ∧ t.find? m = some .directory ∧ t.find? l = none := by
  generalize hx : Spot.absent l = x at h
  induction h with
  | here | link => exact absurd hx nofun
  | dot _ _ ih | up _ _ ih | down _ _ _ ih | along _ _ _ ih => exact ih hx
  | @absent _ m n hd hn =>
    obtain rfl := Spot.absent.inj hx
    exact ⟨m, n, rfl, hd, hn⟩

/-- Once there is a directory where a walk found nothing, the walk leads there. -/
theorem Walks.made (h : Walks s false links here rest (.absent l)) (hst : s ≤ t)
    (hl : t.find? l = some .directory) : Walks t true links here rest (.present l) := by
  generalize hx : Spot.absent l = x at h
  induction h with
  | here | link => exact absurd hx nofun
  | dot hd _ ih => exact .dot (hst _ _ hd) (ih hx)
  | up hd _ ih => exact .up (hst _ _ hd) (ih hx)
  | down he hn _ ih => exact .down (hst _ _ he) hn (ih hx)
  | along he _ _ ih => exact .along (hst _ _ he) (Or.inr rfl) (ih hx)
  | absent hd hn =>
    obtain rfl := Spot.absent.inj hx
    exact .down hl nofun .here

/-- What a path names along a link at its end, it names also without going along. -/
theorem Walks.unfollowed (h : Walks t true links here rest (.present l)) :
    ∃ k, Walks t false links here rest (.present k) := by
  generalize hx : Spot.present l = x at h
  induction h with
  | here => exact ⟨_, .here⟩
  | dot hd _ ih =>
    obtain ⟨k, hk⟩ := ih hx
    exact ⟨k, .dot hd hk⟩
  | up hd _ ih =>
    obtain ⟨k, hk⟩ := ih hx
    exact ⟨k, .up hd hk⟩
  | down he hn _ ih =>
    obtain ⟨k, hk⟩ := ih hx
    exact ⟨k, .down he hn hk⟩
  | @along _ _ _ _ rest _ he _ _ ih =>
    by_cases hr : rest = []
    · rw [hr]
      exact ⟨_, .link he rfl⟩
    · obtain ⟨k, hk⟩ := ih hx
      exact ⟨k, .along he (Or.inl hr) hk⟩
  | link _ hf => exact absurd hf nofun
  | absent => exact absurd hx nofun

/-! ## One path after another -/

/-- **A walk of one path after another**: the first is walked along all its links, and the second
from there, with what links are left. -/
theorem Walks.append (h : Walks t true links here rest (.present l)) :
    ∃ left, ∀ follow ys, ys ≠ [] →
      FileSystem.walk t follow links here (rest ++ ys) = FileSystem.walk t follow left l ys := by
  generalize hx : Spot.present l = x at h
  induction h with
  | @here links _ =>
    obtain rfl := Spot.present.inj hx
    exact ⟨links, fun _ _ _ => rfl⟩
  | dot hd _ ih =>
    obtain ⟨left, ih⟩ := ih hx
    refine ⟨left, fun follow ys hy => ?_⟩
    rw [List.cons_append, walk_cons, if_neg (not_not_intro hd), if_pos rfl, ih follow ys hy]
  | up hd _ ih =>
    obtain ⟨left, ih⟩ := ih hx
    refine ⟨left, fun follow ys hy => ?_⟩
    rw [List.cons_append, walk_cons, if_neg (not_not_intro hd), if_neg (by decide),
      if_pos rfl, ih follow ys hy]
  | @down _ _ _ e _ _ he hn _ ih =>
    obtain ⟨left, ih⟩ := ih hx
    refine ⟨left, fun follow ys hy => ?_⟩
    rw [List.cons_append, walk_name (Tree.find?_above he (by simp)), he]
    cases e with
    | link target => exact absurd rfl (hn target)
    | directory | file => exact ih follow ys hy
  | along he _ _ ih =>
    obtain ⟨left, ih⟩ := ih hx
    refine ⟨left, fun follow ys hy => ?_⟩
    rw [List.cons_append, walk_name (Tree.find?_above he (by simp)), he]
    dsimp only
    rw [if_pos (Or.inl (by simp [hy])), ← List.append_assoc, ih follow ys hy]
  | link _ hf => exact absurd hf nofun
  | absent => exact absurd hx nofun

/-- A walk that comes to an end is one of each part of its path. -/
theorem Walks.split {xs ys : List String} (h : Walks t follow links here (xs ++ ys) x)
    (hy : ys ≠ []) : ∃ l left, Walks t true links here xs (.present l) ∧
      Walks t follow left l ys x := by
  generalize hr : xs ++ ys = rest at h
  induction h generalizing xs with
  | here => exact absurd (List.append_eq_nil_iff.mp hr).2 hy
  | dot hd hw ih =>
    cases xs with
    | nil =>
      obtain rfl : ys = _ := hr
      exact ⟨_, _, .here, .dot hd hw⟩
    | cons step xs =>
      obtain ⟨rfl, hxs⟩ := List.cons.inj hr
      obtain ⟨l, left, h₁, h₂⟩ := ih hxs
      exact ⟨l, left, .dot hd h₁, h₂⟩
  | up hd hw ih =>
    cases xs with
    | nil =>
      obtain rfl : ys = _ := hr
      exact ⟨_, _, .here, .up hd hw⟩
    | cons step xs =>
      obtain ⟨rfl, hxs⟩ := List.cons.inj hr
      obtain ⟨l, left, h₁, h₂⟩ := ih hxs
      exact ⟨l, left, .up hd h₁, h₂⟩
  | down he hn hw ih =>
    cases xs with
    | nil =>
      obtain rfl : ys = _ := hr
      exact ⟨_, _, .here, .down he hn hw⟩
    | cons step xs =>
      obtain ⟨rfl, hxs⟩ := List.cons.inj hr
      obtain ⟨l, left, h₁, h₂⟩ := ih hxs
      exact ⟨l, left, .down he hn h₁, h₂⟩
  | @along _ _ _ target rest _ he hf hw ih =>
    cases xs with
    | nil =>
      obtain rfl : ys = _ := hr
      exact ⟨_, _, .here, .along he hf hw⟩
    | cons step xs =>
      obtain ⟨rfl, hxs⟩ := List.cons.inj hr
      have whole : steps target ++ xs ++ ys = steps target ++ rest := by
        rw [List.append_assoc]
        exact congrArg (steps target ++ ·) hxs
      obtain ⟨l, left, h₁, h₂⟩ := ih whole
      exact ⟨l, left, .along he (Or.inr rfl) h₁, h₂⟩
  | link he hf =>
    cases xs with
    | nil =>
      obtain rfl : ys = _ := hr
      exact ⟨_, 0, .here, .link he hf⟩
    | cons step xs => exact absurd (List.append_eq_nil_iff.mp (List.cons.inj hr).2).2 hy
  | absent hd hn =>
    cases xs with
    | nil =>
      obtain rfl : ys = _ := hr
      exact ⟨_, 0, .here, .absent hd hn⟩
    | cons step xs => exact absurd (List.append_eq_nil_iff.mp (List.cons.inj hr).2).2 hy

end FileSystem
end GatedRelease
