import Mathlib.Data.List.Basic
import Mathlib.Data.List.Infix

/-! # Cutting a text at a mark

A mark whose first character does not come again in it cannot overlap with itself.  So there is one
way to cut a text wherever the mark stands in it (`cut`), and cutting goes piece by piece: what is
joined by the mark is cut where it was joined, and the parts are cut for themselves
(`cut_intercalate`).  Texts are lists of characters here, of any type.
-/
namespace GatedRelease.Text
variable {α : Type} {first : α} {more x y z : List α}

/-- Where the mark is put after a text, it does not come about before: its first character would
stand in it again. -/
theorem prefix_of_prefix_append_mark (fresh : first ∉ more) (hx : x ≠ [])
    (h : first :: more <+: x ++ (first :: more ++ y)) : first :: more <+: x := by
  rcases List.prefix_or_prefix_of_prefix h (List.prefix_append x _) with inside | ⟨r, across⟩
  · exact inside
  cases x with
  | nil => exact absurd rfl hx
  | cons c x =>
    rw [← across, List.prefix_append_right_inj] at h
    obtain ⟨rfl, rest⟩ := List.cons.inj across
    cases r with
    | nil => rw [← across]; simp
    | cons d r =>
      obtain ⟨rfl, -⟩ := List.cons_prefix_cons.mp h
      exact absurd (rest ▸ List.mem_append_right x List.mem_cons_self) fresh

variable [DecidableEq α]

/-- The pieces of a text between the places where the mark stands. -/
def cut (first : α) (more : List α) : List α → List (List α)
  | [] => [[]]
  | c :: rest =>
    if (first :: more).isPrefixOf (c :: rest) then [] :: cut first more (rest.drop more.length)
    else match cut first more rest with
      | [] => [[c]]
      | piece :: pieces => (c :: piece) :: pieces
termination_by x => x.length
decreasing_by all_goals simp only [List.length_drop, List.length_cons]; omega

theorem cut_ne_nil (first : α) (more x : List α) : cut first more x ≠ [] := by
  fun_induction cut first more x with
  | case1 | case2 | case3 | case4 => exact nofun

@[simp] theorem cut_nil (first : α) (more : List α) : cut first more [] = [[]] := by
  rw [cut]

/-- The mark is cut out where the text begins with it. -/
theorem cut_mark (first : α) (more y : List α) :
    cut first more (first :: (more ++ y)) = [] :: cut first more y := by
  rw [cut, if_pos (List.isPrefixOf_iff_prefix.mpr (by simp)), List.drop_left]

/-- A character that the mark does not stand at belongs to the first piece. -/
theorem cut_cons {c : α} (hx : ¬ first :: more <+: c :: x) :
    ∃ piece pieces, cut first more x = piece :: pieces ∧
      cut first more (c :: x) = (c :: piece) :: pieces := by
  obtain ⟨piece, pieces, hp⟩ := List.exists_cons_of_ne_nil (cut_ne_nil first more x)
  refine ⟨piece, pieces, hp, ?_⟩
  rw [cut, if_neg (by rwa [List.isPrefixOf_iff_prefix]), hp]

/-- A text that the mark joins is cut there, and both parts for themselves. -/
theorem cut_append (fresh : first ∉ more) (x y : List α) :
    cut first more (x ++ (first :: more ++ y)) = cut first more x ++ cut first more y := by
  fun_induction cut first more x with
  | case1 => exact cut_mark first more y
  | case2 c rest here ih =>
    obtain ⟨after, hr⟩ := List.isPrefixOf_iff_prefix.mp here
    rw [List.cons_append, List.cons.injEq] at hr
    obtain ⟨rfl, rfl⟩ := hr
    rw [List.drop_left] at ih ⊢
    rw [List.cons_append, List.append_assoc, cut_mark, ih, List.cons_append]
  | case3 c rest absent none ih => exact absurd none (cut_ne_nil first more rest)
  | case4 c rest absent piece pieces hp ih =>
    rw [List.isPrefixOf_iff_prefix] at absent
    obtain ⟨p, ps, joined, here⟩ := cut_cons (x := rest ++ (first :: more ++ y))
      (mt (prefix_of_prefix_append_mark fresh (List.cons_ne_nil c rest)) absent)
    rw [hp, joined, List.cons_append, List.cons.injEq] at ih
    obtain ⟨rfl, rfl⟩ := ih
    rw [List.cons_append, here, List.cons_append]

/-- **What is joined by the mark is cut where it was joined**, and each part for itself. -/
theorem cut_intercalate (fresh : first ∉ more) {xs : List (List α)} (hx : xs ≠ []) :
    cut first more ((first :: more).intercalate xs) = xs.flatMap (cut first more) := by
  induction xs with
  | nil => exact absurd rfl hx
  | cons x xs ih =>
    cases xs with
    | nil => simp
    | cons x' xs =>
      rw [List.intercalate_cons_cons, List.append_assoc, cut_append fresh,
        ih (List.cons_ne_nil x' xs), List.flatMap_cons (x := x)]

/-- The pieces make up the text. -/
theorem intercalate_cut (first : α) (more x : List α) :
    (first :: more).intercalate (cut first more x) = x := by
  fun_induction cut first more x with
  | case1 => simp
  | case2 c rest here ih =>
    obtain ⟨after, hr⟩ := List.isPrefixOf_iff_prefix.mp here
    rw [List.cons_append, List.cons.injEq] at hr
    obtain ⟨rfl, rfl⟩ := hr
    obtain ⟨piece, pieces, hp⟩ := List.exists_cons_of_ne_nil
      (cut_ne_nil first more ((more ++ after).drop more.length))
    rw [hp, List.drop_left] at ih
    rw [hp, List.intercalate_cons_cons, ih, List.nil_append, List.cons_append]
  | case3 c rest absent none ih => exact absurd none (cut_ne_nil first more rest)
  | case4 c rest absent piece pieces hp ih =>
    rw [hp] at ih
    cases pieces with
    | nil => simpa using ih
    | cons piece' pieces =>
      rw [List.intercalate_cons_cons] at ih ⊢
      rw [← ih, List.cons_append, List.cons_append]

/-- A text is in one piece if the mark stands nowhere in it. -/
theorem cut_of_not_infix (h : ¬ first :: more <:+: x) : cut first more x = [x] := by
  induction x with
  | nil => exact cut_nil first more
  | cons c x ih =>
    rw [List.infix_cons_iff, not_or] at h
    obtain ⟨piece, pieces, hp, here⟩ := cut_cons h.1
    obtain ⟨rfl, rfl⟩ : piece = x ∧ pieces = [] := by simpa using hp.symm.trans (ih h.2)
    exact here

end GatedRelease.Text
