import GatedRelease.FileSystem.Name

/-! Directory trees. A tree lists the entries below its root in the order of their locations, each
location once, and everything stands in a directory. `find?` is the view: two trees that find the
same entry everywhere are equal (`ext_find?`). -/
namespace GatedRelease

/-- What a location holds. A link keeps its target as written. -/
inductive Entry
  | directory
  | file (bytes : Bytes) (executable : Bool)
  | link (target : String)
deriving DecidableEq

/-- Everything below a root directory. -/
structure Tree where
  entries : List (Location × Entry)
  /-- Parents come before their children, and names are in order. -/
  ordered : entries.Pairwise (fun a b => a.1 < b.1)
  /-- The root itself is not listed. -/
  rooted : ∀ x ∈ entries, x.1 ≠ []
  /-- What is not at the top stands in a listed directory. -/
  anchored : ∀ x ∈ entries, x.1.dropLast = [] ∨ (x.1.dropLast, Entry.directory) ∈ entries

namespace Tree

/-- The tree with nothing below the root. -/
def empty : Tree := ⟨[], .nil, by simp, by simp⟩

/-- The entry at a location. The root is a directory. -/
def find? (t : Tree) (l : Location) : Option Entry :=
  if l = [] then some .directory else (t.entries.find? (fun x => x.1 = l)).map (·.2)

@[simp] theorem find?_root (t : Tree) : t.find? [] = some .directory := by simp [find?]

theorem eq_of_mem {t : Tree} {l : Location} {a b : Entry} (ha : (l, a) ∈ t.entries)
    (hb : (l, b) ∈ t.entries) : a = b := by
  have h := t.ordered
  generalize t.entries = xs at *
  induction xs with
  | nil => simp at ha
  | cons x xs ih =>
    obtain ⟨hx, hxs⟩ := List.pairwise_cons.mp h
    rcases List.mem_cons.mp ha with rfl | ha' <;> rcases List.mem_cons.mp hb with hb' | hb'
    · exact (Prod.mk.inj hb').2.symm
    · exact absurd (hx _ hb') (Std.Irrefl.irrefl l)
    · subst hb'; exact absurd (hx _ ha') (Std.Irrefl.irrefl l)
    · exact ih ha' hb' hxs

theorem find?_eq_some_iff {t : Tree} {l : Location} (hl : l ≠ []) {e : Entry} :
    t.find? l = some e ↔ (l, e) ∈ t.entries := by
  simp only [find?, if_neg hl]
  constructor
  · intro h
    obtain ⟨x, hx, rfl⟩ := Option.map_eq_some_iff.mp h
    have hk := List.find?_some hx
    have hm := List.mem_of_find?_eq_some hx
    simp only [decide_eq_true_eq] at hk
    subst hk
    exact hm
  · intro h
    cases hf : t.entries.find? (fun x => x.1 = l) with
    | none =>
      have := List.find?_eq_none.mp hf _ h
      simp at this
    | some x =>
      have hk := List.find?_some hf
      have hm := List.mem_of_find?_eq_some hf
      simp only [decide_eq_true_eq] at hk
      subst hk
      simp [eq_of_mem (l := x.1) hm h]

/-- The entry that holds `l` is a directory. -/
theorem find?_dropLast {t : Tree} {l : Location} (hl : l ≠ []) {e : Entry}
    (h : t.find? l = some e) : t.find? l.dropLast = some .directory := by
  rcases t.anchored _ ((find?_eq_some_iff hl).mp h) with hd | hd
  · simp only at hd; rw [hd]; exact find?_root t
  · by_cases hn : l.dropLast = []
    · rw [hn]; exact find?_root t
    · exact (find?_eq_some_iff hn).mpr hd

/-- Two ordered lists with the same members are equal. -/
theorem eq_of_mem_iff : ∀ {xs ys : List (Location × Entry)},
    xs.Pairwise (fun a b => a.1 < b.1) → ys.Pairwise (fun a b => a.1 < b.1) →
    (∀ x, x ∈ xs ↔ x ∈ ys) → xs = ys
  | [], [], _, _, _ => rfl
  | [], y :: _, _, _, h => absurd ((h y).mpr (.head _)) (by simp)
  | x :: _, [], _, _, h => absurd ((h x).mp (.head _)) (by simp)
  | x :: xs, y :: ys, hx, hy, h => by
    obtain ⟨hx₁, hx₂⟩ := List.pairwise_cons.mp hx
    obtain ⟨hy₁, hy₂⟩ := List.pairwise_cons.mp hy
    have hxy : x = y := by
      rcases List.mem_cons.mp ((h x).mp (.head _)) with hm | hm
      · exact hm
      · rcases List.mem_cons.mp ((h y).mpr (.head _)) with hm' | hm'
        · exact hm'.symm
        · exact absurd (Trans.trans (hx₁ _ hm') (hy₁ _ hm)) (Std.Irrefl.irrefl x.1)
    subst hxy
    refine congrArg _ (eq_of_mem_iff hx₂ hy₂ fun z => ?_)
    constructor
    · intro hz
      rcases List.mem_cons.mp ((h z).mp (.tail _ hz)) with rfl | hm
      · exact absurd (hx₁ _ hz) (Std.Irrefl.irrefl z.1)
      · exact hm
    · intro hz
      rcases List.mem_cons.mp ((h z).mpr (.tail _ hz)) with rfl | hm
      · exact absurd (hy₁ _ hz) (Std.Irrefl.irrefl z.1)
      · exact hm

/-- Trees that hold the same entry at every location are equal. -/
theorem ext_find? {s t : Tree} (h : ∀ l, s.find? l = t.find? l) : s = t := by
  have : s.entries = t.entries := by
    refine eq_of_mem_iff s.ordered t.ordered fun ⟨l, e⟩ => ?_
    constructor
    · intro hm
      have hl := s.rooted _ hm
      exact (find?_eq_some_iff hl).mp (h l ▸ (find?_eq_some_iff hl).mpr hm)
    · intro hm
      have hl := t.rooted _ hm
      exact (find?_eq_some_iff hl).mp ((h l).symm ▸ (find?_eq_some_iff hl).mpr hm)
  cases s; cases t; cases this; rfl

/-- Puts an entry in its place in an ordered list, instead of one with its location. -/
def insertEntry (l : Location) (e : Entry) : List (Location × Entry) → List (Location × Entry)
  | [] => [(l, e)]
  | x :: rest =>
    if l < x.1 then (l, e) :: x :: rest
    else if l = x.1 then (l, e) :: rest
    else x :: insertEntry l e rest

theorem mem_insertEntry {l : Location} {e : Entry} {y : Location × Entry} :
    ∀ {xs : List (Location × Entry)}, xs.Pairwise (fun a b => a.1 < b.1) →
      (y ∈ insertEntry l e xs ↔ y = (l, e) ∨ (y ∈ xs ∧ y.1 ≠ l))
  | [], _ => by simp [insertEntry]
  | x :: xs, h => by
    obtain ⟨hx, hxs⟩ := List.pairwise_cons.mp h
    by_cases h₁ : l < x.1
    · rw [insertEntry, if_pos h₁, List.mem_cons]
      have : y ∈ x :: xs → y.1 ≠ l := by
        intro hy hl
        rcases List.mem_cons.mp hy with rfl | hy
        · exact Std.Irrefl.irrefl l (hl ▸ h₁)
        · exact Std.Irrefl.irrefl l (Trans.trans h₁ (hl ▸ hx _ hy))
      exact ⟨fun h => h.imp id fun hm => ⟨hm, this hm⟩, fun h => h.imp id (·.1)⟩
    · by_cases h₂ : l = x.1
      · rw [insertEntry, if_neg h₁, if_pos h₂, List.mem_cons, List.mem_cons]
        subst h₂
        constructor
        · rintro (h | h)
          · exact .inl h
          · exact .inr ⟨.inr h, fun hl => Std.Irrefl.irrefl x.1 (hl ▸ hx _ h)⟩
        · rintro (h | ⟨rfl | h, hn⟩)
          · exact .inl h
          · exact absurd rfl hn
          · exact .inr h
      · rw [insertEntry, if_neg h₁, if_neg h₂, List.mem_cons, mem_insertEntry hxs, List.mem_cons]
        constructor
        · rintro (rfl | h | ⟨h, hn⟩)
          · exact .inr ⟨.inl rfl, fun hl => h₂ hl.symm⟩
          · exact .inl h
          · exact .inr ⟨.inr h, hn⟩
        · rintro (h | ⟨rfl | h, hn⟩)
          · exact .inr (.inl h)
          · exact .inl rfl
          · exact .inr (.inr ⟨h, hn⟩)

theorem ordered_insertEntry {l : Location} {e : Entry} :
    ∀ {xs : List (Location × Entry)}, xs.Pairwise (fun a b => a.1 < b.1) →
      (insertEntry l e xs).Pairwise (fun a b => a.1 < b.1)
  | [], _ => by simp [insertEntry]
  | x :: xs, h => by
    obtain ⟨hx, hxs⟩ := List.pairwise_cons.mp h
    by_cases h₁ : l < x.1
    · rw [insertEntry, if_pos h₁, List.pairwise_cons]
      refine ⟨fun y hy => ?_, h⟩
      rcases List.mem_cons.mp hy with rfl | hy
      · exact h₁
      · exact Trans.trans h₁ (hx _ hy)
    · by_cases h₂ : l = x.1
      · rw [insertEntry, if_neg h₁, if_pos h₂, List.pairwise_cons]
        subst h₂
        exact ⟨hx, hxs⟩
      · rw [insertEntry, if_neg h₁, if_neg h₂, List.pairwise_cons]
        refine ⟨fun y hy => ?_, ordered_insertEntry hxs⟩
        rcases (mem_insertEntry hxs).mp hy with rfl | ⟨hy, _⟩
        · refine Classical.byContradiction fun hn => ?_
          exact h₂ (Std.Trichotomous.trichotomous (r := (· < ·)) _ _ h₁ hn)
        · exact hx _ hy

/-- A location can take an entry: it stands in a directory, and a directory there stays one. -/
def CanHold (t : Tree) (l : Location) (e : Entry) : Prop :=
  l ≠ [] ∧ t.find? l.dropLast = some .directory ∧ (t.find? l = some .directory → e = .directory)

instance (t : Tree) (l : Location) (e : Entry) : Decidable (t.CanHold l e) :=
  inferInstanceAs (Decidable (_ ∧ _ ∧ _))

theorem anchored_insertEntry {t : Tree} {l : Location} {e : Entry} (h : t.CanHold l e) :
    ∀ x ∈ insertEntry l e t.entries,
      x.1.dropLast = [] ∨ (x.1.dropLast, Entry.directory) ∈ insertEntry l e t.entries := by
  intro x hx
  obtain ⟨hl, hp, hd⟩ := h
  have hshort : l.dropLast ≠ l := fun hc => by
    have := congrArg List.length hc
    have hpos := List.length_pos_iff.mpr hl
    simp at this
    omega
  rcases (mem_insertEntry t.ordered).mp hx with rfl | ⟨hm, hn⟩
  · by_cases hr : l.dropLast = []
    · exact .inl hr
    · exact .inr ((mem_insertEntry t.ordered).mpr
        (.inr ⟨(find?_eq_some_iff hr).mp hp, hshort⟩))
  · rcases t.anchored _ hm with hr | ha
    · exact .inl hr
    · refine .inr ((mem_insertEntry t.ordered).mpr ?_)
      by_cases hk : x.1.dropLast = l
      · have : e = .directory := hd ((find?_eq_some_iff hl).mpr (hk ▸ ha))
        exact .inl (by rw [hk, this])
      · exact .inr ⟨ha, hk⟩

/-- The tree with an entry put at a location that can hold it; else the tree as it is. -/
def put (t : Tree) (l : Location) (e : Entry) : Tree :=
  if h : t.CanHold l e then
    { entries := insertEntry l e t.entries
      ordered := ordered_insertEntry t.ordered
      rooted := by
        intro x hx
        rcases (mem_insertEntry t.ordered).mp hx with rfl | ⟨hm, _⟩
        · exact h.1
        · exact t.rooted _ hm
      anchored := anchored_insertEntry h }
  else t

/-- After `put`, the location holds the entry and all others what they held. -/
theorem find?_put {t : Tree} {l : Location} {e : Entry} (h : t.CanHold l e) (k : Location) :
    (t.put l e).find? k = if k = l then some e else t.find? k := by
  by_cases hk : k = []
  · have : ¬k = l := fun hc => h.1 (hc ▸ hk)
    rw [if_neg this, hk]; simp
  · have hput : ∀ x, (k, x) ∈ (t.put l e).entries ↔
        (k, x) = (l, e) ∨ (k, x) ∈ t.entries ∧ k ≠ l := by
      intro x
      rw [put, dif_pos h]
      exact mem_insertEntry t.ordered
    refine Option.ext fun x => ?_
    rw [find?_eq_some_iff hk, hput]
    by_cases hkl : k = l
    · subst hkl
      simp [eq_comm]
    · simp [hkl, find?_eq_some_iff hk]

/-- The tree without a location and all that is below it. -/
def prune (t : Tree) (l : Location) : Tree where
  entries := t.entries.filter fun x => (l.within x.1).isNone
  ordered := t.ordered.filter _
  rooted := fun x hx => t.rooted x (List.mem_filter.mp hx).1
  anchored := by
    intro x hx
    obtain ⟨hm, hn⟩ := List.mem_filter.mp hx
    rcases t.anchored _ hm with hr | ha
    · exact .inl hr
    · refine .inr (List.mem_filter.mpr ⟨ha, ?_⟩)
      cases hw : Location.within l x.1.dropLast with
      | none => simp
      | some rest =>
        have hx' := Location.within_eq_some_iff.mp hw
        have hne := t.rooted _ hm
        have : x.1 = l ++ (rest ++ [x.1.getLast hne]) := by
          rw [← List.append_assoc, ← hx']; exact (List.dropLast_concat_getLast hne).symm
        rw [Location.within_eq_some_iff.mpr this] at hn
        simp at hn

/-- After `prune`, nothing is at or below the location, and the rest is as it was. -/
theorem find?_prune (t : Tree) {l : Location} (hl : l ≠ []) (k : Location) :
    (t.prune l).find? k = if (l.within k).isSome then none else t.find? k := by
  by_cases hk : k = []
  · subst hk
    cases l with
    | nil => exact absurd rfl hl
    | cons a l => simp [Location.within]
  · refine Option.ext fun x => ?_
    rw [find?_eq_some_iff hk, prune, List.mem_filter]
    cases h : l.within k <;> simp [find?_eq_some_iff hk]

/-- What is below a location, as a tree of its own. -/
def below (t : Tree) (l : Location) : Tree where
  entries := t.entries.filterMap fun x =>
    match l.within x.1 with
    | some (n :: rest) => some (n :: rest, x.2)
    | _ => none
  ordered := by
    refine List.Pairwise.filterMap _ ?_ t.ordered
    intro a b hab a' ha' b' hb'
    split at ha'
    · rename_i n rest ha
      split at hb'
      · rename_i m more hb
        cases ha'; cases hb'
        rw [Location.within_eq_some_iff.mp ha, Location.within_eq_some_iff.mp hb] at hab
        exact (Location.append_lt_append_iff l).mp hab
      · cases hb'
    · cases ha'
  rooted := by
    intro x hx
    obtain ⟨a, _, ha⟩ := List.mem_filterMap.mp hx
    split at ha
    · cases ha; simp
    · cases ha
  anchored := by
    intro x hx
    obtain ⟨a, hm, ha⟩ := List.mem_filterMap.mp hx
    split at ha
    · rename_i n rest hw
      cases ha
      have hk := Location.within_eq_some_iff.mp hw
      have hdrop : a.1.dropLast = l ++ (n :: rest).dropLast := by
        rw [hk, List.dropLast_append_of_ne_nil (by simp)]
      rcases t.anchored _ hm with hr | hp
      · rw [hdrop] at hr
        exact .inl (List.append_eq_nil_iff.mp hr).2
      · by_cases hd : (n :: rest).dropLast = []
        · exact .inl hd
        · refine .inr (List.mem_filterMap.mpr ⟨_, hp, ?_⟩)
          rw [hdrop, Location.within_append]
          cases hc : (n :: rest).dropLast with
          | nil => exact absurd hc hd
          | cons m more => rfl
    · cases ha

/-- `below` shows the entries under the location. -/
theorem find?_below (t : Tree) (l : Location) {k : Location} (hk : k ≠ []) :
    (t.below l).find? k = t.find? (l ++ k) := by
  have hlk : l ++ k ≠ [] := fun h => hk (List.append_eq_nil_iff.mp h).2
  refine Option.ext fun e => ?_
  rw [find?_eq_some_iff hk, find?_eq_some_iff hlk, below, List.mem_filterMap]
  constructor
  · rintro ⟨x, hm, hx⟩
    split at hx
    · rename_i n rest hw
      cases hx
      rw [← Location.within_eq_some_iff.mp hw]
      exact hm
    · cases hx
  · intro hm
    refine ⟨_, hm, ?_⟩
    rw [Location.within_append]
    cases k with
    | nil => exact absurd rfl hk
    | cons n rest => rfl

/-- The tree with all of `sub` put below a location. -/
def graft (t : Tree) (l : Location) (sub : Tree) : Tree :=
  sub.entries.foldl (fun t x => t.put (l ++ x.1) x.2) t

/-- The tree in which what was at `source`, with all below it, is at `target`. -/
def move (t : Tree) (source target : Location) : Tree :=
  match t.find? source with
  | none => t
  | some e => (((t.prune source).prune target).put target e).graft target (t.below source)

/-- A directory without entries. -/
def isEmptyDirectory (t : Tree) (l : Location) : Bool :=
  t.find? l = some .directory && (t.below l).entries.isEmpty

/-- How many regular files the tree holds. -/
def fileCount (t : Tree) : Nat :=
  t.entries.countP fun x => match x.2 with
    | .file .. => true
    | _ => false

end Tree
end GatedRelease
