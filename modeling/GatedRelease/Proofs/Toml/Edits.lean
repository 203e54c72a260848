import GatedRelease.Config.Decode
import Mathlib.Data.List.Nodup
import Mathlib.Logic.Relation

/-! # Tables that say the same

A reader takes a table as a map with defaults: it looks up the keys that it knows, and a key that is
not there stands for a value that is known beforehand.  So a table says the same in many ways.  A
setting may be left out if it is the default, a key may be put in if nobody knows it, and the keys
may stand in any order (`TableEdit`).  Whatever a setting is read as, it is read the same after such
a change (`Value.settingOr_edit`).
-/
namespace GatedRelease.Toml

/-- The keys of a table with their values. -/
abbrev Fields := List (String × Value)

namespace Fields
variable {f g before after : Fields} {k key : String} {v w : Value}

/-- The keys of a table. -/
def keys (f : Fields) : List String := f.map Prod.fst

theorem lookup_eq_none (h : key ∉ f.keys) : f.lookup key = none := by
  rw [List.lookup_eq_none_iff]
  intro x hx
  rw [bne_iff_ne]
  rintro rfl
  exact h (List.mem_map_of_mem hx)

theorem lookup_middle_of_ne (h : key ≠ k) :
    (before ++ (k, v) :: after).lookup key = (before ++ after).lookup key := by
  rw [List.lookup_append, List.lookup_append, List.lookup_cons, beq_eq_false_iff_ne.mpr h]

theorem lookup_middle_self (h : k ∉ before.keys) :
    (before ++ (k, v) :: after).lookup k = some v := by
  rw [List.lookup_append, lookup_eq_none h, List.lookup_cons, beq_self_eq_true]
  rfl

theorem lookup_eq_some_iff_mem (distinct : f.keys.Nodup) :
    f.lookup key = some v ↔ (key, v) ∈ f := by
  constructor
  · intro h
    obtain ⟨before, after, rfl, -⟩ := List.lookup_eq_some_iff.mp h
    exact List.mem_append_right before List.mem_cons_self
  · intro h
    obtain ⟨before, after, rfl⟩ := List.append_of_mem h
    refine lookup_middle_self fun twice => ?_
    rw [keys, List.map_append, List.nodup_append] at distinct
    exact distinct.2.2 key twice key (by simp) rfl

/-- What a key stands for does not depend on the order. -/
theorem lookup_perm (h : f.Perm g) (distinct : f.keys.Nodup) (key : String) :
    g.lookup key = f.lookup key := by
  have distinct' : g.keys.Nodup := (h.map Prod.fst).nodup_iff.mp distinct
  refine Option.ext fun v => ?_
  rw [lookup_eq_some_iff_mem distinct, lookup_eq_some_iff_mem distinct', h.mem_iff]

/-- The table without a key. -/
def without (f : Fields) (k : String) : Fields := f.filter fun x => x.1 != k

theorem lookup_without_self : (f.without k).lookup k = none := by
  refine lookup_eq_none fun there => ?_
  obtain ⟨x, hx, rfl⟩ := List.mem_map.mp there
  exact absurd (List.mem_filter.mp hx).2 (by simp)

theorem lookup_without_of_ne (h : key ≠ k) : (f.without k).lookup key = f.lookup key := by
  induction f with
  | nil => rfl
  | cons x f ih =>
    obtain ⟨k', v⟩ := x
    by_cases hk : k' = k
    · have gone : Fields.without ((k', v) :: f) k = Fields.without f k :=
        List.filter_cons_of_neg (by simp [hk])
      rw [gone, ih, List.lookup_cons, beq_eq_false_iff_ne.mpr (hk ▸ h)]
    · have kept : Fields.without ((k', v) :: f) k = (k', v) :: Fields.without f k :=
        List.filter_cons_of_pos (by simp [hk])
      rw [kept, List.lookup_cons, List.lookup_cons, ih]

end Fields

/-- **A change to a table that says nothing else**, where the reader knows these keys and has these
defaults. -/
inductive TableEdit (known : List String) (default : Fields) : Fields → Fields → Prop
  /-- A setting that is the default is left out. -/
  | leaveOut {before after : Fields} {key : String} {value : Value} :
      default.lookup key = some value → key ∉ (before ++ after).keys →
      TableEdit known default (before ++ (key, value) :: after) (before ++ after)
  /-- A key that nobody knows is put in. -/
  | putIn {before after : Fields} {key : String} {value : Value} :
      key ∉ known → key ∉ (before ++ after).keys →
      TableEdit known default (before ++ after) (before ++ (key, value) :: after)
  /-- The keys are put in another order. -/
  | reorder {f g : Fields} : f.Perm g → f.keys.Nodup → TableEdit known default f g

namespace TableEdit
variable {known : List String} {default f g : Fields} {key : String}

/-- A key that is known stands for what it stood for, or is left to be the default that it was. -/
theorem lookup_eq_or (e : TableEdit known default f g) (h : key ∈ known) :
    g.lookup key = f.lookup key ∨ g.lookup key = none ∧ f.lookup key = default.lookup key := by
  cases e with
  | @leaveOut before after k value said once =>
    by_cases hk : key = k
    · subst hk
      have free : key ∉ before.keys := fun there => once <| by
        rw [Fields.keys, List.map_append]
        exact List.mem_append_left _ there
      rw [said, Fields.lookup_middle_self free]
      exact .inr ⟨Fields.lookup_eq_none once, rfl⟩
    · exact .inl (Fields.lookup_middle_of_ne hk).symm
  | @putIn before after k value unknown _ =>
    exact .inl (Fields.lookup_middle_of_ne fun same => unknown (same ▸ h))
  | reorder perm distinct => exact .inl (Fields.lookup_perm perm distinct key)

/-- Any settings that are the default can be left out together. -/
theorem leaveOut_filter (keep : String → Bool) (kept f : Fields)
    (distinct : (kept ++ f).keys.Nodup)
    (said : ∀ x ∈ f, keep x.1 = false → default.lookup x.1 = some x.2) :
    Relation.ReflTransGen (TableEdit known default) (kept ++ f)
      (kept ++ f.filter fun x => keep x.1) := by
  induction f generalizing kept with
  | nil => exact .refl
  | cons x f ih =>
    obtain ⟨key, value⟩ := x
    obtain ⟨here, later⟩ := List.forall_mem_cons.mp said
    cases hk : keep key with
    | true =>
      have stays : ((key, value) :: f).filter (fun x => keep x.1) =
        (key, value) :: f.filter fun x => keep x.1 := List.filter_cons_of_pos hk
      rw [List.append_cons] at distinct
      rw [stays, List.append_cons kept, List.append_cons kept _ (f.filter _)]
      exact ih _ distinct later
    | false =>
      have once : key ∉ (kept ++ f).keys := by
        rw [Fields.keys, List.map_append, List.map_cons] at distinct
        rw [Fields.keys, List.map_append]
        exact (List.nodup_cons.mp (List.nodup_middle.mp distinct)).1
      have fewer : (kept ++ f).keys.Nodup := distinct.sublist
        ((List.sublist_cons_self _ _).append_left kept |>.map Prod.fst)
      have goes : ((key, value) :: f).filter (fun x => keep x.1) = f.filter fun x => keep x.1 :=
        List.filter_cons_of_neg (by simp [hk])
      rw [goes]
      exact .head (.leaveOut (here hk) once) (ih kept fewer later)

end TableEdit

namespace Value
variable {α : Type} {known names : List String} {default f g before after : Fields}
  {key k : String} {d : α} {read : Value → Except DecodeFailure α} {v w : Value}

theorem settingOr_table : settingOr names (.table f) key d read =
    match f.lookup key with
    | some v => read v
    | none => .ok d := by
  have said : setting? names key (.table f) = .ok (f.lookup key) := rfl
  rw [settingOr, said]
  cases f.lookup key <;> rfl

/-- **A setting is read the same after such a change**, if the default reads as what is taken where
nothing is said. -/
theorem settingOr_edit (e : TableEdit known default f g)
    (hd : settingOr names (.table default) key d read = .ok d) (h : key ∈ known) :
    settingOr names (.table g) key d read = settingOr names (.table f) key d read := by
  rw [settingOr_table] at hd
  rw [settingOr_table, settingOr_table]
  rcases e.lookup_eq_or h with same | ⟨left, said⟩
  · rw [same]
  · rw [left, said, hd]

/-- A setting is read the same if its value is replaced by one that is read the same. -/
theorem settingOr_replace (h : key = k → read v = read w) :
    settingOr names (.table (before ++ (k, v) :: after)) key d read =
      settingOr names (.table (before ++ (k, w) :: after)) key d read := by
  rw [settingOr_table, settingOr_table]
  by_cases hk : key = k
  · subst hk
    rw [List.lookup_append, List.lookup_append, List.lookup_cons, List.lookup_cons,
      beq_self_eq_true]
    cases before.lookup key with
    | some there => rfl
    | none => exact h rfl
  · rw [Fields.lookup_middle_of_ne hk, Fields.lookup_middle_of_ne hk]

/-- A setting is read the same if the defaults are put at the end of the table. -/
theorem settingOr_completed (f default : Fields)
    (hd : settingOr names (.table default) key d read = .ok d) :
    settingOr names (.table (f ++ default)) key d read = settingOr names (.table f) key d read := by
  rw [settingOr_table] at hd
  rw [settingOr_table, settingOr_table, List.lookup_append]
  cases f.lookup key with
  | some v => rfl
  | none => exact hd

end Value
end GatedRelease.Toml
