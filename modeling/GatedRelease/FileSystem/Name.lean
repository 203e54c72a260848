import GatedRelease.Text.Utf8

/-! File names and physical locations. A location is the list of names that leads to an entry from
the root; `within_eq_some_iff` says that `within` finds what a location adds to one above it. -/
namespace GatedRelease

/-- What a directory can call an entry: not empty, not one of the two dot names, without slash or
NUL, and of at most 255 bytes. -/
def Name.isValid (s : String) : Bool :=
  s != "" && s != "." && s != ".." && !s.toList.contains '/' && !s.toList.contains (Char.ofNat 0) &&
    s.utf8ByteSize ≤ 255

/-- A file name. -/
structure Name where
  text : String
  valid : Name.isValid text = true
deriving DecidableEq

namespace Name

/-- The text as a file name, if it can be one. -/
def ofString? (s : String) : Option Name :=
  if h : isValid s = true then some ⟨s, h⟩ else none

theorem ext {a b : Name} (h : a.text = b.text) : a = b := by
  cases a; cases b; cases h; rfl

/-- Names are ordered by their characters, which is the order of their bytes. -/
instance : LT Name := ⟨fun a b => a.text < b.text⟩

instance (a b : Name) : Decidable (a < b) := inferInstanceAs (Decidable (a.text < b.text))

instance : Std.Irrefl (α := Name) (· < ·) := ⟨fun a => String.lt_irrefl a.text⟩

instance : Trans (α := Name) (· < ·) (· < ·) (· < ·) :=
  ⟨fun {a b c} (h₁ : a.text < b.text) (h₂ : b.text < c.text) =>
    (String.lt_trans h₁ h₂ : a.text < c.text)⟩

instance : Std.Trichotomous (α := Name) (· < ·) :=
  ⟨fun a b h₁ h₂ => ext (Std.Trichotomous.trichotomous (r := (· < ·)) a.text b.text h₁ h₂)⟩

instance : Std.Asymm (α := Name) (· < ·) :=
  ⟨fun a _ h₁ h₂ => String.lt_irrefl a.text (String.lt_trans h₁ h₂)⟩

end Name

/-- The names that lead to an entry from the root. -/
abbrev Location := List Name

namespace Location

/-- What `inner` adds to `outer`, if `inner` is at or below `outer`. -/
def within : Location → Location → Option Location
  | [], inner => some inner
  | _ :: _, [] => none
  | a :: outer, b :: inner => if a = b then within outer inner else none

theorem within_eq_some_iff {outer inner rest : Location} :
    within outer inner = some rest ↔ inner = outer ++ rest := by
  induction outer generalizing inner with
  | nil => simp [within]
  | cons a outer ih =>
    cases inner with
    | nil => simp [within]
    | cons b inner =>
      by_cases h : a = b
      · subst h; simp [within, ih]
      · simp [within, h, Ne.symm h]

@[simp] theorem within_append (outer rest : Location) :
    within outer (outer ++ rest) = some rest :=
  within_eq_some_iff.mpr rfl

theorem append_lt_append_iff (outer : Location) {a b : Location} :
    outer ++ a < outer ++ b ↔ a < b := by
  induction outer with
  | nil => simp
  | cons n outer ih =>
    simp only [List.cons_append, List.cons_lt_cons_iff]
    constructor
    · rintro (h | ⟨_, h⟩)
      · exact absurd h (Std.Irrefl.irrefl n)
      · exact ih.mp h
    · exact fun h => .inr (And.intro trivial (ih.mpr h))

/-- The names with slashes between them. -/
def render (l : Location) : String := String.intercalate "/" (l.map (·.text))

/-- How many bytes the names take with slashes between them. -/
def width (l : Location) : Nat := (render l).utf8ByteSize

end Location
end GatedRelease
