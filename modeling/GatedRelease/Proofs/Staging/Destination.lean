import GatedRelease.Proofs.FileSystem.Directories
import GatedRelease.Proofs.FileSystem.PathText
import GatedRelease.Staging

/-! # Destinations, as they are written

A destination is judged by its text.  It is refused if it starts at the root or goes up anywhere,
even if it comes down again, and also if it does not name anything; every other destination is taken
(`destination_eq`).  A staging that is refused for its destination does nothing at all
(`replace_refused`).
-/
namespace GatedRelease.Staging
variable {d checkout : String}
open PathText (isAbsolute pieces)

theorem staysInside_iff : staysInside d = true ↔ isAbsolute d = false ∧ ".." ∉ pieces d := by
  have steps : staysInside d = true ↔
      .root ∉ PathText.components d ∧ .parent ∉ PathText.components d := by
    unfold staysInside
    rw [List.all_eq_true]
    constructor
    · intro inside
      exact ⟨fun h => absurd (inside _ h) nofun, fun h => absurd (inside _ h) nofun⟩
    · rintro ⟨never, nor⟩ c hc
      cases c with
      | name _ | current => rfl
      | root => exact absurd hc never
      | parent => exact absurd hc nor
  rw [steps, PathText.root_mem_components_iff, Bool.not_eq_true]
  exact and_congr_right fun relative => not_congr (PathText.parent_mem_components_iff relative)

/-- A path that stays inside goes down if not all of its pieces count for nothing. -/
theorem goesDown_iff (inside : staysInside d = true) :
    goesDown d = true ↔ ∃ s ∈ pieces d, ¬(s = "" ∨ s = ".") := by
  obtain ⟨relative, never⟩ := staysInside_iff.mp inside
  have named : goesDown d = true ↔ ∃ t, .name t ∈ PathText.components d := by
    unfold goesDown
    rw [List.any_eq_true]
    constructor
    · rintro ⟨c, hc, named⟩
      cases c with
      | name t => exact ⟨t, hc⟩
      | root | current | parent => exact absurd named nofun
    · rintro ⟨t, ht⟩
      exact ⟨_, ht, rfl⟩
  rw [named, PathText.name_mem_components_iff relative]
  constructor
  · rintro ⟨s, hs, counts, -⟩
    exact ⟨s, hs, counts⟩
  · rintro ⟨s, hs, counts⟩
    exact ⟨s, hs, counts, fun up => never (up ▸ hs)⟩

/-- **How a destination is judged**, by its pieces. -/
theorem destination_eq (d checkout : String) : destination d checkout =
    if isAbsolute d = true ∨ ".." ∈ pieces d then .error (.outsideCheckout d)
    else if ∃ s ∈ pieces d, ¬(s = "" ∨ s = ".") then .ok (PathText.join checkout d)
    else .error .checkoutRoot := by
  unfold destination
  by_cases outside : isAbsolute d = true ∨ ".." ∈ pieces d
  · have leads : staysInside d = false := by
      rw [Bool.eq_false_iff, ne_eq, staysInside_iff]
      rintro ⟨relative, never⟩
      rcases outside with absolute | up
      · exact absurd (absolute.symm.trans relative) nofun
      · exact never up
    rw [if_pos outside, leads]
    rfl
  · have inside : staysInside d = true := by
      rw [not_or, Bool.not_eq_true] at outside
      exact staysInside_iff.mpr outside
    rw [if_neg outside, inside]
    by_cases down : ∃ s ∈ pieces d, ¬(s = "" ∨ s = ".")
    · rw [if_pos down, (goesDown_iff inside).mpr down]
      rfl
    · have stays : goesDown d = false := by
        rw [Bool.eq_false_iff, ne_eq, goesDown_iff inside]
        exact down
      rw [if_neg down, stays]
      rfl

/-- What is taken as a destination. -/
theorem destination_eq_ok_iff {p : String} : destination d checkout = .ok p ↔
    isAbsolute d = false ∧ ".." ∉ pieces d ∧ (∃ s ∈ pieces d, ¬(s = "" ∨ s = ".")) ∧
      p = PathText.join checkout d := by
  rw [destination_eq]
  by_cases outside : isAbsolute d = true ∨ ".." ∈ pieces d
  · rw [if_pos outside]
    refine ⟨nofun, ?_⟩
    rintro ⟨relative, never, -⟩
    rcases outside with absolute | up
    · exact absurd (absolute.symm.trans relative) nofun
    · exact absurd up never
  · rw [if_neg outside]
    rw [not_or, Bool.not_eq_true] at outside
    by_cases down : ∃ s ∈ pieces d, ¬(s = "" ∨ s = ".")
    · rw [if_pos down, Except.ok.injEq]
      exact ⟨fun he => ⟨outside.1, outside.2, down, he.symm⟩, fun h => h.2.2.2.symm⟩
    · rw [if_neg down]
      exact ⟨nofun, fun h => absurd h.2.2.1 down⟩

/-- A plain path is taken for a place in the checkout. -/
theorem destination_of_isPlain (h : PathText.IsPlain d) (checkout : String) :
    destination d checkout = .ok (PathText.join checkout d) := by
  obtain ⟨some, steps⟩ := PathText.pieces_of_isPlain h
  obtain ⟨s, hs⟩ := List.exists_mem_of_ne_nil _ some
  refine destination_eq_ok_iff.mpr ⟨PathText.isAbsolute_of_isPlain h,
    fun up => (steps _ up).2.2.1 rfl, ⟨s, hs, fun idle => ?_⟩, rfl⟩
  exact idle.elim (steps s hs).1 (steps s hs).2.1

/-- Nothing is done for a destination that is refused. -/
theorem replace_refused {artifact : Artifact} {suffix : String} {e : StagingFailure}
    {fs : FileSystem} (h : destination artifact.dest checkout = .error e) :
    replace artifact checkout suffix fs = (.error e, fs) := by
  unfold replace
  rw [FileStep.bind_apply, FileStep.look_apply, h]

end GatedRelease.Staging
