import GatedRelease.Config.Validate
import Mathlib.Tactic.SplitIfs

/-! # What a configuration is judged by

The judgement looks for one defect after the other and stops at the first.  All in all it asks for
two things: that every setting a release cannot do without is there (`Config.Complete`), and that no
two suites have one name.  A configuration that is complete is refused for nothing but a name that
is given twice, and that name is the one reported (`Complete.validate_eq`).
-/
namespace GatedRelease
open PathText (isAbsolute)

/-- **The words name a program**: there is a first one, and it is not blank. -/
def NamesProgram (argv : List String) : Prop :=
  ∃ program args, argv = program :: args ∧ Text.isBlank program = false

/-- More arguments do not change the program. -/
theorem NamesProgram.append {argv : List String} (h : NamesProgram argv) (more : List String) :
    NamesProgram (argv ++ more) := by
  obtain ⟨program, args, rfl, told⟩ := h
  exact ⟨program, args ++ more, rfl, told⟩

/-- A suite has a name and a program. -/
structure Suite.Complete (s : Suite) : Prop where
  name : Text.isBlank s.name = false
  command : NamesProgram s.command

namespace Config
variable {c : Config} {suites : List Suite} {seen : List String} {name : String}

/-- **Nothing is missing**: what a configuration has to say, apart from the names of suites being
different. -/
structure Complete (c : Config) : Prop where
  build : NamesProgram c.build.command
  outputDir : c.build.outputDir ≠ ""
  remoteUrl : Text.isBlank c.target.remoteUrl = false
  branch : Text.isBlank c.target.branch = false
  artifactPath : c.target.artifactPath ≠ "" ∧ isAbsolute c.target.artifactPath = false
  commitMessage : Text.isBlank c.target.commitMessage = false
  envVar : Text.isBlank c.credential.envVar = false
  gated : c.suites ≠ []
  suites : ∀ s ∈ c.suites, s.Complete

/-- **The first name that is given again**, some names being taken. -/
def Repeats (seen : List String) (suites : List Suite) (name : String) : Prop :=
  ∃ before s after, suites = before ++ s :: after ∧ s.name = name ∧
    s.name ∈ before.map (·.name) ++ seen ∧ (before.map (·.name)).Nodup ∧
    ∀ t ∈ before, t.name ∉ seen

/-! ## Suites -/

theorem lacksProgram_eq_false_iff {argv : List String} :
    lacksProgram argv = false ↔ NamesProgram argv := by
  cases argv with
  | nil => exact ⟨nofun, fun ⟨_, _, h, _⟩ => absurd h nofun⟩
  | cons program args =>
    refine ⟨fun h => ⟨program, args, rfl, h⟩, ?_⟩
    rintro ⟨_, _, ⟨⟩, h⟩
    exact h

/-- **When suites have no defect.** -/
theorem suitesDefect?_eq_none_iff : suitesDefect? seen suites = none ↔
    (∀ s ∈ suites, s.Complete) ∧ (suites.map (·.name)).Nodup ∧ ∀ s ∈ suites, s.name ∉ seen := by
  induction suites generalizing seen with
  | nil => simp [suitesDefect?]
  | cons s rest ih =>
    have complete_iff : s.Complete ↔
        Text.isBlank s.name = false ∧ lacksProgram s.command = false := by
      rw [lacksProgram_eq_false_iff]
      exact ⟨fun h => ⟨h.name, h.command⟩, fun h => ⟨h.1, h.2⟩⟩
    unfold suitesDefect?
    split_ifs with blank taken lacking
    · simp [complete_iff, blank]
    · simp [taken]
    · simp [complete_iff, lacking]
    · -- The names behind the first are new exactly if they are not its name and not taken.
      have complete : s.Complete := complete_iff.mpr ⟨by simpa using blank, by simpa using lacking⟩
      rw [ih]
      constructor
      · rintro ⟨others, distinct, free⟩
        have new : s.name ∉ rest.map (·.name) := by
          intro there
          obtain ⟨t, ht, same⟩ := List.mem_map.mp there
          exact free t ht (by simp [same])
        exact ⟨List.forall_mem_cons.mpr ⟨complete, others⟩, List.nodup_cons.mpr ⟨new, distinct⟩,
          List.forall_mem_cons.mpr ⟨taken, fun t ht there => free t ht (.tail _ there)⟩⟩
      · rintro ⟨all, distinct, free⟩
        obtain ⟨new, distinct⟩ := List.nodup_cons.mp distinct
        refine ⟨(List.forall_mem_cons.mp all).2, distinct, fun t ht there => ?_⟩
        rcases List.mem_cons.mp there with same | there
        · exact new (List.mem_map.mpr ⟨t, ht, same⟩)
        · exact free t (List.mem_cons_of_mem s ht) there

/-- **The defect of suites that are complete**, if there is one, is a name that is given again. -/
theorem suitesDefect?_of_complete (seen : List String) (complete : ∀ s ∈ suites, s.Complete) :
    suitesDefect? seen suites = none ∨
      ∃ name, suitesDefect? seen suites = some (.repeatedSuite name) ∧
        Repeats seen suites name := by
  induction suites generalizing seen with
  | nil => exact Or.inl rfl
  | cons s rest ih =>
    obtain ⟨⟨named, program⟩, others⟩ := List.forall_mem_cons.mp complete
    rw [← lacksProgram_eq_false_iff] at program
    unfold suitesDefect?
    rw [if_neg (by simp [named])]
    by_cases taken : s.name ∈ seen
    · rw [if_pos taken]
      exact Or.inr ⟨s.name, rfl, [], s, rest, rfl, rfl, taken, by simp, by simp⟩
    · rw [if_neg taken, if_neg (by simp [program])]
      rcases ih _ others with sound | ⟨name, defect, before, t, after, rfl, rfl, again, new, free⟩
      · exact Or.inl sound
      · refine Or.inr ⟨t.name, defect, s :: before, t, after, rfl, rfl, ?_, ?_, ?_⟩
        · rcases List.mem_append.mp again with there | there
          · exact List.mem_append_left _ (List.mem_cons_of_mem s.name there)
          · rcases List.mem_cons.mp there with same | there
            · exact List.mem_append_left _ (same ▸ List.mem_cons_self)
            · exact List.mem_append_right _ there
        · rw [List.map_cons, List.nodup_cons]
          refine ⟨fun first => ?_, new⟩
          obtain ⟨u, hu, same⟩ := List.mem_map.mp first
          exact free u hu (by simp [same])
        · refine List.forall_mem_cons.mpr ⟨taken, fun u hu => ?_⟩
          exact fun there => free u hu (List.mem_cons_of_mem s.name there)

/-! ## Configurations -/

/-- What is left to judge of a complete configuration is its suites. -/
theorem Complete.defect?_eq (h : c.Complete) : c.defect? = suitesDefect? [] c.suites := by
  obtain ⟨build, outputDir, remoteUrl, branch, ⟨placed, relative⟩, message, variableSet, gated, -⟩ := h
  rw [← lacksProgram_eq_false_iff] at build
  unfold defect?
  simp [build, outputDir, remoteUrl, branch, placed, relative, message, variableSet, gated]

/-- **What an accepted configuration is.** -/
theorem validate_eq_ok_iff_complete :
    c.validate = .ok () ↔ c.Complete ∧ (c.suites.map (·.name)).Nodup := by
  have accepts : c.validate = .ok () ↔ c.defect? = none := by
    unfold validate
    cases c.defect? <;> simp
  rw [accepts]
  constructor
  · intro h
    unfold defect? at h
    split_ifs at h with h₁ h₂ h₃ h₄ h₅ h₆ h₇ h₈
    obtain ⟨suites, distinct, -⟩ := suitesDefect?_eq_none_iff.mp h
    simp only [Bool.not_eq_true, not_or] at h₁ h₃ h₄ h₅ h₆ h₇
    exact ⟨⟨lacksProgram_eq_false_iff.mp h₁, h₂, h₃, h₄, h₅, h₆, h₇, h₈, suites⟩, distinct⟩
  · rintro ⟨complete, distinct⟩
    rw [complete.defect?_eq, suitesDefect?_eq_none_iff]
    exact ⟨complete.suites, distinct, by simp⟩

/-- **How a complete configuration is judged**: by the names of its suites. -/
theorem Complete.validate_eq (h : c.Complete) :
    c.validate = .ok () ∧ (c.suites.map (·.name)).Nodup ∨
      ∃ name, c.validate = .error (.repeatedSuite name) ∧ Repeats [] c.suites name := by
  rcases suitesDefect?_of_complete [] h.suites with sound | ⟨name, defect, repeats⟩
  · have distinct := (suitesDefect?_eq_none_iff.mp sound).2.1
    exact Or.inl ⟨validate_eq_ok_iff_complete.mpr ⟨h, distinct⟩, distinct⟩
  · refine Or.inr ⟨name, ?_, repeats⟩
    unfold validate
    rw [h.defect?_eq, defect]

end Config
end GatedRelease
