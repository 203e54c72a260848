import GatedRelease.Stage.Basic
import Mathlib.Data.List.Nodup

/-! # Stages in a chain

Chaining a stage to the one before it gives it one more dependency, behind those that it has, unless
it has that one already (`chained_eq`).  Its name, its kind, its state and its action stay, and so
they do for all stages of a list that is put in a chain.  What each stage is chained to is the name
of the stage before it in the list (`getElem?_linearAfter`), which the chain keeps, so that a chain
put in a chain once more stays as it is (`linear_links`).
-/
namespace GatedRelease.Stage

/-! ## One stage -/

/-- A stage that is chained is the same but for its dependencies. -/
theorem chained_eq (previous : Option String) (s : Stage) :
    ∃ names, s.chained previous = { s with dependsOn := names } := by
  unfold chained
  split
  · split
    · exact ⟨s.dependsOn, rfl⟩
    · exact ⟨_, rfl⟩
  · exact ⟨s.dependsOn, rfl⟩

@[simp] theorem chained_name (previous : Option String) (s : Stage) :
    (s.chained previous).name = s.name := by
  obtain ⟨names, h⟩ := chained_eq previous s
  rw [h]

@[simp] theorem chained_kind (previous : Option String) (s : Stage) :
    (s.chained previous).kind = s.kind := by
  obtain ⟨names, h⟩ := chained_eq previous s
  rw [h]

@[simp] theorem chained_action (previous : Option String) (s : Stage) :
    (s.chained previous).action = s.action := by
  obtain ⟨names, h⟩ := chained_eq previous s
  rw [h]

@[simp] theorem chained_status (previous : Option String) (s : Stage) :
    (s.chained previous).status = s.status := by
  obtain ⟨names, h⟩ := chained_eq previous s
  rw [h]

/-! ## Lists of stages -/

/-- Chaining the last stage leaves the stages before it as they are, and what it is chained to is
known from them. -/
theorem linearAfter_append (previous : Option String) (stages : List Stage) :
    ∃ name, ∀ s, linearAfter previous (stages ++ [s]) =
      linearAfter previous stages ++ [s.chained name] := by
  induction stages generalizing previous with
  | nil => exact ⟨previous, fun _ => rfl⟩
  | cons first later ih =>
    obtain ⟨name, h⟩ := ih (some first.name)
    refine ⟨name, fun s => ?_⟩
    show first.chained previous :: linearAfter (some first.name) (later ++ [s]) = _
    rw [h]
    rfl

@[simp] theorem length_linearAfter (previous : Option String) (stages : List Stage) :
    (linearAfter previous stages).length = stages.length := by
  induction stages generalizing previous with
  | nil => rfl
  | cons s later ih => exact congrArg (· + 1) (ih (some s.name))

/-- Chained stages have the actions and the states that they had before. -/
theorem exists_of_mem_linearAfter {previous : Option String} {stages : List Stage} {s : Stage}
    (h : s ∈ linearAfter previous stages) :
    ∃ t ∈ stages, s.action = t.action ∧ s.status = t.status := by
  induction stages generalizing previous with
  | nil => exact absurd h List.not_mem_nil
  | cons first later ih =>
    rcases List.mem_cons.mp h with rfl | h
    · exact ⟨first, List.mem_cons_self, chained_action previous first,
        chained_status previous first⟩
    · obtain ⟨t, ht, he⟩ := ih h
      exact ⟨t, List.mem_cons_of_mem _ ht, he⟩

/-- **In a chain a stage depends only on names of stages before it.** -/
theorem dependsOn_linearAfter {previous : Option String} {stages before later : List Stage}
    {s : Stage} (free : ∀ t ∈ stages, t.dependsOn = [])
    (h : linearAfter previous stages = before ++ s :: later) :
    ∀ d ∈ s.dependsOn, d ∈ previous.toList ++ before.map (·.name) := by
  induction stages generalizing previous before with
  | nil => exact absurd h (by simp [linearAfter])
  | cons t rest ih =>
    obtain ⟨none, others⟩ := List.forall_mem_cons.mp free
    cases before with
    | nil =>
      obtain ⟨rfl, -⟩ := List.cons.inj h
      cases previous with
      | none => simp [Stage.chained, none]
      | some name => simp [Stage.chained, Stage.after, none]
    | cons b before =>
      obtain ⟨rfl, hr⟩ := List.cons.inj h
      intro d hd
      have := ih others hr d hd
      rw [List.map_cons, chained_name]
      exact List.mem_append_right _ this

/-! ## Links -/

section Links
variable {name : String} {previous : Option String} {stages : List Stage} {s : Stage} {i : Nat}

theorem chained_of_mem (h : name ∈ s.dependsOn) : s.chained (some name) = s := if_pos h

theorem chained_of_not_mem (h : name ∉ s.dependsOn) : s.chained (some name) = s.after name :=
  if_neg h

/-- A stage that is chained to another depends on it. -/
theorem mem_dependsOn_chained (name : String) (s : Stage) :
    name ∈ (s.chained (some name)).dependsOn := by
  by_cases h : name ∈ s.dependsOn
  · rwa [chained_of_mem h]
  · rw [chained_of_not_mem h]
    exact List.mem_append_right _ (List.mem_singleton_self name)

/-- What is chained already stays as it is. -/
theorem chained_chained (previous : Option String) (s : Stage) :
    (s.chained previous).chained previous = s.chained previous := by
  cases previous with
  | none => rfl
  | some name => exact chained_of_mem (mem_dependsOn_chained name s)

/-- No dependency comes twice by chaining. -/
theorem nodup_dependsOn_chained (previous : Option String) (h : s.dependsOn.Nodup) :
    (s.chained previous).dependsOn.Nodup := by
  cases previous with
  | none => exact h
  | some name =>
    by_cases known : name ∈ s.dependsOn
    · rwa [chained_of_mem known]
    · rw [chained_of_not_mem known]
      show (s.dependsOn ++ [name]).Nodup
      rw [← List.concat_eq_append]
      exact h.concat known

/-- What the stage at a position is chained to: the name before the list, or of the stage before. -/
def linkAt (previous : Option String) (stages : List Stage) : Nat → Option String
  | 0 => previous
  | i + 1 => stages[i]?.map (·.name)

/-- **The stage at a position is chained to the one before it**, as both stand in the list. -/
theorem getElem?_linearAfter (previous : Option String) (stages : List Stage) (i : Nat) :
    (linearAfter previous stages)[i]? = stages[i]?.map (chained (linkAt previous stages i)) := by
  induction stages generalizing previous i with
  | nil => rfl
  | cons first later ih =>
    cases i with
    | zero => rfl
    | succ i =>
      have link : linkAt (some first.name) later i = linkAt previous (first :: later) (i + 1) := by
        cases i <;> rfl
      show (linearAfter (some first.name) later)[i]? = later[i]?.map _
      rw [ih, link]

/-- The names that stages are chained to are the same in the chain. -/
theorem linkAt_linearAfter (previous : Option String) (stages : List Stage) (i : Nat) :
    linkAt previous (linearAfter previous stages) i = linkAt previous stages i := by
  cases i with
  | zero => rfl
  | succ i =>
    show (linearAfter previous stages)[i]?.map (·.name) = stages[i]?.map (·.name)
    rw [getElem?_linearAfter, Option.map_map]
    exact congrArg (Option.map · stages[i]?) (funext fun s => chained_name _ s)

/-- A chain is in a chain already. -/
theorem linearAfter_linearAfter (previous : Option String) (stages : List Stage) :
    linearAfter previous (linearAfter previous stages) = linearAfter previous stages := by
  refine List.ext_getElem? fun i => ?_
  rw [getElem?_linearAfter, linkAt_linearAfter, getElem?_linearAfter, Option.map_map]
  exact congrArg (Option.map · stages[i]?) (funext fun s => chained_chained _ s)

/-- A stage of a chain is the stage that stood there, chained to the one before it. -/
theorem eq_chained_of_linearAfter {t : Stage} (hs : stages[i]? = some s)
    (ht : (linearAfter previous stages)[i]? = some t) :
    t = s.chained (linkAt previous stages i) := by
  rw [getElem?_linearAfter, hs] at ht
  exact (Option.some.inj ht).symm

/-- **How a chain hangs together**, by the stages that it is made of. -/
structure Links (stages chain : List Stage) : Prop where
  length : chain.length = stages.length
  /-- The stages are in their order, and the same but for what they depend on. -/
  kept (i : Nat) (s t : Stage) : stages[i]? = some s → chain[i]? = some t →
    t.name = s.name ∧ t.kind = s.kind ∧ t.status = s.status ∧ t.action = s.action
  /-- A stage depends on what it did, in order, and then at most on the stage before it, if it did
  not yet. -/
  added (i : Nat) (s t : Stage) : stages[i]? = some s → chain[i]? = some t →
    t.dependsOn = s.dependsOn ∨ ∃ j previous, i = j + 1 ∧ stages[j]? = some previous ∧
      previous.name ∉ s.dependsOn ∧ t.dependsOn = s.dependsOn ++ [previous.name]
  /-- Every stage but the first depends on the one before it. -/
  linked (i : Nat) (previous t : Stage) : chain[i]? = some previous → chain[i + 1]? = some t →
    previous.name ∈ t.dependsOn
  first : chain.head? = stages.head?
  distinct : (∀ s ∈ stages, s.dependsOn.Nodup) → ∀ t ∈ chain, t.dependsOn.Nodup

/-- **The structure of a chain.** Putting stages in a chain, whatever their names and dependencies,
adds to each but the first the name of the one before it where that is missing, and nothing else;
and a chain stays as it is. -/
theorem linear_links (stages : List Stage) :
    Links stages (linear stages) ∧ linear (linear stages) = linear stages := by
  refine ⟨⟨length_linearAfter none stages, ?_, ?_, ?_, ?_, ?_⟩, linearAfter_linearAfter none stages⟩
  · intro i s t hs ht
    rw [eq_chained_of_linearAfter hs ht]
    exact ⟨chained_name _ s, chained_kind _ s, chained_status _ s, chained_action _ s⟩
  · intro i s t hs ht
    obtain rfl := eq_chained_of_linearAfter hs ht
    cases i with
    | zero => exact Or.inl rfl
    | succ j =>
      have there : j < stages.length :=
        Nat.lt_of_succ_lt (List.getElem?_eq_some_iff.mp hs).1
      have before : stages[j]? = some stages[j] := List.getElem?_eq_getElem there
      have link : linkAt none stages (j + 1) = some stages[j].name :=
        congrArg (Option.map _) before
      rw [link]
      by_cases known : stages[j].name ∈ s.dependsOn
      · exact Or.inl (congrArg dependsOn (chained_of_mem known))
      · exact Or.inr ⟨j, stages[j], rfl, before, known,
          congrArg dependsOn (chained_of_not_mem known)⟩
  · intro i previous t hp ht
    -- The stage before has kept its name, so that it is what the chain was made with.
    have link : linkAt none (linear stages) (i + 1) = some previous.name :=
      congrArg (Option.map _) hp
    have again : (linearAfter none (linear stages))[i + 1]? = some t := by
      rw [linear, linearAfter_linearAfter]
      exact ht
    rw [eq_chained_of_linearAfter ht again, link]
    exact mem_dependsOn_chained previous.name t
  · cases stages <;> rfl
  · intro distinct t ht
    obtain ⟨i, hi⟩ := List.mem_iff_getElem?.mp ht
    obtain ⟨s, hs, rfl⟩ := Option.map_eq_some_iff.mp ((getElem?_linearAfter _ _ _).symm.trans hi)
    exact nodup_dependsOn_chained _ (distinct s (List.mem_of_getElem? hs))

end Links

end GatedRelease.Stage
