import GatedRelease.Proofs.Script.Ways

/-! # What is performed in the course of a run

A run of a script is made up of the runs of its parts, each in the world that those before it have
left.  `t.Performed o v s w taken` says that the run of `s` from the world `w` comes to a run of the
part `t` in the world `v`, after it has taken the notes `taken`.  A statement on what was done, and
in which world, is then one on the part itself, and no note has to be made of it.
-/
namespace GatedRelease

/-- The request is for something to read. -/
def Request.Reading : Request → Prop
  | .look | .environment _ | .cancelled => True
  | _ => False

namespace Script
variable {σ α β γ : Type} {o : Outside σ}

theorem value_bind (s : Script α) (f : α → Script β) (w : World σ) :
    ((s.bind f).play o w).value = ((f (s.play o w).value).play o (s.play o w).world).value := by
  rw [play_bind]

theorem world_bind (s : Script α) (f : α → Script β) (w : World σ) :
    ((s.bind f).play o w).world = ((f (s.play o w).value).play o (s.play o w).world).world := by
  rw [play_bind]

theorem notes_bind (s : Script α) (f : α → Script β) (w : World σ) :
    ((s.bind f).play o w).notes =
      (s.play o w).notes ++ ((f (s.play o w).value).play o (s.play o w).world).notes := by
  rw [play_bind]

/-- What follows on a call of git goes by what became of it. -/
theorem play_callGit_bind {w v : World σ} {call : Git.Call} {outcome : Git.Outcome}
    {place : Option Location} (h : w.callGit o call = (outcome, place, v))
    (f : Git.Outcome → Script α) :
    ((callGit call).bind f).play o w = ((f outcome).play o v).after (.git call place outcome) := by
  show ((f (w.callGit o call).1).play o (w.callGit o call).2.2).after
    (.git call (w.callGit o call).2.1 (w.callGit o call).1) = _
  rw [h]

/-- **A part of a run**: the whole is a part, and the parts of what comes first and of what follows
upon it are parts. -/
inductive Performed (o : Outside σ) (t : Script β) (v : World σ) :
    {α : Type} → Script α → World σ → List Note → Prop
  | here : Performed o t v t v []
  | first {α γ : Type} {s : Script α} {f : α → Script γ} {w : World σ} {taken : List Note} :
      Performed o t v s w taken → Performed o t v (s.bind f) w taken
  | second {α γ : Type} {s : Script α} {f : α → Script γ} {w : World σ} {taken : List Note} :
      Performed o t v (f (s.play o w).value) (s.play o w).world taken →
      Performed o t v (s.bind f) w ((s.play o w).notes ++ taken)

/-- The notes of a part stand in the notes of the whole. -/
theorem Performed.notes {t : Script β} {v w : World σ} {s : Script α} {taken : List Note}
    (h : Performed o t v s w taken) :
    ∃ rest, (s.play o w).notes = taken ++ (t.play o v).notes ++ rest := by
  induction h with
  | here => exact ⟨[], by simp⟩
  | first _ ih =>
    obtain ⟨rest, ih⟩ := ih
    rw [notes_bind, ih]
    exact ⟨_, List.append_assoc ..⟩
  | second _ ih =>
    obtain ⟨rest, ih⟩ := ih
    rw [notes_bind, ih]
    exact ⟨rest, by simp⟩

/-- What is only read changes nothing and is not written down. -/
theorem play_of_reading {s : Script α} (hs : s.Uses Request.Reading) (w : World σ) :
    s.play o w = ⟨(s.play o w).value, w, []⟩ := by
  induction s with
  | done a => rfl
  | look next ih | environment name next ih | cancelled next ih => exact ih _ (hs.2 _)
  | store fs next ih | git call next ih | command c next ih | raise next ih | suffix next ih =>
    exact absurd hs.1 id
  | note n next ih => exact absurd hs.2.1 id

end Script

namespace Attempt
variable {σ ε δ α β : Type} (o : Outside σ)

/-- **One attempt after another**: the second starts in the world that the first leaves, if the
first does not fail. -/
theorem play_bind (x : Attempt ε α) (f : α → Attempt ε β) (w : World σ) :
    (x >>= f).run.play o w =
      match (x.run.play o w).value with
      | .error e => ⟨.error e, (x.run.play o w).world, (x.run.play o w).notes⟩
      | .ok a =>
        let second := (f a).run.play o (x.run.play o w).world
        ⟨second.value, second.world, (x.run.play o w).notes ++ second.notes⟩ := by
  rw [ExceptT.run_bind, Script.bind_eq, Script.play_bind]
  obtain ⟨value, world, notes⟩ := x.run.play o w
  cases value with
  | error e => exact congrArg (Played.mk _ world) (List.append_nil notes)
  | ok a => rfl

/-- Other words for the failure are all that changes. -/
theorem play_orElseSay (x : Attempt ε α) (say : ε → δ) (w : World σ) :
    (x.orElseSay say).run.play o w =
      ⟨(x.run.play o w).value.mapError say, (x.run.play o w).world, (x.run.play o w).notes⟩ := by
  show (x.run.bind _).play o w = _
  rw [Script.play_bind]
  obtain ⟨value, world, notes⟩ := x.run.play o w
  cases value <;> exact congrArg (Played.mk _ world) (List.append_nil notes)

end Attempt
end GatedRelease
