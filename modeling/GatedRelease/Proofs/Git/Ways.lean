import GatedRelease.Git.Repository
import GatedRelease.Proofs.Script.Ways

/-! # What work in a checkout asks of git

Each operation of `Repository` calls git once, or twice where the new commit has to be named.  For
each, one statement gives every way through it: the note of the call, and the result as a function
of what became of the call.  Nothing is assumed of git: a call may not start, or end with any code
and any output.
-/
namespace GatedRelease

namespace Git

/-- The action is one of publishing; the others only get a checkout. -/
def Action.isPublishing : Action → Bool
  | .topLevel | .clone .. => false
  | _ => true

/-- The call started and ended well. -/
def Outcome.succeeded : Outcome → Bool
  | .exited reply => reply.success
  | .notStarted _ => false

theorem Outcome.succeeded_iff {outcome : Outcome} :
    outcome.succeeded = true ↔ ∃ reply, outcome = .exited reply ∧ reply.success = true := by
  constructor
  · intro h
    cases outcome with
    | notStarted cause => exact absurd h Bool.false_ne_true
    | exited reply => exact ⟨reply, rfl, h⟩
  · rintro ⟨reply, rfl, h⟩
    exact h

/-- A result read off what became of a call: a call that did not start has failed, and `read`
judges an answer. -/
def Outcome.judge {α : Type} (read : Reply → Except Failure α) : Outcome → Except Failure α
  | .notStarted cause => .error (.notStarted cause)
  | .exited reply => read reply

/-- The notes tell of one call, and of nothing else. -/
def Tells (notes : List Note) (call : Call) (outcome : Outcome) : Prop :=
  ∃ place, notes = [.git call place outcome]

/-- Calls of git in order, each with what became of it. -/
abbrev History := List (Call × Outcome)

/-- The notes tell of these calls, in order, and nothing to those who watch. -/
structure Recounts (notes : List Note) (calls : History) : Prop where
  calls : gitCalls notes = calls
  events : events notes = []

section Telling
variable {notes : List Note} {call : Call} {outcome : Outcome}

theorem Tells.gitCalls (h : Tells notes call outcome) : gitCalls notes = [(call, outcome)] := by
  obtain ⟨place, rfl⟩ := h
  rfl

theorem Tells.events (h : Tells notes call outcome) : events notes = [] := by
  obtain ⟨place, rfl⟩ := h
  rfl

theorem Tells.recounts (h : Tells notes call outcome) : Recounts notes [(call, outcome)] :=
  ⟨h.gitCalls, h.events⟩

theorem Recounts.nil : Recounts [] [] := ⟨rfl, rfl⟩

theorem Recounts.append {first second : List Note} {before after : History}
    (h₁ : Recounts first before) (h₂ : Recounts second after) :
    Recounts (first ++ second) (before ++ after) := by
  constructor
  · rw [gitCalls_append, h₁.calls, h₂.calls]
  · rw [events_append, h₁.events, h₂.events]
    rfl

end Telling

variable {notes : List Note} {call : Call}

theorem yields_ask {r : Except Failure Reply} :
    (ask call).run.Yields notes r ↔
      ∃ outcome, Tells notes call outcome ∧ r = outcome.judge .ok := by
  unfold ask
  rw [Attempt.yields_bind]
  constructor
  · rintro (⟨e, h, -⟩ | ⟨outcome, first, second, h, hr, rfl⟩)
    · obtain ⟨_, -, h⟩ := Attempt.yields_lift.mp h
      cases h
    · obtain ⟨_, h, ⟨⟩⟩ := Attempt.yields_lift.mp h
      obtain ⟨place, rfl⟩ := Script.yields_callGit.mp h
      cases outcome <;> obtain ⟨rfl, rfl⟩ := hr <;> exact ⟨_, ⟨place, rfl⟩, rfl⟩
  · rintro ⟨outcome, ⟨place, rfl⟩, rfl⟩
    refine Or.inr ⟨outcome, [_], [], ?_, ?_, rfl⟩
    · exact Attempt.yields_lift.mpr ⟨_, Script.yields_callGit.mpr ⟨place, rfl⟩, rfl⟩
    · cases outcome <;> exact ⟨rfl, rfl⟩

/-- Asking git and then judging the answer, with no more calls. -/
theorem yields_ask_bind {α : Type} {f : Reply → Attempt Failure α} {g : Reply → Except Failure α}
    (hf : ∀ reply, f reply = Attempt.ofExcept (g reply)) {r : Except Failure α} :
    (ask call >>= f).run.Yields notes r ↔
      ∃ outcome, Tells notes call outcome ∧ r = outcome.judge g := by
  rw [Attempt.yields_bind]
  constructor
  · rintro (⟨e, h, rfl⟩ | ⟨reply, first, second, h, hr, rfl⟩) <;>
      obtain ⟨outcome, tells, h⟩ := yields_ask.mp h
    · cases outcome with
      | notStarted cause => exact ⟨_, tells, by cases h; rfl⟩
      | exited reply => cases h
    · cases outcome with
      | notStarted cause => cases h
      | exited reply =>
        cases h
        rw [hf] at hr
        obtain ⟨rfl, rfl⟩ := hr
        exact ⟨_, by simpa using tells, rfl⟩
  · rintro ⟨outcome, tells, rfl⟩
    cases outcome with
    | notStarted cause => exact Or.inl ⟨_, yields_ask.mpr ⟨_, tells, rfl⟩, rfl⟩
    | exited reply =>
      refine Or.inr ⟨reply, notes, [], yields_ask.mpr ⟨_, tells, rfl⟩, ?_, by simp⟩
      rw [hf]
      exact ⟨rfl, rfl⟩

/-- **Demanding success** and then judging the answer, with no more calls: the call failed and so
did the demand, or it ended well and the answer is judged. -/
theorem demand_cases {α : Type} {f : Reply → Attempt Failure α} {g : Reply → Except Failure α}
    (hf : ∀ reply, f reply = Attempt.ofExcept (g reply)) {r : Except Failure α}
    (h : (demand call >>= f).run.Yields notes r) :
    ∃ outcome, Tells notes call outcome ∧
      ((outcome.succeeded = false ∧ ∃ failure, r = .error failure) ∨
        ∃ reply, outcome = .exited reply ∧ reply.success = true ∧ r = g reply) := by
  -- Demanding and judging is asking and judging, where a failure is judged as one.
  unfold demand at h
  rw [bind_assoc] at h
  obtain ⟨outcome, tells, rfl⟩ := (yields_ask_bind (g := fun reply =>
    if reply.success then g reply else .error (.refused call.action.title reply.err)) (by
      intro reply
      split
      · rw [pure_bind, hf]
      · rfl)).mp h
  refine ⟨outcome, tells, ?_⟩
  cases outcome with
  | notStarted cause => exact Or.inl ⟨rfl, _, rfl⟩
  | exited reply =>
    cases hs : reply.success with
    | false => exact Or.inl ⟨hs, _, by simp only [Outcome.judge, hs]; rfl⟩
    | true => exact Or.inr ⟨reply, rfl, hs, by simp only [Outcome.judge, hs]; rfl⟩

/-- The commit that git names: what it printed, if it ended well and printed anything but blanks. -/
def Outcome.named? : Outcome → Option String
  | .exited reply => if reply.success ∧ reply.text ≠ "" then some reply.text else none
  | .notStarted _ => none

/-- Whether git found changes collected: its exit code, if that is 0 or 1. -/
def Outcome.changes? : Outcome → Option Bool
  | .exited reply =>
    if reply.code = 0 then some false else if reply.code = 1 then some true else none
  | .notStarted _ => none

/-- Looking up the commit that is checked out: git names one, or the lookup fails. -/
theorem headOf_cases {directory : String} {r : Except Failure String}
    (h : (headOf directory).run.Yields notes r) :
    ∃ outcome, Tells notes ⟨.head, directory, none⟩ outcome ∧
      ((outcome.named? = none ∧ ∃ failure, r = .error failure) ∨
        ∃ reply, outcome = .exited reply ∧ reply.success = true ∧ reply.text ≠ "" ∧
          r = .ok reply.text) := by
  obtain ⟨outcome, tells, hr⟩ := demand_cases (g := fun reply =>
    if reply.text = "" then .error .emptyHead else .ok reply.text) (by
      intro reply
      split <;> rfl) h
  refine ⟨outcome, tells, ?_⟩
  rcases hr with ⟨hs, failed⟩ | ⟨reply, rfl, hs, hr⟩
  · refine Or.inl ⟨?_, failed⟩
    cases outcome with
    | notStarted cause => rfl
    | exited reply =>
      have : reply.success = false := hs
      simp [Outcome.named?, this]
  · by_cases ht : reply.text = ""
    · exact Or.inl ⟨by simp [Outcome.named?, ht], _, hr.trans (if_pos ht)⟩
    · exact Or.inr ⟨reply, rfl, hs, ht, hr.trans (if_neg ht)⟩

end Git

namespace Repository
open Git (Failure Tells)

variable {notes : List Note} {repo : Repository}

theorem addAll_cases {r : Except Failure Unit} (h : repo.addAll.run.Yields notes r) :
    ∃ outcome, Tells notes (repo.call .addAll) outcome ∧
      ((outcome.succeeded = false ∧ ∃ failure, r = .error failure) ∨
        ∃ reply, outcome = .exited reply ∧ reply.success = true ∧ r = .ok ()) :=
  Git.demand_cases (fun _ => rfl) h

/-- Comparing index and commit: a code of 0 or 1 is an answer, any other a failure. -/
theorem hasChanges_cases {r : Except Failure Bool} (h : repo.hasChanges.run.Yields notes r) :
    ∃ outcome, Tells notes (repo.call .compareIndex) outcome ∧
      ((outcome.changes? = none ∧ ∃ failure, r = .error failure) ∨
        ∃ reply changes, outcome = .exited reply ∧ reply.code = (if changes then 1 else 0) ∧
          r = .ok changes) := by
  obtain ⟨outcome, tells, rfl⟩ := (Git.yields_ask_bind (g := fun reply =>
    if reply.code = 0 then .ok false else if reply.code = 1 then .ok true
    else .error (.refused Git.Action.compareIndex.title reply.err)) (by
      intro reply
      split
      · rfl
      · split <;> rfl)).mp h
  refine ⟨outcome, tells, ?_⟩
  cases outcome with
  | notStarted cause => exact Or.inl ⟨rfl, _, rfl⟩
  | exited reply =>
    by_cases h0 : reply.code = 0
    · exact Or.inr ⟨reply, false, rfl, h0, by simp [Git.Outcome.judge, h0]⟩
    · by_cases h1 : reply.code = 1
      · exact Or.inr ⟨reply, true, rfl, h1, by simp [Git.Outcome.judge, h1]⟩
      · exact Or.inl ⟨by simp [Git.Outcome.changes?, h0, h1], _, by
          simp only [Git.Outcome.judge, h0, h1]
          rfl⟩

/-- Looking up a local tag: it is there, or git ends with a failure, which counts as its absence. -/
theorem tagTarget_cases {tag : String} {r : Except Failure (Option String)}
    (h : (repo.tagTarget tag).run.Yields notes r) :
    ∃ outcome, Tells notes (repo.call (.tagTarget tag)) outcome ∧
      ((∃ cause, outcome = .notStarted cause ∧ r = .error (.notStarted cause)) ∨
        ∃ reply, outcome = .exited reply ∧
          r = .ok (if reply.success then some reply.text else none)) := by
  obtain ⟨outcome, tells, rfl⟩ := (Git.yields_ask_bind (g := fun reply =>
    .ok (if reply.success then some reply.text else none)) (fun _ => rfl)).mp h
  refine ⟨outcome, tells, ?_⟩
  cases outcome with
  | notStarted cause => exact Or.inl ⟨cause, rfl, rfl⟩
  | exited reply => exact Or.inr ⟨reply, rfl, rfl⟩

theorem isValidTagName_cases {tag : String} {r : Except Failure Bool}
    (h : (repo.isValidTagName tag).run.Yields notes r) :
    ∃ outcome, Tells notes (repo.call (.checkTagName tag)) outcome ∧
      ((∃ cause, outcome = .notStarted cause ∧ r = .error (.notStarted cause)) ∨
        ∃ reply, outcome = .exited reply ∧ r = .ok reply.success) := by
  obtain ⟨outcome, tells, rfl⟩ := (Git.yields_ask_bind (g := fun reply => .ok reply.success)
    (fun _ => rfl)).mp h
  refine ⟨outcome, tells, ?_⟩
  cases outcome with
  | notStarted cause => exact Or.inl ⟨cause, rfl, rfl⟩
  | exited reply => exact Or.inr ⟨reply, rfl, rfl⟩

theorem remoteHasTag_cases {tag : String} {c : Credential} {r : Except Failure Bool}
    (h : (repo.remoteHasTag tag c).run.Yields notes r) :
    ∃ outcome, Tells notes (repo.callWith c (.remoteTag tag)) outcome ∧
      ((outcome.succeeded = false ∧ ∃ failure, r = .error failure) ∨
        ∃ reply, outcome = .exited reply ∧ reply.success = true ∧
          r = .ok (!Text.isBlank (Text.ofUtf8Lossy reply.out))) :=
  Git.demand_cases (fun _ => rfl) h

theorem createTag_cases {tag : String} {who : Identity} {r : Except Failure Unit}
    (h : (repo.createTag tag who).run.Yields notes r) :
    ∃ outcome, Tells notes (repo.call (.createTag who tag)) outcome ∧
      ((outcome.succeeded = false ∧ ∃ failure, r = .error failure) ∨
        ∃ reply, outcome = .exited reply ∧ reply.success = true ∧ r = .ok ()) :=
  Git.demand_cases (fun _ => rfl) h

theorem undoCommit_cases {r : Except Failure Unit} (h : repo.undoCommit.run.Yields notes r) :
    ∃ outcome, Tells notes (repo.call .undoCommit) outcome := by
  obtain ⟨outcome, tells, -⟩ := Git.demand_cases (g := fun _ => .ok ()) (fun _ => rfl) h
  exact ⟨outcome, tells⟩

theorem push_cases {tag : String} {c : Credential} {r : Except Failure Unit}
    (h : (repo.push tag c).run.Yields notes r) :
    ∃ outcome, Tells notes (repo.callWith c (.push repo.branch tag)) outcome ∧
      ((outcome.succeeded = false ∧ ∃ failure, r = .error failure) ∨
        ∃ reply, outcome = .exited reply ∧ reply.success = true ∧ r = .ok ()) :=
  Git.demand_cases (fun _ => rfl) h

/-- Committing: git refuses, or the commit is made and then looked up, and the lookup may fail all
the same. -/
theorem commit_cases {text : String} {who : Identity} {r : Except Failure String}
    (h : (repo.commit text who).run.Yields notes r) :
    (∃ outcome, Tells notes (repo.call (.commit who text)) outcome ∧ outcome.succeeded = false ∧
        ∃ failure, r = .error failure) ∨
      ∃ first second reply outcome, notes = first ++ second ∧
        Tells first (repo.call (.commit who text)) (.exited reply) ∧ reply.success = true ∧
        Tells second (repo.call .head) outcome ∧
        ((outcome.named? = none ∧ ∃ failure, r = .error failure) ∨
          ∃ found, outcome = .exited found ∧ found.success = true ∧ found.text ≠ "" ∧
            r = .ok found.text) := by
  unfold commit at h
  rcases Attempt.yields_bind.mp h with ⟨e, made, rfl⟩ | ⟨_, first, second, made, named, rfl⟩ <;>
    rw [← bind_pure (Git.demand _)] at made <;>
    obtain ⟨outcome, tells, made⟩ := Git.demand_cases (g := .ok) (fun _ => rfl) made
  · rcases made with ⟨refused, -⟩ | ⟨_, -, -, ⟨⟩⟩
    exact Or.inl ⟨outcome, tells, refused, e, rfl⟩
  · rcases made with ⟨-, _, ⟨⟩⟩ | ⟨reply, rfl, hs, -⟩
    obtain ⟨found, tells', named⟩ := Git.headOf_cases named
    exact Or.inr ⟨first, second, reply, found, rfl, tells, hs, tells', named⟩

end Repository
end GatedRelease
