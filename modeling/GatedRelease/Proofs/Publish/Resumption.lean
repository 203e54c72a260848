import GatedRelease.Proofs.Publish.Effect

/-! # Why a call fails, and how a release is taken up again

With a lawful git a course of publishing never fails without a reason (`Reason`): it is in the clone
that was found, or git did not start, or it refused what it may refuse.

A release that an earlier attempt committed and tagged, but could not push, is left in the clone
(`Left`): the tag stands for `HEAD`.  Both ways to publish know it again.  Of all the reasons only a
few remain (`Hindrance`), and if there is none of them, the very commit that was left is pushed.
The clone itself is never what stands in the way, except that publishing, as against resuming, does
not pass over new changes.
-/
namespace GatedRelease.Publisher
open Git (History View Clone WorkTree)

section Reason
variable {σ T : Type} (g : View σ T) (p : Publisher) (tag : String) (c : Credential) (held : T)
  (k : Clone T) (calls : History)

/-- **A release is left in the clone**: the tag stands for the commit, and so does `HEAD`. -/
structure Left (commit : String) : Prop where
  takes : g.takes tag
  head : k.head = commit
  target : k.tags tag = some commit

/-- **What may stand in the way** of the push of a release that is left. -/
inductive Hindrance : Mode → PublishFailure → Prop
  /-- Git did not start. -/
  | unstarted {mode : Mode} {call : Git.Call} {cause : Cause} {step : PublishStep}
      {f : Git.Failure} : (call, .notStarted cause) ∈ calls → Hindrance mode (.git step f)
  | changes : held ≠ g.contents k.head → Hindrance .publish (.tagWithChanges tag)
  | remoteUnknown {mode : Mode} {outcome : Git.Outcome} {f : Git.Failure} :
      (p.repository.callWith c (.remoteTag tag), outcome) ∈ calls → outcome.succeeded = false →
      Hindrance mode (.remoteUnknown f)
  | tagOnRemote {mode : Mode} : p.settings.rejectExistingTag = true →
      k.remote.tags tag ≠ none → Hindrance mode (.tagOnRemote tag)
  | pushRefused {mode : Mode} {outcome : Git.Outcome} {f : Git.Failure} :
      (p.pushCall tag c, outcome) ∈ calls → outcome.succeeded = false →
      Hindrance mode (.push p.repository.branch tag f)

/-- **Why a course of publishing fails.** -/
inductive Reason : Mode → PublishFailure → Prop
  | hindrance {mode : Mode} {e : PublishFailure} :
      Hindrance g p tag c held k calls mode e → Reason mode e
  | badTagName {mode : Mode} : ¬ g.takes tag → Reason mode (.badTagName tag)
  | noTag : k.tags tag = none → Reason .resume (.noTag tag)
  | noChanges : k.tags tag = none → held = g.contents k.head → Reason .publish .noChanges
  /-- The tag is not at `HEAD`. -/
  | elsewhere {mode : Mode} {target : String} : k.tags tag = some target → target ≠ k.head →
      Reason mode (match mode with
        | .publish => .tagElsewhere tag target
        | .resume => .tagNotAtHead tag target)
  | commitRefused {outcome : Git.Outcome} {f : Git.Failure} : k.tags tag = none →
      (p.commitCall, outcome) ∈ calls → outcome.succeeded = false →
      Reason .publish (.git .commit f)
  | tagRefused {outcome : Git.Outcome} {f : Git.Failure} : k.tags tag = none →
      (p.tagCall tag, outcome) ∈ calls → outcome.succeeded = false → Reason .publish (.git .tag f)

end Reason

variable {σ T : Type} {g : View σ T} {p : Publisher} {tag : String} {c : Credential} {mode : Mode}
  {t : WorkTree T} {k after : Clone T} {calls : History}

/-! ## Reasons -/

/-- **Who halts has a reason.** -/
theorem Halted.reason {e : PublishFailure} (halted : Halted p tag c mode calls e)
    (h : g.Follows t k calls after) : Reason g p tag c t.holds k calls mode e := by
  -- Either a call did not start, or its answer tells of the clone, for git is lawful.
  cases halted with
  | nameUnasked => exact .hindrance (.unstarted List.mem_cons_self)
  | badTagName hn =>
    obtain ⟨-, -, _, ⟨-, valid⟩, -⟩ := h
    refine .badTagName fun takes => ?_
    rw [valid.mpr takes] at hn
    exact absurd hn (by decide)
  | @uncollected named outcome f hn ho =>
    cases outcome with
    | notStarted cause =>
      exact .hindrance (.unstarted (List.mem_cons_of_mem _ List.mem_cons_self))
    | exited added =>
      obtain ⟨-, -, _, -, -, -, _, ⟨good, -⟩, -⟩ := h
      exact absurd (good.symm.trans ho) (by decide)
  | @uncompared named added outcome f hn ha hc =>
    cases outcome with
    | notStarted cause =>
      exact .hindrance
        (.unstarted (List.mem_cons_of_mem _ (List.mem_cons_of_mem _ List.mem_cons_self)))
    | exited compared =>
      obtain ⟨-, -, _, -, -, -, _, -, -, -, _, ⟨-, ⟨code, -⟩ | ⟨code, -⟩⟩, -⟩ := h <;>
        simp [Git.Outcome.changes?, code] at hc
  | tagUnasked opened => exact .hindrance (.unstarted List.mem_concat_self)
  | noTag opened hl =>
    obtain ⟨middle, first, second⟩ := View.follows_append.mp h
    obtain ⟨-, index, rfl, -⟩ := opened.follows first
    obtain ⟨-, -, _, ⟨-, target⟩, -⟩ := second
    rw [hl, if_neg Bool.false_ne_true] at target
    exact .noTag target.symm
  | @headUnnamed _ changes opening looked outcome f opened hl ho =>
    rw [← List.singleton_append, ← List.append_assoc] at h
    obtain ⟨middle, -, last⟩ := View.follows_append.mp h
    obtain ⟨cause, rfl⟩ := unstarted_of_unnamed last ho
    exact .hindrance
      (.unstarted (List.mem_append_right _ (List.mem_cons_of_mem _ List.mem_cons_self)))
  | elsewhere opened hl hf hne he =>
    obtain ⟨middle, first, second⟩ := View.follows_append.mp h
    obtain ⟨-, index, rfl, -⟩ := opened.follows first
    obtain ⟨-, -, _, ⟨rfl, target⟩, -, -, _, ⟨-, -, text, -⟩, -⟩ := second
    rw [hl, if_pos rfl] at target
    rw [text] at he
    exact .elsewhere target.symm he
  | tagWithChanges opened hl hf hne he =>
    obtain ⟨middle, first, -⟩ := View.follows_append.mp h
    obtain ⟨-, index, rfl, collected⟩ := opened.follows first
    exact .hindrance (.changes ((collected rfl).2.mp rfl))
  | remoteUnknown located hs ho => exact .hindrance (.remoteUnknown List.mem_concat_self ho)
  | @tagOnRemote _ prospect early reply located hs hq hb =>
    obtain ⟨middle, first, second⟩ := View.follows_append.mp h
    obtain ⟨index, rfl⟩ := kept_of_preliminary (located.mem_preliminary (c := c)) first
    obtain ⟨-, -, _, ⟨-, told⟩, -⟩ := second
    refine .hindrance (.tagOnRemote hs fun absent => ?_)
    rw [(told hq).mpr absent] at hb
    exact absurd hb (by decide)
  | noChanges located clear =>
    cases located with
    | nothing opened hl =>
      rw [List.append_assoc] at h
      obtain ⟨middle, first, second⟩ := View.follows_append.mp h
      obtain ⟨-, index, rfl, collected⟩ := opened.follows first
      obtain ⟨-, -, _, ⟨-, target⟩, -⟩ := second
      rw [hl, if_neg Bool.false_ne_true] at target
      refine .noChanges target.symm ?_
      by_contra differs
      exact absurd ((collected rfl).2.mpr differs) (by decide)
  | headLost located clear ho =>
    obtain ⟨middle, -, last⟩ := View.follows_append.mp h
    obtain ⟨cause, rfl⟩ := unstarted_of_unnamed last ho
    exact .hindrance (.unstarted List.mem_concat_self)

/-- **Every failure has a reason.** -/
theorem Course.reason {told : List Event} {e : PublishFailure}
    (course : Course p tag c mode calls told (.error e)) (h : g.Follows t k calls after) :
    Reason g p tag c t.holds k calls mode e := by
  cases course with
  | halted halted => exact halted.reason h
  | commitRefused ready ho =>
    obtain ⟨middle, first, -⟩ := View.follows_append.mp h
    obtain ⟨-, -, missing, -, -⟩ := ready.follows first
    exact .commitRefused missing List.mem_concat_self ho
  | commitUnnamed _ _ unnamed => exact absurd unnamed (named_of_follows h)
  | tagRefused ready _ _ _ ho =>
    obtain ⟨middle, first, -⟩ := View.follows_append.mp h
    obtain ⟨-, -, missing, -, -⟩ := ready.follows first
    exact .tagRefused missing (by simp) ho
  | pushRefused approach ho => exact .hindrance (.pushRefused List.mem_concat_self ho)

/-! ## A release that is left -/

/-- No reason lies in a clone that a release is left in, but for new changes. -/
theorem Reason.hindrance_of_left {held : T} {e : PublishFailure}
    (reason : Reason g p tag c held k calls mode e) (left : Left g tag k k.head) :
    Hindrance g p tag c held k calls mode e := by
  obtain ⟨takes, -, there⟩ := left
  -- The tag is there, and it stands for `HEAD`.
  have absurd_of_missing {P : Prop} (missing : k.tags tag = none) : P := by
    rw [there] at missing
    cases missing
  cases reason with
  | hindrance hindrance => exact hindrance
  | badTagName refused => exact absurd takes refused
  | noTag missing | noChanges missing _ | commitRefused missing _ _ | tagRefused missing _ _ =>
    exact absurd_of_missing missing
  | elsewhere target differs =>
    rw [there] at target
    exact absurd (Option.some.inj target).symm differs

/-- **A release that is left is pushed**, in either way to publish, or something stands in the
way. -/
theorem Course.resumes {told : List Event} {r : Except PublishFailure Published}
    (course : Course p tag c mode calls told r) (h : g.Follows t k calls after)
    (left : Left g tag k k.head) :
    r = .ok ⟨tag, k.head, p.repository.branch, true⟩ ∨
      ∃ e, r = .error e ∧ Hindrance g p tag c t.holds k calls mode e := by
  cases r with
  | error e => exact Or.inr ⟨e, rfl, (course.reason h).hindrance_of_left left⟩
  | ok x =>
    cases course.effect h with
    | published poised _ =>
      -- No release is made where one is left, so that it is the one that was found.
      cases poised with
      | fresh _ missing _ _ _ =>
        rw [left.target] at missing
        cases missing
      | found _ _ _ => exact Or.inl rfl

end GatedRelease.Publisher
