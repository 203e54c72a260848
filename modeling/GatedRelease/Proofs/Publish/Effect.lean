import GatedRelease.Proofs.Git.Clone
import GatedRelease.Proofs.Publish.Course

/-! # What publishing does to a clone

With a lawful git a course of publishing does one of three things (`Effect`): nothing but collect
changes; a release that is there but not pushed; or a release that is there and pushed.  The release
is there (`Poised`) if the tag stands for `HEAD`, either because this course committed and tagged,
or because an earlier one did.  Between the two stands the commit whose tag was refused: it is taken
back, and git does not refuse that, for a commit that was made has a parent.
-/
namespace GatedRelease.Publisher
open Git (History View Clone WorkTree)

section Effect
variable {σ T : Type} (g : View σ T) (p : Publisher) (tag : String) (held : T) (k : Clone T)

/-- **A release is there to be pushed**, in the clone that has become of `k`. -/
inductive Poised : Mode → Clone T → Bool → Prop
  /-- What the work tree held was committed and tagged. -/
  | fresh {commit : String} : g.takes tag → k.tags tag = none → held ≠ g.contents k.head →
      g.parent commit = some k.head → g.contents commit = held →
      Poised .publish
        ⟨commit, held, Function.update k.tags tag (some commit), k.remote⟩ false
  /-- The tag stands for `HEAD` already; publishing has nothing to commit. -/
  | found {mode : Mode} {index : T} : g.takes tag → k.tags tag = some k.head →
      (mode = .publish → held = g.contents k.head) → Poised mode { k with index := index } true

/-- **What publishing does to a clone**, and with which result. -/
inductive Effect : Mode → Clone T → Except PublishFailure Published → Prop
  | kept {mode : Mode} {index : T} {e : PublishFailure} :
      (∀ branch tag f, e ≠ .push branch tag f) → Effect mode { k with index := index } (.error e)
  | unpushed {mode : Mode} {m : Clone T} {resumed : Bool} {f : Git.Failure} :
      Poised g tag held k mode m resumed →
      Effect mode m (.error (.push p.repository.branch tag f))
  | published {mode : Mode} {m : Clone T} {resumed : Bool} :
      Poised g tag held k mode m resumed →
      (p.settings.rejectExistingTag = true → k.remote.tags tag = none) →
      Effect mode { m with remote := m.remote.receive p.repository.branch m.head tag m.head }
        (.ok ⟨tag, m.head, p.repository.branch, resumed⟩)

end Effect

variable {σ T : Type} {g : View σ T} {p : Publisher} {tag : String} {c : Credential} {mode : Mode}
  {t : WorkTree T} {k after : Clone T} {calls : History}

/-! ## Looking changes nothing -/

/-- A call that only looks, or collects the changes, leaves all but the index. -/
theorem kept_of_answers {call : Git.Call} (hc : call ∈ p.preliminary tag c mode) {reply : Git.Reply}
    (h : g.Answers t.holds call.action k reply after) :
    ∃ index, after = { k with index := index } := by
  have same (hk : after = k) : ∃ index, after = { k with index := index } := ⟨k.index, hk⟩
  cases mode <;> simp only [preliminary, List.mem_cons, List.not_mem_nil, or_false] at hc
  · rcases hc with rfl | rfl | rfl | rfl | rfl | rfl
    · exact same h.1
    · exact ⟨t.holds, h.2⟩
    · exact same h.1
    · exact same h.1
    · exact same h.1
    · exact same h.1
  · rcases hc with rfl | rfl | rfl | rfl <;> exact same h.1

theorem kept_of_preliminary (hc : ∀ x ∈ calls, x.1 ∈ p.preliminary tag c mode)
    (h : g.Follows t k calls after) : ∃ index, after = { k with index := index } := by
  induction calls generalizing k with
  | nil => exact ⟨k.index, h⟩
  | cons x rest ih =>
    obtain ⟨call, outcome⟩ := x
    obtain ⟨hx, hr⟩ := List.forall_mem_cons.mp hc
    cases outcome with
    | notStarted cause => exact ih hr h.2
    | exited reply =>
      obtain ⟨-, -, next, ha, later⟩ := h
      obtain ⟨_, rfl⟩ := kept_of_answers hx ha
      obtain ⟨index, rfl⟩ := ih hr later
      exact ⟨index, rfl⟩

/-! ## What a lawful git lets a publisher find -/

/-- The changes that a publisher sees are there: the work tree is not what `HEAD` holds. -/
theorem Opened.follows {changes : Bool} (opened : Opened p tag mode changes calls)
    (h : g.Follows t k calls after) :
    g.takes tag ∧ ∃ index, after = { k with index := index } ∧ (mode = .publish →
      index = t.holds ∧ (changes = true ↔ t.holds ≠ g.contents k.head)) := by
  cases opened with
  | @publish named added compared _ hn ha hc =>
    obtain ⟨-, -, _, ⟨rfl, valid⟩, -, -, _, ⟨-, rfl⟩, -, -, _, ⟨rfl, differs⟩, rfl⟩ := h
    refine ⟨valid.mp hn, t.holds, rfl, fun _ => ⟨rfl, ?_⟩⟩
    rcases differs with ⟨h0, same⟩ | ⟨h1, different⟩
    · cases changes with
      | false => simpa using same
      | true => exact absurd (h0.symm.trans hc) (by decide)
    · cases changes with
      | false => exact absurd (h1.symm.trans hc) (by decide)
      | true => simpa using different
  | @resume named hn =>
    obtain ⟨-, -, _, ⟨rfl, valid⟩, rfl⟩ := h
    exact ⟨valid.mp hn, _, rfl, nofun⟩

/-- Changes are found where the tag is missing and the work tree is not what `HEAD` holds. -/
theorem Located.follows_changes (located : Located p tag mode .changes calls)
    (h : g.Follows t k calls after) :
    g.takes tag ∧ after = { k with index := t.holds } ∧ k.tags tag = none ∧
      t.holds ≠ g.contents k.head := by
  cases located with
  | @changes opening looked opened hl =>
    obtain ⟨middle, first, second⟩ := View.follows_append.mp h
    obtain ⟨takes, index, rfl, collected⟩ := opened.follows first
    obtain ⟨rfl, differs⟩ := collected rfl
    obtain ⟨-, -, _, ⟨rfl, target⟩, rfl⟩ := second
    rw [hl, if_neg Bool.false_ne_true] at target
    exact ⟨takes, rfl, target.symm, differs.mp rfl⟩

/-- The tag that is found at `HEAD` is there. -/
theorem Located.follows_release {sha : String} (located : Located p tag mode (.release sha) calls)
    (h : g.Follows t k calls after) :
    g.takes tag ∧ sha = k.head ∧ k.tags tag = some k.head ∧
      (mode = .publish → t.holds = g.contents k.head) ∧
      ∃ index, after = { k with index := index } := by
  cases located with
  | @release _ opening looked found opened hl hf hne he =>
    obtain ⟨middle, first, second⟩ := View.follows_append.mp h
    obtain ⟨takes, index, rfl, collected⟩ := opened.follows first
    obtain ⟨-, -, _, ⟨rfl, target⟩, -, -, _, ⟨rfl, -, text, -⟩, rfl⟩ := second
    -- Git printed the same hash twice: the one of the tag, and the one of `HEAD`.
    rw [hl, if_pos rfl, he, text] at target
    refine ⟨takes, text, target.symm, fun hm => ?_, index, rfl⟩
    obtain ⟨-, differs⟩ := collected hm
    by_contra different
    exact absurd (differs.mpr different) (by decide)

/-- A remote that was found clear does not have the tag. -/
theorem RemoteClear.follows (clear : RemoteClear p tag c calls) (h : g.Follows t k calls after) :
    after = k ∧ (p.settings.rejectExistingTag = true → k.remote.tags tag = none) := by
  cases clear with
  | unasked hs =>
    rw [hs]
    exact ⟨h, nofun⟩
  | absent hs hq hb =>
    obtain ⟨-, -, _, ⟨rfl, told⟩, rfl⟩ := h
    exact ⟨rfl, fun _ => (told hq).mp hb⟩

/-- A release may be committed where the tag is missing and the work tree is not what `HEAD`
holds. -/
theorem Ready.follows (ready : Ready p tag c calls) (h : g.Follows t k calls after) :
    g.takes tag ∧ after = { k with index := t.holds } ∧ k.tags tag = none ∧
      t.holds ≠ g.contents k.head ∧
      (p.settings.rejectExistingTag = true → k.remote.tags tag = none) := by
  obtain ⟨located, clear⟩ := ready
  obtain ⟨middle, first, second⟩ := View.follows_append.mp h
  obtain ⟨takes, rfl, missing, differs⟩ := located.follows_changes first
  obtain ⟨rfl, absent⟩ := clear.follows second
  exact ⟨takes, rfl, missing, differs, absent⟩

/-! ## What is done -/

/-- **Before a push a release is there**, and the commit to be reported is `HEAD`. -/
theorem Approach.follows {before : History} {sha : String} {resumed : Bool}
    (approach : Approach p tag c mode before sha resumed) (h : g.Follows t k before after) :
    Poised g tag t.holds k mode after resumed ∧ sha = after.head ∧
      (p.settings.rejectExistingTag = true → k.remote.tags tag = none) := by
  cases approach with
  | @fresh early made found tagged ready hm hf hne ht =>
    obtain ⟨middle, first, second⟩ := View.follows_append.mp h
    obtain ⟨takes, rfl, missing, differs, absent⟩ := ready.follows first
    obtain ⟨-, -, _, committed, -, -, _, ⟨rfl, -, text, -⟩, -, -, _, named, rfl⟩ := second
    rcases committed with ⟨refused, -⟩ | ⟨-, commit, parent, contents, rfl⟩
    · rw [hm] at refused
      exact absurd refused (by decide)
    rcases named with ⟨refused, -⟩ | ⟨-, -, rfl⟩
    · rw [ht] at refused
      exact absurd refused (by decide)
    exact ⟨.fresh takes missing differs parent contents, text, absent⟩
  | @found sha early remote again located clear hs hne =>
    obtain ⟨middle, first, second⟩ := View.follows_append.mp h
    obtain ⟨between, start, asked⟩ := View.follows_append.mp first
    obtain ⟨takes, -, there, same, index, rfl⟩ := located.follows_release start
    obtain ⟨rfl, absent⟩ := clear.follows asked
    obtain ⟨-, -, _, ⟨rfl, -, text, -⟩, rfl⟩ := second
    exact ⟨.found takes there same, text, absent⟩
  | @left _ early remote located clear =>
    obtain ⟨between, start, asked⟩ := View.follows_append.mp h
    obtain ⟨takes, rfl, there, same, index, rfl⟩ := located.follows_release start
    obtain ⟨rfl, absent⟩ := clear.follows asked
    exact ⟨.found takes there same, rfl, absent⟩

/-- The tag of a release that is there stands for `HEAD`. -/
theorem Poised.tag_head {m : Clone T} {resumed : Bool} {held : T}
    (h : Poised g tag held k mode m resumed) : m.tags tag = some m.head := by
  cases h with
  | fresh _ _ _ _ _ => exact Function.update_self ..
  | found _ there _ => exact there

/-- Where git started to commit, it starts to name the commit and to take it back. -/
theorem holdsNul_of_commitCall (h : p.commitCall.holdsNul = false) :
    (p.repository.call .head).holdsNul = false ∧
      (p.repository.call .undoCommit).holdsNul = false := by
  have whole (action : Git.Action) : (p.repository.call action).holdsNul =
      (p.repository.checkout.toList.contains (Char.ofNat 0) ||
        action.arguments.any (·.toList.contains (Char.ofNat 0))) := rfl
  have place : p.repository.checkout.toList.contains (Char.ofNat 0) = false := by
    rw [commitCall, whole] at h
    exact (Bool.or_eq_false_iff.mp h).1
  rw [whole, whole, place]
  decide +kernel

/-- **A tag that is refused leaves no commit**: it is taken back. -/
theorem undone_of_follows {before : History} {made found : Git.Reply} {outcome u : Git.Outcome}
    (ready : Ready p tag c before) (hm : made.success = true) (ho : outcome.succeeded = false)
    (h : g.Follows t k (before ++ [(p.commitCall, .exited made),
      (p.repository.call .head, .exited found), (p.tagCall tag, outcome),
      (p.repository.call .undoCommit, u)]) after) : after = { k with index := t.holds } := by
  obtain ⟨middle, first, second⟩ := View.follows_append.mp h
  obtain ⟨-, rfl, -, -, -⟩ := ready.follows first
  -- `there` and `clean` are why the commit started, and so will the last call be started.
  obtain ⟨there, clean, _, committed, -, -, _, ⟨rfl, -⟩, rest⟩ := second
  rcases committed with ⟨refused, -⟩ | ⟨-, commit, parent, -, rfl⟩
  · rw [hm] at refused
    exact absurd refused (by decide)
  change g.Follows t _ ([(p.tagCall tag, outcome)] ++ [(p.repository.call .undoCommit, u)]) after
    at rest
  obtain ⟨_, tagged, undone⟩ := View.follows_append.mp rest
  obtain rfl := tagged.eq_of_failed rfl ho
  cases u with
  | notStarted cause =>
    rcases undone.1 with gone | dirty
    · rw [there] at gone
      exact absurd gone (by decide)
    · rw [(holdsNul_of_commitCall clean).2] at dirty
      exact absurd dirty (by decide)
  | exited reply =>
    -- The commit was made on top of `HEAD`, so that there is a parent to go back to.
    obtain ⟨-, -, _, ha, rfl⟩ := undone
    simp only [Repository.call, View.Answers, parent] at ha
    exact ha.2

/-- Git names the commit that is checked out, if it starts. -/
theorem unstarted_of_unnamed {outcome : Git.Outcome}
    (h : g.Follows t k [(p.repository.call .head, outcome)] after)
    (unnamed : outcome.named? = none) : ∃ cause, outcome = .notStarted cause := by
  cases outcome with
  | notStarted cause => exact ⟨cause, rfl⟩
  | exited reply =>
    obtain ⟨-, -, _, ⟨-, hs, text, hne⟩, -⟩ := h
    rw [← text] at hne
    simp [Git.Outcome.named?, hs, hne] at unnamed

/-- A commit that was made is named when git is asked. -/
theorem named_of_follows {before : History} {made : Git.Reply} {outcome : Git.Outcome}
    (h : g.Follows t k (before ++ [(p.commitCall, .exited made),
      (p.repository.call .head, outcome)]) after) : outcome.named? ≠ none := by
  intro unnamed
  obtain ⟨middle, -, there, clean, commit, -, named⟩ := View.follows_append.mp h
  obtain ⟨cause, rfl⟩ := unstarted_of_unnamed named unnamed
  rcases named.1 with gone | dirty
  · rw [there] at gone
    exact absurd gone (by decide)
  · rw [(holdsNul_of_commitCall clean).1] at dirty
    exact absurd dirty (by decide)

theorem Halted.ne_push {e : PublishFailure} (halted : Halted p tag c mode calls e) :
    ∀ branch name f, e ≠ .push branch name f := by
  intro branch name f
  cases halted with
  | elsewhere _ _ _ _ _ => cases mode <;> exact PublishFailure.noConfusion
  | _ => exact PublishFailure.noConfusion

/-- **Every course has one of the effects.** -/
theorem Course.effect {told : List Event} {r : Except PublishFailure Published}
    (course : Course p tag c mode calls told r) (h : g.Follows t k calls after) :
    Effect g p tag t.holds k mode after r := by
  cases course with
  | halted halted =>
    obtain ⟨index, rfl⟩ := kept_of_preliminary halted.mem_preliminary h
    exact .kept halted.ne_push
  | commitRefused ready ho =>
    obtain ⟨middle, first, second⟩ := View.follows_append.mp h
    obtain ⟨-, rfl, -, -, -⟩ := ready.follows first
    obtain rfl := second.eq_of_failed rfl ho
    exact .kept (by simp)
  | commitUnnamed _ _ unnamed => exact absurd unnamed (named_of_follows h)
  | tagRefused ready hm _ _ ho =>
    rw [undone_of_follows ready hm ho h]
    exact .kept (by simp)
  | pushRefused approach ho =>
    obtain ⟨middle, first, second⟩ := View.follows_append.mp h
    obtain ⟨poised, -, -⟩ := approach.follows first
    obtain rfl := second.eq_of_failed rfl ho
    exact .unpushed poised
  | published approach hs =>
    obtain ⟨middle, first, -, -, _, pushed, rfl⟩ := View.follows_append.mp h
    obtain ⟨poised, rfl, absent⟩ := approach.follows first
    rcases pushed with ⟨refused, -⟩ | ⟨-, target, found, rfl⟩
    · rw [hs] at refused
      exact absurd refused (by decide)
    -- The tag that was pushed stands for `HEAD`, which was pushed along with it.
    rw [poised.tag_head] at found
    obtain rfl := Option.some.inj found
    exact .published poised absent

end GatedRelease.Publisher
