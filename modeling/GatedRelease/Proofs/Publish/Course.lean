import GatedRelease.Proofs.Git.Ways
import GatedRelease.Publish

/-! # The courses that publishing can take

`Publisher.publishWith` and `Publisher.resumeWith` mix ten kinds of git calls with branches on what
git answers.  This module says once and for all how a call of either can go (`Course`): it halts
before it has changed anything but the index (`Halted`), at a commit or a tag that git refuses, or
at the push.  The calls are given in full, each with what git answered, so that what is to be known
of a course can be read off it: a push follows upon a commit and a tag of its own, or upon a tag
that was found at `HEAD` (`Approach`), and upon nothing else.

That these are all the courses (`course_of_yields`) holds for every git, with answers that need
not fit together.
-/
namespace GatedRelease

/-- The two ways to publish with a credential. -/
inductive Publisher.Mode
  /-- What the checkout holds is committed and tagged, unless an earlier attempt did so. -/
  | publish
  /-- Only what an earlier attempt left is pushed. -/
  | resume
deriving DecidableEq

namespace Publisher
open Git (Tells Recounts History)

/-- Publishes in one of the two ways. -/
def enter (p : Publisher) (mode : Mode) (tag : String) (c : Credential) :
    Attempt PublishFailure Published :=
  match mode with
  | .publish => p.publishWith tag c
  | .resume => p.resumeWith tag c

/-- What there is to publish. -/
inductive Prospect
  | changes
  | nothing
  /-- A commit that an earlier attempt made and tagged. -/
  | release (sha : String)

section Course
variable (p : Publisher) (tag : String) (c : Credential)

/-- The calls that a publisher may make before it changes anything but the index. -/
def preliminary : Mode → List Git.Call
  | .publish => [p.repository.call (.checkTagName tag), p.repository.call .addAll,
      p.repository.call .compareIndex, p.repository.call (.tagTarget tag), p.repository.call .head,
      p.repository.callWith c (.remoteTag tag)]
  | .resume => [p.repository.call (.checkTagName tag), p.repository.call (.tagTarget tag),
      p.repository.call .head, p.repository.callWith c (.remoteTag tag)]

/-- Git takes the name; and whether there are changes, which only publishing collects. -/
inductive Opened : Mode → Bool → History → Prop
  | publish {named added compared : Git.Reply} {changes : Bool} :
      named.success = true → added.success = true → compared.code = (if changes then 1 else 0) →
      Opened .publish changes [(p.repository.call (.checkTagName tag), .exited named),
        (p.repository.call .addAll, .exited added),
        (p.repository.call .compareIndex, .exited compared)]
  | resume {named : Git.Reply} : named.success = true →
      Opened .resume false [(p.repository.call (.checkTagName tag), .exited named)]

/-- **What was found in the checkout.** -/
inductive Located : Mode → Prospect → History → Prop
  | changes {opening : History} {looked : Git.Reply} :
      Opened p tag .publish true opening → looked.success = false →
      Located .publish .changes (opening ++ [(p.repository.call (.tagTarget tag), .exited looked)])
  | nothing {opening : History} {looked : Git.Reply} :
      Opened p tag .publish false opening → looked.success = false →
      Located .publish .nothing (opening ++ [(p.repository.call (.tagTarget tag), .exited looked)])
  /-- The tag was found at `HEAD`; publishing found no changes beside it. -/
  | release {mode : Mode} {opening : History} {looked found : Git.Reply} :
      Opened p tag mode false opening → looked.success = true → found.success = true →
      found.text ≠ "" → looked.text = found.text →
      Located mode (.release found.text) (opening ++
        [(p.repository.call (.tagTarget tag), .exited looked),
          (p.repository.call .head, .exited found)])

/-- The remote was found not to have the tag, or need not be asked. -/
inductive RemoteClear : History → Prop
  | unasked : p.settings.rejectExistingTag = false → RemoteClear []
  | absent {reply : Git.Reply} : p.settings.rejectExistingTag = true → reply.success = true →
      Text.isBlank (Text.ofUtf8Lossy reply.out) = true →
      RemoteClear [(p.repository.callWith c (.remoteTag tag), .exited reply)]

/-- **How publishing can halt** before it has changed anything but the index. -/
inductive Halted : Mode → History → PublishFailure → Prop
  | nameUnasked {mode : Mode} {cause : Cause} :
      Halted mode [(p.repository.call (.checkTagName tag), .notStarted cause)]
        (.git .tag (.notStarted cause))
  | badTagName {mode : Mode} {named : Git.Reply} : named.success = false →
      Halted mode [(p.repository.call (.checkTagName tag), .exited named)] (.badTagName tag)
  | uncollected {named : Git.Reply} {outcome : Git.Outcome} {f : Git.Failure} :
      named.success = true → outcome.succeeded = false →
      Halted .publish [(p.repository.call (.checkTagName tag), .exited named),
        (p.repository.call .addAll, outcome)] (.git .commit f)
  | uncompared {named added : Git.Reply} {outcome : Git.Outcome} {f : Git.Failure} :
      named.success = true → added.success = true → outcome.changes? = none →
      Halted .publish [(p.repository.call (.checkTagName tag), .exited named),
        (p.repository.call .addAll, .exited added), (p.repository.call .compareIndex, outcome)]
        (.git .commit f)
  | tagUnasked {mode : Mode} {changes : Bool} {opening : History} {cause : Cause} :
      Opened p tag mode changes opening →
      Halted mode (opening ++ [(p.repository.call (.tagTarget tag), .notStarted cause)])
        (.git .tag (.notStarted cause))
  | noTag {opening : History} {looked : Git.Reply} :
      Opened p tag .resume false opening → looked.success = false →
      Halted .resume (opening ++ [(p.repository.call (.tagTarget tag), .exited looked)])
        (.noTag tag)
  | headUnnamed {mode : Mode} {changes : Bool} {opening : History} {looked : Git.Reply}
      {outcome : Git.Outcome} {f : Git.Failure} :
      Opened p tag mode changes opening → looked.success = true → outcome.named? = none →
      Halted mode (opening ++ [(p.repository.call (.tagTarget tag), .exited looked),
        (p.repository.call .head, outcome)]) (.git .commit f)
  | elsewhere {mode : Mode} {changes : Bool} {opening : History} {looked found : Git.Reply} :
      Opened p tag mode changes opening → looked.success = true → found.success = true →
      found.text ≠ "" → looked.text ≠ found.text →
      Halted mode (opening ++ [(p.repository.call (.tagTarget tag), .exited looked),
        (p.repository.call .head, .exited found)])
        (match mode with
          | .publish => .tagElsewhere tag looked.text
          | .resume => .tagNotAtHead tag looked.text)
  | tagWithChanges {opening : History} {looked found : Git.Reply} :
      Opened p tag .publish true opening → looked.success = true → found.success = true →
      found.text ≠ "" → looked.text = found.text →
      Halted .publish (opening ++ [(p.repository.call (.tagTarget tag), .exited looked),
        (p.repository.call .head, .exited found)]) (.tagWithChanges tag)
  | remoteUnknown {mode : Mode} {prospect : Prospect} {early : History} {outcome : Git.Outcome}
      {f : Git.Failure} :
      Located p tag mode prospect early → p.settings.rejectExistingTag = true →
      outcome.succeeded = false →
      Halted mode (early ++ [(p.repository.callWith c (.remoteTag tag), outcome)])
        (.remoteUnknown f)
  | tagOnRemote {mode : Mode} {prospect : Prospect} {early : History} {reply : Git.Reply} :
      Located p tag mode prospect early → p.settings.rejectExistingTag = true →
      reply.success = true → Text.isBlank (Text.ofUtf8Lossy reply.out) = false →
      Halted mode (early ++ [(p.repository.callWith c (.remoteTag tag), .exited reply)])
        (.tagOnRemote tag)
  | noChanges {early remote : History} :
      Located p tag .publish .nothing early → RemoteClear p tag c remote →
      Halted .publish (early ++ remote) .noChanges
  /-- The tag was found at `HEAD`, but git does not name the commit a second time. -/
  | headLost {sha : String} {early remote : History} {outcome : Git.Outcome} {f : Git.Failure} :
      Located p tag .publish (.release sha) early → RemoteClear p tag c remote →
      outcome.named? = none →
      Halted .publish (early ++ remote ++ [(p.repository.call .head, outcome)]) (.git .commit f)

/-- **A release of its own may be committed**: git takes the name, there are changes, and neither
side has the tag. -/
inductive Ready : History → Prop
  | intro {early remote : History} : Located p tag .publish .changes early →
      RemoteClear p tag c remote → Ready (early ++ remote)

/-- The call that commits. -/
def commitCall : Git.Call :=
  p.repository.call (.commit p.settings.identity p.settings.commitMessage)

/-- The call that tags. -/
def tagCall : Git.Call := p.repository.call (.createTag p.settings.identity tag)

/-- The call that pushes. -/
def pushCall : Git.Call := p.repository.callWith c (.push p.repository.branch tag)

/-- **The calls before a push**, the commit that is pushed, and whether it was found. -/
inductive Approach : Mode → History → String → Bool → Prop
  /-- A commit was made, named by git, and tagged. -/
  | fresh {before : History} {made found tagged : Git.Reply} :
      Ready p tag c before → made.success = true → found.success = true → found.text ≠ "" →
      tagged.success = true →
      Approach .publish (before ++ [(p.commitCall, .exited made),
        (p.repository.call .head, .exited found), (p.tagCall tag, .exited tagged)]) found.text false
  /-- There were no changes, and the tag was found at `HEAD`, which is looked up once more. -/
  | found {sha : String} {early remote : History} {again : Git.Reply} :
      Located p tag .publish (.release sha) early → RemoteClear p tag c remote →
      again.success = true → again.text ≠ "" →
      Approach .publish (early ++ remote ++ [(p.repository.call .head, .exited again)]) again.text
        true
  /-- The tag was found at `HEAD`, whatever changes there are. -/
  | left {sha : String} {early remote : History} :
      Located p tag .resume (.release sha) early → RemoteClear p tag c remote →
      Approach .resume (early ++ remote) sha true

/-- What those who watch are told before a push. -/
def announced (sha : String) (resumed : Bool) : List Event :=
  if resumed then [] else [.publishStep .commit sha, .publishStep .tag tag]

/-- **How publishing can go**: the calls of git, what those who watch are told, and the result. -/
inductive Course : Mode → History → List Event → Except PublishFailure Published → Prop
  | halted {mode : Mode} {calls : History} {e : PublishFailure} :
      Halted p tag c mode calls e → Course mode calls [] (.error e)
  | commitRefused {before : History} {outcome : Git.Outcome} {f : Git.Failure} :
      Ready p tag c before → outcome.succeeded = false →
      Course .publish (before ++ [(p.commitCall, outcome)]) [] (.error (.git .commit f))
  /-- The commit is made, but git does not say which it is. -/
  | commitUnnamed {before : History} {made : Git.Reply} {outcome : Git.Outcome}
      {f : Git.Failure} :
      Ready p tag c before → made.success = true → outcome.named? = none →
      Course .publish (before ++ [(p.commitCall, .exited made),
        (p.repository.call .head, outcome)]) [] (.error (.git .commit f))
  /-- The tag is refused, and the commit is to be taken back. -/
  | tagRefused {before : History} {made found : Git.Reply} {outcome u : Git.Outcome}
      {f : Git.Failure} :
      Ready p tag c before → made.success = true → found.success = true → found.text ≠ "" →
      outcome.succeeded = false →
      Course .publish (before ++ [(p.commitCall, .exited made),
        (p.repository.call .head, .exited found), (p.tagCall tag, outcome),
        (p.repository.call .undoCommit, u)]) [.publishStep .commit found.text]
        (.error (.git .tag f))
  | pushRefused {mode : Mode} {before : History} {sha : String} {resumed : Bool}
      {outcome : Git.Outcome} {f : Git.Failure} :
      Approach p tag c mode before sha resumed → outcome.succeeded = false →
      Course mode (before ++ [(p.pushCall tag c, outcome)]) (announced tag sha resumed)
        (.error (.push p.repository.branch tag f))
  | published {mode : Mode} {before : History} {sha : String} {resumed : Bool}
      {reply : Git.Reply} :
      Approach p tag c mode before sha resumed → reply.success = true →
      Course mode (before ++ [(p.pushCall tag c, .exited reply)])
        (announced tag sha resumed ++ [.publishStep .push tag])
        (.ok ⟨tag, sha, p.repository.branch, resumed⟩)

end Course

/-! ## The calls before anything is changed -/

section Preliminary
variable {p : Publisher} {tag : String} {c : Credential} {mode : Mode} {calls : History}

theorem Opened.mem_preliminary {changes : Bool} (h : Opened p tag mode changes calls) :
    ∀ x ∈ calls, x.1 ∈ p.preliminary tag c mode := by
  cases h <;> simp [preliminary]

/-- The tag and the commit that is checked out are looked up in both ways to publish. -/
theorem lookup_mem_preliminary (p : Publisher) (tag : String) (c : Credential) (mode : Mode) :
    p.repository.call (.tagTarget tag) ∈ p.preliminary tag c mode ∧
      p.repository.call .head ∈ p.preliminary tag c mode ∧
      p.repository.callWith c (.remoteTag tag) ∈ p.preliminary tag c mode := by
  cases mode <;> simp [preliminary]

theorem Located.mem_preliminary {prospect : Prospect} (h : Located p tag mode prospect calls) :
    ∀ x ∈ calls, x.1 ∈ p.preliminary tag c mode := by
  obtain ⟨hl, hh, -⟩ := lookup_mem_preliminary p tag c mode
  cases h with
  | changes opened _ | nothing opened _ | release opened _ _ _ _ =>
    exact List.forall_mem_append.mpr ⟨opened.mem_preliminary, by simp [hl, hh]⟩

theorem RemoteClear.mem_preliminary (h : RemoteClear p tag c calls) :
    ∀ x ∈ calls, x.1 ∈ p.preliminary tag c mode := by
  obtain ⟨-, -, hr⟩ := lookup_mem_preliminary p tag c mode
  cases h with
  | unasked _ => exact fun x hx => absurd hx List.not_mem_nil
  | absent _ _ _ => simpa using hr

theorem Located.append_mem_preliminary {prospect : Prospect} {early remote : History}
    (located : Located p tag mode prospect early) (clear : RemoteClear p tag c remote) :
    ∀ x ∈ early ++ remote, x.1 ∈ p.preliminary tag c mode :=
  List.forall_mem_append.mpr ⟨located.mem_preliminary, clear.mem_preliminary⟩

theorem Ready.mem_preliminary (h : Ready p tag c calls) :
    ∀ x ∈ calls, x.1 ∈ p.preliminary tag c .publish := by
  obtain ⟨located, clear⟩ := h
  exact located.append_mem_preliminary clear

/-- **Who halts has only looked**, and collected the changes. -/
theorem Halted.mem_preliminary {e : PublishFailure} (h : Halted p tag c mode calls e) :
    ∀ x ∈ calls, x.1 ∈ p.preliminary tag c mode := by
  obtain ⟨hl, hh, hr⟩ := lookup_mem_preliminary p tag c mode
  cases h with
  | nameUnasked | badTagName _ => cases mode <;> simp [preliminary]
  | uncollected _ _ | uncompared _ _ _ => simp [preliminary]
  | tagUnasked opened | noTag opened _ | headUnnamed opened _ _ | elsewhere opened _ _ _ _
  | tagWithChanges opened _ _ _ _ =>
    exact List.forall_mem_append.mpr ⟨opened.mem_preliminary, by simp [hl, hh]⟩
  | remoteUnknown located _ _ | tagOnRemote located _ _ _ =>
    exact List.forall_mem_append.mpr ⟨located.mem_preliminary, by simp [hr]⟩
  | noChanges located clear => exact located.append_mem_preliminary clear
  | headLost located clear _ =>
    exact List.forall_mem_append.mpr ⟨located.append_mem_preliminary clear, by simp [hh]⟩

end Preliminary

/-! ## The parts -/

section Parts
variable {p : Publisher} {tag : String} {c : Credential} {mode : Mode} {notes : List Note}

theorem checkTagName_cases (c : Credential) (mode : Mode) {r : Except PublishFailure Unit}
    (h : (p.checkTagName tag).run.Yields notes r) :
    ∃ outcome, Tells notes (p.repository.call (.checkTagName tag)) outcome ∧
      ((∃ e, r = .error e ∧
          Halted p tag c mode [(p.repository.call (.checkTagName tag), outcome)] e) ∨
        ∃ reply, outcome = .exited reply ∧ reply.success = true ∧ r = .ok ()) := by
  unfold checkTagName at h
  rcases Attempt.yields_orElseSay_bind.mp h with
    ⟨f, asked, rfl⟩ | ⟨valid, first, second, asked, hr, rfl⟩ <;>
    obtain ⟨outcome, tells, hv⟩ := Repository.isValidTagName_cases asked
  · rcases hv with ⟨cause, rfl, ⟨⟩⟩ | ⟨_, -, ⟨⟩⟩
    exact ⟨_, tells, Or.inl ⟨_, rfl, .nameUnasked⟩⟩
  · rcases hv with ⟨_, -, ⟨⟩⟩ | ⟨reply, rfl, ⟨⟩⟩
    cases hs : reply.success with
    | false =>
      rw [hs] at hr
      obtain ⟨rfl, rfl⟩ := hr
      exact ⟨_, by simpa using tells, Or.inl ⟨_, rfl, .badTagName hs⟩⟩
    | true =>
      rw [hs] at hr
      obtain ⟨rfl, rfl⟩ := hr
      exact ⟨_, by simpa using tells, Or.inr ⟨reply, rfl, hs, rfl⟩⟩

/-- The commit that is checked out, a failure being one of the commit step. -/
theorem head_cases {r : Except PublishFailure String} (h : p.head.run.Yields notes r) :
    ∃ outcome, Tells notes (p.repository.call .head) outcome ∧
      ((outcome.named? = none ∧ ∃ f, r = .error (.git .commit f)) ∨
        ∃ reply, outcome = .exited reply ∧ reply.success = true ∧ reply.text ≠ "" ∧
          r = .ok reply.text) := by
  rcases Attempt.yields_orElseSay.mp h with ⟨f, asked, rfl⟩ | ⟨sha, asked, rfl⟩ <;>
    obtain ⟨outcome, tells, named⟩ := Git.headOf_cases asked
  · rcases named with ⟨unnamed, -⟩ | ⟨_, -, -, -, ⟨⟩⟩
    exact ⟨outcome, tells, Or.inl ⟨unnamed, f, rfl⟩⟩
  · rcases named with ⟨-, _, ⟨⟩⟩ | ⟨reply, rfl, hs, ht, ho⟩
    obtain rfl := Except.ok.inj ho
    exact ⟨_, tells, Or.inr ⟨reply, rfl, hs, ht, rfl⟩⟩

/-- The prospect of a publisher that finds no local tag. -/
def Prospect.ofChanges (changes : Bool) : Prospect := if changes then .changes else .nothing

/-- Asking for the local tag: it ends publishing, or there is no tag, or the tag was found at `HEAD`
and nothing has changed. -/
theorem checkLocalTag_cases {changes : Bool} {opening : History} {r : Except PublishFailure Bool}
    (opened : Opened p tag .publish changes opening)
    (h : (p.checkLocalTag tag changes).run.Yields notes r) :
    ∃ calls, Recounts notes calls ∧
      ((∃ e, r = .error e ∧ Halted p tag c .publish (opening ++ calls) e) ∨
        r = .ok false ∧ Located p tag .publish (.ofChanges changes) (opening ++ calls) ∨
        ∃ sha, r = .ok true ∧ Located p tag .publish (.release sha) (opening ++ calls)) := by
  unfold checkLocalTag at h
  rcases Attempt.yields_orElseSay_bind.mp h with
    ⟨f, asked, rfl⟩ | ⟨target, first, rest, asked, hr, rfl⟩ <;>
    obtain ⟨outcome, tells, ht⟩ := Repository.tagTarget_cases asked
  · rcases ht with ⟨cause, rfl, ⟨⟩⟩ | ⟨_, -, ⟨⟩⟩
    exact ⟨_, tells.recounts, Or.inl ⟨_, rfl, .tagUnasked opened⟩⟩
  rcases ht with ⟨_, -, ⟨⟩⟩ | ⟨looked, rfl, ht⟩
  cases hs : looked.success with
  | false =>
    obtain rfl : target = none := by simpa [hs] using ht
    obtain ⟨rfl, rfl⟩ := hr
    refine ⟨_, tells.recounts.append .nil, Or.inr (Or.inl ⟨rfl, ?_⟩)⟩
    cases changes with
    | false => exact .nothing opened hs
    | true => exact .changes opened hs
  | true =>
    obtain rfl : target = some looked.text := by simpa [hs] using ht
    rcases Attempt.yields_bind.mp hr with ⟨e, hh, rfl⟩ | ⟨sha, second, third, hh, hr, rfl⟩ <;>
      obtain ⟨outcome, tells', hh⟩ := head_cases hh
    · rcases hh with ⟨unnamed, f, ⟨⟩⟩ | ⟨_, -, -, -, ⟨⟩⟩
      exact ⟨_, tells.recounts.append tells'.recounts,
        Or.inl ⟨_, rfl, .headUnnamed opened hs unnamed⟩⟩
    rcases hh with ⟨-, _, ⟨⟩⟩ | ⟨found, rfl, hf, hn, ho⟩
    obtain rfl := Except.ok.inj ho
    -- The tag is compared before the changes are, so that a tag elsewhere is reported first.
    have told := tells.recounts.append (tells'.recounts.append .nil)
    by_cases he : looked.text = found.text
    · cases changes with
      | true =>
        rw [if_neg (not_not_intro he), if_pos rfl] at hr
        obtain ⟨rfl, rfl⟩ := hr
        exact ⟨_, told, Or.inl ⟨_, rfl, .tagWithChanges opened hs hf hn he⟩⟩
      | false =>
        rw [if_neg (not_not_intro he), if_neg Bool.false_ne_true] at hr
        obtain ⟨rfl, rfl⟩ := hr
        exact ⟨_, told, Or.inr (Or.inr ⟨_, rfl, .release opened hs hf hn he⟩)⟩
    · rw [if_pos he] at hr
      obtain ⟨rfl, rfl⟩ := hr
      exact ⟨_, told, Or.inl ⟨_, rfl, .elsewhere opened hs hf hn he⟩⟩

/-- Asking the remote for the tag: it cannot be asked, or has the tag, or is clear. -/
theorem checkRemoteTag_cases {prospect : Prospect} {early : History}
    {r : Except PublishFailure Unit} (located : Located p tag mode prospect early)
    (h : (p.checkRemoteTag tag c).run.Yields notes r) :
    ∃ calls, Recounts notes calls ∧
      ((∃ e, r = .error e ∧ Halted p tag c mode (early ++ calls) e) ∨
        r = .ok () ∧ RemoteClear p tag c calls) := by
  unfold checkRemoteTag at h
  cases hs : p.settings.rejectExistingTag with
  | false =>
    rw [hs, if_neg Bool.false_ne_true] at h
    obtain ⟨rfl, rfl⟩ := h
    exact ⟨[], .nil, Or.inr ⟨rfl, .unasked hs⟩⟩
  | true =>
    rw [if_pos hs] at h
    rcases Attempt.yields_orElseSay_bind.mp h with
      ⟨f, asked, rfl⟩ | ⟨known, first, second, asked, hr, rfl⟩ <;>
      obtain ⟨outcome, tells, hk⟩ := Repository.remoteHasTag_cases asked
    · rcases hk with ⟨failed, -⟩ | ⟨_, -, -, ⟨⟩⟩
      exact ⟨_, tells.recounts, Or.inl ⟨_, rfl, .remoteUnknown located hs failed⟩⟩
    · rcases hk with ⟨-, _, ⟨⟩⟩ | ⟨reply, rfl, hq, ⟨⟩⟩
      cases hb : Text.isBlank (Text.ofUtf8Lossy reply.out) <;> rw [hb] at hr <;>
        obtain ⟨rfl, rfl⟩ := hr <;> refine ⟨_, tells.recounts.append .nil, ?_⟩
      · exact Or.inl ⟨_, rfl, .tagOnRemote located hs hq hb⟩
      · exact Or.inr ⟨rfl, .absent hs hq hb⟩

/-- The push: git refuses it, or it is made and told. -/
theorem push_cases {r : Except PublishFailure Unit} (h : (p.push tag c).run.Yields notes r) :
    ∃ outcome, gitCalls notes = [(p.pushCall tag c, outcome)] ∧
      ((∃ f, outcome.succeeded = false ∧ events notes = [] ∧
          r = .error (.push p.repository.branch tag f)) ∨
        ∃ reply, outcome = .exited reply ∧ reply.success = true ∧
          events notes = [.publishStep .push tag] ∧ r = .ok ()) := by
  unfold push at h
  rcases Attempt.yields_orElseSay_bind.mp h with
    ⟨f, sent, rfl⟩ | ⟨_, first, second, sent, told, rfl⟩ <;>
    obtain ⟨outcome, tells, hs⟩ := Repository.push_cases sent
  · rcases hs with ⟨refused, -⟩ | ⟨_, -, -, ⟨⟩⟩
    exact ⟨outcome, tells.gitCalls, Or.inl ⟨f, refused, tells.events, rfl⟩⟩
  · rcases hs with ⟨-, _, ⟨⟩⟩ | ⟨reply, rfl, hs, -⟩
    obtain ⟨_, said, rfl⟩ := Attempt.yields_lift.mp told
    rw [Script.yields_record.mp said]
    refine ⟨_, ?_, Or.inr ⟨reply, rfl, hs, ?_, rfl⟩⟩
    · rw [gitCalls_append, tells.gitCalls]
      rfl
    · rw [events_append, tells.events]
      rfl

/-- Committing and tagging a release that may be committed. -/
theorem commitAndTag_cases {r : Except PublishFailure String} {before : History}
    (ready : Ready p tag c before) (h : (p.commitAndTag tag).run.Yields notes r) :
    (∃ e, r = .error e ∧
        Course p tag c .publish (before ++ gitCalls notes) (events notes) (.error e)) ∨
      ∃ sha, r = .ok sha ∧ Approach p tag c .publish (before ++ gitCalls notes) sha false ∧
        events notes = announced tag sha false := by
  unfold commitAndTag at h
  rcases Attempt.yields_orElseSay_bind.mp h with ⟨f, made, rfl⟩ | ⟨sha, notes₁, rest, made, hr, rfl⟩
  · refine Or.inl ⟨_, rfl, ?_⟩
    rcases Repository.commit_cases made with
      ⟨outcome, tells₁, refused, -⟩ | ⟨first, second, reply, outcome, rfl, tells₁, hs, tells₂, hn⟩
    · rw [tells₁.gitCalls, tells₁.events]
      exact .commitRefused ready refused
    · rcases hn with ⟨unnamed, -⟩ | ⟨_, -, -, -, ⟨⟩⟩
      rw [gitCalls_append, events_append, tells₁.gitCalls, tells₂.gitCalls, tells₁.events,
        tells₂.events]
      exact .commitUnnamed ready hs unnamed
  rcases Repository.commit_cases made with
    ⟨_, -, -, _, ⟨⟩⟩ | ⟨first, second, reply, outcome, rfl, tells₁, hs, tells₂, hn⟩
  rcases hn with ⟨-, _, ⟨⟩⟩ | ⟨found, rfl, hf, hne, ho⟩
  obtain rfl := Except.ok.inj ho
  obtain ⟨rest, ht, rfl⟩ := Attempt.yields_emit_bind.mp hr
  obtain ⟨result, third, rest, named, he, rfl⟩ := Attempt.yields_lift_bind.mp ht
  obtain ⟨outcome, tells₃, hn⟩ := Repository.createTag_cases named
  rcases hn with ⟨refused, f, rfl⟩ | ⟨tagged, rfl, ok, rfl⟩
  · obtain ⟨undo, fourth, rest, undone, ⟨rfl, rfl⟩, rfl⟩ := Attempt.yields_lift_bind.mp he
    obtain ⟨outcome', tells₄⟩ := Repository.undoCommit_cases undone
    refine Or.inl ⟨_, rfl, ?_⟩
    have := Course.tagRefused (f := f) (u := outcome') ready hs hf hne refused
    simpa [tells₁.gitCalls, tells₁.events, tells₂.gitCalls, tells₂.events, tells₃.gitCalls,
      tells₃.events, tells₄.gitCalls, tells₄.events, commitCall, tagCall] using this
  · obtain ⟨rest, ⟨rfl, rfl⟩, rfl⟩ := Attempt.yields_emit_bind.mp he
    refine Or.inr ⟨_, rfl, ?_, ?_⟩
    · have := Approach.fresh ready hs hf hne ok
      simpa [tells₁.gitCalls, tells₂.gitCalls, tells₃.gitCalls, commitCall, tagCall] using this
    · simp [announced, tells₁.events, tells₂.events, tells₃.events]

/-- The push ends the calls that came before it. -/
theorem course_of_push {mode : Mode} {before : History} {sha : String} {resumed : Bool}
    {r : Except PublishFailure Published} (approach : Approach p tag c mode before sha resumed)
    (h : (p.push tag c >>= fun _ =>
      (pure ⟨tag, sha, p.repository.branch, resumed⟩ : Attempt PublishFailure Published)).run.Yields
        notes r) :
    Course p tag c mode (before ++ gitCalls notes) (announced tag sha resumed ++ events notes)
      r := by
  rcases Attempt.yields_bind.mp h with ⟨e, sent, rfl⟩ | ⟨_, first, _, sent, ⟨rfl, rfl⟩, rfl⟩ <;>
    obtain ⟨outcome, hc, hs⟩ := push_cases sent
  · rcases hs with ⟨f, refused, he, ⟨⟩⟩ | ⟨_, -, -, -, ⟨⟩⟩
    rw [hc, he, List.append_nil]
    exact .pushRefused approach refused
  · rcases hs with ⟨_, -, -, ⟨⟩⟩ | ⟨reply, rfl, hs, he, -⟩
    rw [List.append_nil, hc, he]
    exact .published approach hs

end Parts

/-! ## The whole -/

section Whole
variable {p : Publisher} {tag : String} {c : Credential} {mode : Mode} {notes : List Note}

theorem course_of_halted {calls : History} {e : PublishFailure} (told : Recounts notes calls)
    (h : Halted p tag c mode calls e) :
    Course p tag c mode (gitCalls notes) (events notes) (.error e) := by
  rw [told.calls, told.events]
  exact .halted h

/-- Going on from what was found in the checkout: asking the remote ends the course, or leaves the
way clear. -/
theorem course_of_located {prospect : Prospect} {early : History} {start : List Note}
    {next : Attempt PublishFailure Published} {r : Except PublishFailure Published}
    (located : Located p tag mode prospect early) (told : Recounts start early)
    (h : (p.checkRemoteTag tag c >>= fun _ => next).run.Yields notes r) :
    Course p tag c mode (gitCalls (start ++ notes)) (events (start ++ notes)) r ∨
      ∃ first rest remote, notes = first ++ rest ∧ RemoteClear p tag c remote ∧
        Recounts (start ++ first) (early ++ remote) ∧ next.run.Yields rest r := by
  rcases Attempt.yields_bind.mp h with ⟨e, asked, rfl⟩ | ⟨_, first, rest, asked, h₁, rfl⟩ <;>
    obtain ⟨calls, told', ended⟩ := checkRemoteTag_cases located asked
  · rcases ended with ⟨_, ⟨⟩, halted⟩ | ⟨⟨⟩, -⟩
    exact Or.inl (course_of_halted (told.append told') halted)
  · rcases ended with ⟨_, ⟨⟩, -⟩ | ⟨-, clear⟩
    exact Or.inr ⟨first, rest, calls, rfl, clear, told.append told', h₁⟩

theorem resumeWith_course {r : Except PublishFailure Published}
    (h : (p.resumeWith tag c).run.Yields notes r) :
    Course p tag c .resume (gitCalls notes) (events notes) r := by
  unfold resumeWith at h
  rcases Attempt.yields_bind.mp h with ⟨e, named, rfl⟩ | ⟨_, first, rest₁, named, h₁, rfl⟩ <;>
    obtain ⟨outcome₁, tells₁, valid⟩ := checkTagName_cases c .resume named
  · rcases valid with ⟨_, ⟨⟩, halted⟩ | ⟨_, -, -, ⟨⟩⟩
    exact course_of_halted tells₁.recounts halted
  rcases valid with ⟨_, ⟨⟩, -⟩ | ⟨named, rfl, hv, -⟩
  -- A publisher that only pushes does not look for changes: to it there are none.
  have opened : Opened p tag .resume false _ := .resume hv
  rcases Attempt.yields_orElseSay_bind.mp h₁ with
    ⟨f, asked, rfl⟩ | ⟨target, second, rest₂, asked, h₂, rfl⟩ <;>
    obtain ⟨outcome₂, tells₂, ht⟩ := Repository.tagTarget_cases asked <;>
    have told₂ := tells₁.recounts.append tells₂.recounts
  · rcases ht with ⟨cause, rfl, ⟨⟩⟩ | ⟨_, -, ⟨⟩⟩
    exact course_of_halted told₂ (.tagUnasked opened)
  rcases ht with ⟨_, -, ⟨⟩⟩ | ⟨looked, rfl, ⟨⟩⟩
  cases hs : looked.success with
  | false =>
    rw [hs] at h₂
    obtain ⟨rfl, rfl⟩ := h₂
    rw [List.append_nil]
    exact course_of_halted told₂ (.noTag opened hs)
  | true =>
    rw [hs] at h₂
    rcases Attempt.yields_bind.mp h₂ with ⟨e, named, rfl⟩ | ⟨sha, third, rest₃, named, h₃, rfl⟩ <;>
      obtain ⟨outcome₃, tells₃, hh⟩ := head_cases named <;>
      have told₃ := tells₁.recounts.append (tells₂.recounts.append tells₃.recounts)
    · rcases hh with ⟨unnamed, f, ⟨⟩⟩ | ⟨_, -, -, -, ⟨⟩⟩
      exact course_of_halted told₃ (.headUnnamed opened hs unnamed)
    rcases hh with ⟨-, _, ⟨⟩⟩ | ⟨found, rfl, hf, hne, ho⟩
    obtain rfl := Except.ok.inj ho
    rw [← List.append_assoc second, ← List.append_assoc first]
    by_cases he : looked.text = found.text
    · rw [if_neg (not_not_intro he)] at h₃
      have located : Located p tag .resume (.release found.text) _ := .release opened hs hf hne he
      rcases course_of_located located told₃ h₃ with
        course | ⟨fourth, rest₄, remote, rfl, clear, told₄, h₄⟩
      · exact course
      rw [← List.append_assoc, gitCalls_append (_ ++ fourth), events_append, told₄.calls,
        told₄.events]
      exact course_of_push (.left located clear) h₄
    · rw [if_pos he] at h₃
      obtain ⟨rfl, rfl⟩ := h₃
      rw [List.append_nil]
      exact course_of_halted told₃ (.elsewhere opened hs hf hne he)

/-- What follows once no local tag was found: the remote is asked, and changes are committed, tagged
and pushed. -/
theorem course_of_fresh {changes : Bool} {early : History} {start : List Note}
    {r : Except PublishFailure Published}
    (located : Located p tag .publish (.ofChanges changes) early) (told : Recounts start early)
    (h : (p.checkRemoteTag tag c >>= fun _ =>
      if changes = true then p.commitAndTag tag >>= fun sha => p.push tag c >>= fun _ =>
        (pure ⟨tag, sha, p.repository.branch, false⟩ : Attempt PublishFailure Published)
      else throw .noChanges).run.Yields notes r) :
    Course p tag c .publish (gitCalls (start ++ notes)) (events (start ++ notes)) r := by
  rcases course_of_located located told h with course | ⟨first, rest, remote, rfl, clear, told', h₁⟩
  · exact course
  rw [← List.append_assoc]
  cases changes with
  | false =>
    obtain ⟨rfl, rfl⟩ := h₁
    rw [List.append_nil]
    exact course_of_halted told' (.noChanges located clear)
  | true =>
    rw [if_pos rfl] at h₁
    rw [gitCalls_append, events_append, told'.calls, told'.events, List.nil_append]
    rcases Attempt.yields_bind.mp h₁ with ⟨e, made, rfl⟩ | ⟨sha, second, rest, made, h₂, rfl⟩ <;>
      rcases commitAndTag_cases (.intro located clear) made with
        ⟨_, ⟨⟩, course⟩ | ⟨_, ⟨⟩, approach, announced⟩
    · exact course
    · rw [gitCalls_append second, events_append, ← List.append_assoc, announced]
      exact course_of_push approach h₂

/-- What follows once the tag was found at `HEAD` with no changes beside it: the remote is asked,
the commit is looked up again, and pushed. -/
theorem course_of_found {sha : String} {early : History} {start : List Note}
    {r : Except PublishFailure Published}
    (located : Located p tag .publish (.release sha) early) (told : Recounts start early)
    (h : (p.checkRemoteTag tag c >>= fun _ => p.head >>= fun sha => p.push tag c >>= fun _ =>
        (pure ⟨tag, sha, p.repository.branch, true⟩ : Attempt PublishFailure Published)).run.Yields
      notes r) :
    Course p tag c .publish (gitCalls (start ++ notes)) (events (start ++ notes)) r := by
  rcases course_of_located located told h with course | ⟨first, rest, remote, rfl, clear, told', h₁⟩
  · exact course
  rw [← List.append_assoc]
  rcases Attempt.yields_bind.mp h₁ with ⟨e, named, rfl⟩ | ⟨sha, second, rest, named, h₂, rfl⟩ <;>
    obtain ⟨outcome, tells, hn⟩ := head_cases named <;>
    have told₂ := told'.append tells.recounts
  · rcases hn with ⟨unnamed, f, ⟨⟩⟩ | ⟨_, -, -, -, ⟨⟩⟩
    exact course_of_halted told₂ (.headLost located clear unnamed)
  · rcases hn with ⟨-, _, ⟨⟩⟩ | ⟨again, rfl, hs, hne, ho⟩
    obtain rfl := Except.ok.inj ho
    rw [← List.append_assoc, gitCalls_append (_ ++ second), events_append, told₂.calls,
      told₂.events]
    exact course_of_push (.found located clear hs hne) h₂

theorem publishWith_course {r : Except PublishFailure Published}
    (h : (p.publishWith tag c).run.Yields notes r) :
    Course p tag c .publish (gitCalls notes) (events notes) r := by
  unfold publishWith at h
  rcases Attempt.yields_bind.mp h with ⟨e, named, rfl⟩ | ⟨_, first, rest₁, named, h₁, rfl⟩ <;>
    obtain ⟨outcome₁, tells₁, valid⟩ := checkTagName_cases c .publish named
  · rcases valid with ⟨_, ⟨⟩, halted⟩ | ⟨_, -, -, ⟨⟩⟩
    exact course_of_halted tells₁.recounts halted
  rcases valid with ⟨_, ⟨⟩, -⟩ | ⟨named, rfl, hv, -⟩
  rcases Attempt.yields_orElseSay_bind.mp h₁ with
    ⟨f, collected, rfl⟩ | ⟨_, second, rest₂, collected, h₂, rfl⟩ <;>
    obtain ⟨outcome₂, tells₂, ha⟩ := Repository.addAll_cases collected <;>
    have told₂ := tells₁.recounts.append tells₂.recounts
  · rcases ha with ⟨refused, -⟩ | ⟨_, -, -, ⟨⟩⟩
    exact course_of_halted told₂ (.uncollected hv refused)
  rcases ha with ⟨-, _, ⟨⟩⟩ | ⟨added, rfl, ha, -⟩
  rcases Attempt.yields_orElseSay_bind.mp h₂ with
    ⟨f, compared, rfl⟩ | ⟨changes, third, rest₃, compared, h₃, rfl⟩ <;>
    obtain ⟨outcome₃, tells₃, hc⟩ := Repository.hasChanges_cases compared <;>
    have told₃ := tells₁.recounts.append (tells₂.recounts.append tells₃.recounts)
  · rcases hc with ⟨undecided, -⟩ | ⟨_, _, -, -, ⟨⟩⟩
    exact course_of_halted told₃ (.uncompared hv ha undecided)
  rcases hc with ⟨-, _, ⟨⟩⟩ | ⟨reply, _, rfl, hc, ⟨⟩⟩
  -- The three calls that open the course are known; the local tag decides how it goes on.
  have opened : Opened p tag .publish changes _ := .publish hv ha hc
  rw [← List.append_assoc second, ← List.append_assoc first]
  rcases Attempt.yields_bind.mp h₃ with
    ⟨e, asked, rfl⟩ | ⟨resumed, fourth, rest₄, asked, h₄, rfl⟩ <;>
    obtain ⟨calls, told₄, located⟩ := checkLocalTag_cases (c := c) opened asked <;>
    have told := told₃.append told₄ <;>
    rcases located with ⟨_, ⟨⟩, halted⟩ | ⟨⟨⟩, located⟩ | ⟨sha, ⟨⟩, located⟩
  · exact course_of_halted told halted
  · rw [← List.append_assoc]
    exact course_of_fresh located told h₄
  · rw [← List.append_assoc]
    exact course_of_found located told h₄

/-- **Every way to publish is one of the courses**, whatever git answers. -/
theorem course_of_yields {r : Except PublishFailure Published}
    (h : (p.enter mode tag c).run.Yields notes r) :
    Course p tag c mode (gitCalls notes) (events notes) r := by
  cases mode with
  | publish => exact publishWith_course h
  | resume => exact resumeWith_course h

end Whole
end Publisher
end GatedRelease
