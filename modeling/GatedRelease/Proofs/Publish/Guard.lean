import GatedRelease.Proofs.Publish.Course

/-! # No push without its guards

A push cannot be taken back, so that everything that speaks against it has to be asked before. This
module reads off the courses of `Publisher.publishWith` and `Publisher.resumeWith` what stands
before a push (`Guarded`), that it comes last and at most once, and that the result is its result.
Nothing is assumed of git: it may answer every call with every code and every output, or not start.
-/
namespace GatedRelease

/-- The action sends to the remote. -/
def Git.Action.isPush : Git.Action → Bool
  | .push .. => true
  | _ => false

namespace Publisher
open Git (History)

section Guard
variable (p : Publisher) (tag : String) (c : Credential)

/-- A commit of its own was made and tagged: there were changes and no local tag, git took the
commit, then named it, and then took the tag. -/
inductive Fresh : History → Prop
  | intro {early : History} {added compared looked made found tagged : Git.Reply} :
      [(p.repository.call .addAll, .exited added),
        (p.repository.call .compareIndex, .exited compared),
        (p.repository.call (.tagTarget tag), .exited looked)].Sublist early →
      added.success = true → compared.code = 1 → looked.success = false → made.success = true →
      found.success = true → found.text ≠ "" → tagged.success = true →
      Fresh (early ++ [(p.commitCall, .exited made), (p.repository.call .head, .exited found),
        (p.tagCall tag, .exited tagged)])

/-- The local tag was found at `HEAD`; publishing, as against resuming, found no changes besides. -/
inductive Resumed : Mode → History → Prop
  | intro {mode : Mode} {before : History} {looked found : Git.Reply} :
      (p.repository.call (.tagTarget tag), .exited looked) ∈ before → looked.success = true →
      (p.repository.call .head, .exited found) ∈ before → found.success = true →
      found.text ≠ "" → looked.text = found.text →
      (mode = .publish → ∃ added compared : Git.Reply,
        [(p.repository.call .addAll, .exited added),
          (p.repository.call .compareIndex, .exited compared)].Sublist before ∧
        added.success = true ∧ compared.code = 0) →
      Resumed mode before

/-- **What has to stand before a push.** -/
structure Guarded (mode : Mode) (before : History) : Prop where
  /-- Git takes the name for a tag. -/
  named : ∃ reply : Git.Reply, (p.repository.call (.checkTagName tag), .exited reply) ∈ before ∧
    reply.success = true
  /-- The remote was asked and does not have the tag, if that is insisted on. -/
  absent : p.settings.rejectExistingTag = true → ∃ reply : Git.Reply,
    (p.repository.callWith c (.remoteTag tag), .exited reply) ∈ before ∧ reply.success = true ∧
      Text.isBlank (Text.ofUtf8Lossy reply.out) = true
  /-- There is a release to push, and only publishing may have made it. -/
  release : mode = .publish ∧ Fresh p tag before ∨ Resumed p tag mode before

end Guard

variable {p : Publisher} {tag : String} {c : Credential} {mode : Mode}

theorem isPush_of_mem_preliminary {call : Git.Call} (h : call ∈ p.preliminary tag c mode) :
    call.action.isPush = false := by
  cases mode <;> simp only [preliminary, List.mem_cons, List.not_mem_nil, or_false] at h
  · rcases h with rfl | rfl | rfl | rfl | rfl | rfl <;> rfl
  · rcases h with rfl | rfl | rfl | rfl <;> rfl

theorem isPush_of_preliminary {calls : History} (h : ∀ x ∈ calls, x.1 ∈ p.preliminary tag c mode) :
    ∀ x ∈ calls, x.1.action.isPush = false :=
  fun x hx => isPush_of_mem_preliminary (h x hx)

theorem Opened.named {changes : Bool} {opening : History} (h : Opened p tag mode changes opening) :
    ∃ reply : Git.Reply, (p.repository.call (.checkTagName tag), .exited reply) ∈ opening ∧
      reply.success = true := by
  cases h with
  | publish hn _ _ | resume hn => exact ⟨_, List.mem_cons_self, hn⟩

theorem Located.named {prospect : Prospect} {early : History}
    (h : Located p tag mode prospect early) :
    ∃ reply : Git.Reply, (p.repository.call (.checkTagName tag), .exited reply) ∈ early ∧
      reply.success = true := by
  cases h with
  | changes opened _ | nothing opened _ | release opened _ _ _ _ =>
    obtain ⟨reply, asked, hn⟩ := opened.named
    exact ⟨reply, List.mem_append_left _ asked, hn⟩

/-- A release that was found is one to go on with. -/
theorem Located.resumed {sha : String} {early : History}
    (h : Located p tag mode (.release sha) early) (rest : History) :
    Resumed p tag mode (early ++ rest) := by
  cases h with
  | @release _ opening looked found opened hl hf hne he =>
    refine .intro (by simp) hl (by simp) hf hne he ?_
    -- Only publishing has compared the index, and it goes on with a release if that is unchanged.
    rintro rfl
    cases opened with
    | @publish named added compared _ hn ha hc => exact ⟨added, compared, by simp, ha, hc⟩

theorem RemoteClear.absent_of_insisting {remote : History} (h : RemoteClear p tag c remote)
    (hs : p.settings.rejectExistingTag = true) :
    ∃ reply : Git.Reply, (p.repository.callWith c (.remoteTag tag), .exited reply) ∈ remote ∧
      reply.success = true ∧ Text.isBlank (Text.ofUtf8Lossy reply.out) = true := by
  cases h with
  | unasked hn =>
    rw [hs] at hn
    exact absurd hn (by decide)
  | absent _ hq hb => exact ⟨_, List.mem_singleton_self _, hq, hb⟩

/-- **What was looked up guards the push**, if there is a release. -/
theorem Located.guarded {prospect : Prospect} {early remote rest : History}
    (located : Located p tag mode prospect early) (clear : RemoteClear p tag c remote)
    (release : mode = .publish ∧ Fresh p tag (early ++ remote ++ rest) ∨
      Resumed p tag mode (early ++ remote ++ rest)) :
    Guarded p tag c mode (early ++ remote ++ rest) := by
  refine ⟨?_, ?_, release⟩
  · obtain ⟨reply, asked, hn⟩ := located.named
    exact ⟨reply, by simp [asked], hn⟩
  · intro hs
    obtain ⟨reply, asked, blank⟩ := clear.absent_of_insisting hs
    exact ⟨reply, by simp [asked], blank⟩

namespace Approach
variable {before : History} {sha : String} {resumed : Bool}

/-- No push comes before the push. -/
theorem isPush (h : Approach p tag c mode before sha resumed) :
    ∀ x ∈ before, x.1.action.isPush = false := by
  cases h with
  | fresh ready _ _ _ _ =>
    refine List.forall_mem_append.mpr ⟨isPush_of_preliminary ready.mem_preliminary, ?_⟩
    simp [Repository.call, commitCall, tagCall, Git.Action.isPush]
  | found located clear _ _ =>
    refine List.forall_mem_append.mpr
      ⟨isPush_of_preliminary (located.append_mem_preliminary clear), ?_⟩
    simp [Repository.call, Git.Action.isPush]
  | left located clear =>
    exact isPush_of_preliminary (located.append_mem_preliminary clear)

/-- Before a push that makes nothing of its own stand only names and lookups. -/
theorem mem_preliminary (h : Approach p tag c .resume before sha resumed) :
    ∀ x ∈ before, x.1 ∈ p.preliminary tag c .resume := by
  cases h with
  | left located clear => exact located.append_mem_preliminary clear

/-- **What comes before a push guards it.** -/
theorem guarded (h : Approach p tag c mode before sha resumed) : Guarded p tag c mode before := by
  cases h with
  | @fresh before made found tagged ready hm hf hne ht =>
    obtain @⟨early, remote, located, clear⟩ := ready
    refine located.guarded clear (Or.inl ⟨rfl, ?_⟩)
    cases located with
    | @changes opening looked opened hl =>
      cases opened with
      | @publish named added compared _ hn ha hc =>
        refine .intro ?_ ha hc hl hm hf hne ht
        exact (List.sublist_cons_self _ _).trans (List.sublist_append_left _ _)
  | @found sha early remote again located clear hs hne =>
    refine located.guarded clear (Or.inr ?_)
    rw [List.append_assoc]
    exact located.resumed _
  | @left _ early remote located clear =>
    rw [← List.append_nil (early ++ remote)]
    refine located.guarded clear (Or.inr ?_)
    rw [List.append_assoc]
    exact located.resumed _

end Approach

/-- **The push comes last**: either there is none, and the publisher failed, or it is the last call,
behind its approach, and the result is its result. -/
theorem Course.push_cases {calls : History} {told : List Event}
    {r : Except PublishFailure Published} (h : Course p tag c mode calls told r) :
    ((∀ x ∈ calls, x.1.action.isPush = false) ∧ r.isOk = false) ∨
      ∃ before sha resumed outcome, calls = before ++ [(p.pushCall tag c, outcome)] ∧
        Approach p tag c mode before sha resumed ∧ r.isOk = outcome.succeeded := by
  cases h with
  | halted halted => exact Or.inl ⟨isPush_of_preliminary halted.mem_preliminary, rfl⟩
  | commitRefused ready _ | commitUnnamed ready _ _ | tagRefused ready _ _ _ _ =>
    refine Or.inl ⟨List.forall_mem_append.mpr
      ⟨isPush_of_preliminary ready.mem_preliminary, ?_⟩, rfl⟩
    simp [Repository.call, commitCall, tagCall, Git.Action.isPush]
  | pushRefused approach refused => exact Or.inr ⟨_, _, _, _, rfl, approach, refused.symm⟩
  | published approach hs => exact Or.inr ⟨_, _, _, _, rfl, approach, hs.symm⟩

/-- A publisher that only pushes never collects, compares, commits, tags or takes back. -/
theorem Course.resume_calls {calls : History} {told : List Event}
    {r : Except PublishFailure Published} (h : Course p tag c .resume calls told r) :
    ∀ x ∈ calls, x.1 ∈ p.preliminary tag c .resume ++ [p.pushCall tag c] := by
  cases h with
  | halted halted => exact fun x hx => List.mem_append_left _ (halted.mem_preliminary x hx)
  | pushRefused approach _ | published approach _ =>
    refine List.forall_mem_append.mpr ⟨?_, by simp⟩
    exact fun x hx => List.mem_append_left _ (approach.mem_preliminary x hx)

/-- **No push without its guards.** Whatever git answers, a push is the last call and follows upon
all that guards it, the result is good exactly if a push was made and ended well, and a publisher
that only pushes asks git for nothing but names, lookups and the push. -/
theorem push_guarded {notes : List Note} {r : Except PublishFailure Published}
    (h : (p.enter mode tag c).run.Yields notes r) :
    (∀ before x after, gitCalls notes = before ++ x :: after → x.1.action.isPush = true →
        after = [] ∧ x.1 = p.pushCall tag c ∧ Guarded p tag c mode before) ∧
      (r.isOk = true ↔ ∃ reply : Git.Reply,
        (p.pushCall tag c, .exited reply) ∈ gitCalls notes ∧ reply.success = true) ∧
      (mode = .resume → ∀ x ∈ gitCalls notes, x.1.action ∈ [.checkTagName tag, .tagTarget tag,
        .head, .remoteTag tag, .push p.repository.branch tag]) := by
  have course := course_of_yields h
  refine ⟨?_, ?_, ?_⟩
  · intro before x after hc hx
    rcases course.push_cases with ⟨none, -⟩ | ⟨l, sha, resumed, outcome, hl, approach, -⟩
    · have : x.1.action.isPush = false := none x (by rw [hc]; simp)
      rw [hx] at this
      exact absurd this (by decide)
    · -- No push comes before the last call, so that any push is that call.
      rw [hl] at hc
      have early : ∀ y ∈ l, ¬ y.1.action.isPush = true := by
        intro y hy
        rw [approach.isPush y hy]
        decide
      obtain ⟨rfl, rfl, rfl⟩ :=
        eq_of_append_last (P := fun x => x.1.action.isPush = true) early hx hc
      exact ⟨rfl, rfl, approach.guarded⟩
  · rcases course.push_cases with ⟨none, failed⟩ | ⟨l, sha, resumed, outcome, hl, approach, hr⟩
    · rw [failed]
      refine ⟨fun h => absurd h (by decide), ?_⟩
      rintro ⟨reply, sent, -⟩
      exact absurd (none _ sent) (by simp [pushCall, Repository.callWith, Git.Action.isPush])
    · rw [hr, hl, Git.Outcome.succeeded_iff]
      constructor
      · rintro ⟨reply, rfl, hs⟩
        exact ⟨reply, by simp, hs⟩
      · rintro ⟨reply, sent, hs⟩
        rcases List.mem_append.mp sent with sent | sent
        · exact absurd (approach.isPush _ sent)
            (by simp [pushCall, Repository.callWith, Git.Action.isPush])
        · obtain ⟨-, rfl⟩ := Prod.mk.inj (List.mem_singleton.mp sent)
          exact ⟨reply, rfl, hs⟩
  · rintro rfl x hx
    have := course.resume_calls x hx
    simp only [preliminary, List.mem_append, List.mem_cons, List.not_mem_nil, or_false] at this
    rcases this with (h | h | h | h) | h <;> rw [h] <;>
      simp [Repository.call, Repository.callWith, pushCall]

section Sample

/-- A publisher that does not ask the remote for tags. -/
def sample : Publisher where
  repository := ⟨"/packages", ".", "main"⟩
  settings := ⟨"Release", ⟨"Releases", "releases@localhost"⟩, false⟩
  provider := .fixed "TOKEN" (some "secret")

/-- Git ends well and prints one letter. -/
def sampleReply : Git.Reply := ⟨0, [97], []⟩

theorem sampleReply_text : sampleReply.text = "a" := by decide +kernel

/-- A release that an earlier attempt left is pushed. -/
def sampleNotes : List Note := [
  .git (sample.repository.call (.checkTagName "v1")) none (.exited sampleReply),
  .git (sample.repository.call (.tagTarget "v1")) none (.exited sampleReply),
  .git (sample.repository.call .head) none (.exited sampleReply),
  .git (sample.pushCall "v1" ⟨"secret"⟩) none (.exited sampleReply),
  .event (.publishStep .push "v1")]

theorem sampleNotes_yields : (sample.enter .resume "v1" ⟨"secret"⟩).run.Yields sampleNotes
    (.ok ⟨"v1", "a", "main", true⟩) := by
  refine ⟨none, .exited sampleReply, _, rfl, none, .exited sampleReply, _, rfl, none,
    .exited sampleReply, _, rfl, ?_⟩
  have good : sampleReply.success = true := rfl
  simp only [Script.bind, ExceptT.bindCont, Function.comp, good, sampleReply_text, if_true,
    String.reduceEq, if_false, pure, ExceptT.pure, ExceptT.mk]
  rw [if_neg (not_not_intro rfl)]
  exact ⟨none, .exited sampleReply, _, rfl, _, rfl, rfl, rfl⟩

theorem push_guarded_sample :
    (sample.enter .resume "v1" ⟨"secret"⟩).run.Yields sampleNotes (.ok ⟨"v1", "a", "main", true⟩) ∧
      Guarded sample "v1" ⟨"secret"⟩ .resume ((gitCalls sampleNotes).take 3) := by
  refine ⟨sampleNotes_yields, ?_⟩
  obtain ⟨-, -, guarded⟩ := (push_guarded sampleNotes_yields).1
    ((gitCalls sampleNotes).take 3) (sample.pushCall "v1" ⟨"secret"⟩, .exited sampleReply) [] rfl
    rfl
  exact guarded

end Sample
end Publisher
end GatedRelease
