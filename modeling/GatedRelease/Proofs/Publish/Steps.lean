import GatedRelease.Proofs.Publish.Guard
import GatedRelease.Proofs.Publish.Recovery

/-! # What a failed call of a publisher has done

A call of a publisher that fails names a step, and tells those who watch of the steps that it made
before.  Both are to be true of the calls of git: a failure at a step bounds what was tried
(`Blames`), and what is told is what the calls come to (`deeds`).  A commit is only then a step that
was made when git has also named it, and that is where a release commit can be left behind: it is
tagged or taken back exactly if git names it right after it was made (`Settled`, `Named`).

Nothing is assumed of git, nor of where the credential comes from.
-/
namespace GatedRelease
open Git (History)

/-- The step of publishing that the action is there for. -/
def Git.Action.step? : Git.Action → Option PublishStep
  | .commit .. => some .commit
  | .createTag .. => some .tag
  | .push .. => some .push
  | _ => none

/-- The step of publishing that is told of. -/
def Event.step? : Event → Option PublishStep
  | .publishStep step _ => some step
  | _ => none

theorem Git.Outcome.named?_exited {reply : Git.Reply} (hs : reply.success = true)
    (ht : reply.text ≠ "") : (Outcome.exited reply).named? = some reply.text :=
  if_pos ⟨hs, ht⟩

/-- Getting a credential leaves no note, and fails only for want of one. -/
theorem CredentialProvider.resolve_cases {provider : CredentialProvider} {notes : List Note}
    {r : Except ReleaseError Credential} (h : provider.resolve.run.Yields notes r) :
    notes = [] ∧ (r = .error (.credentialMissing provider.name) ∨ ∃ c, r = .ok c) := by
  cases provider with
  | environment name =>
    obtain ⟨value, h⟩ := h
    dsimp only [Script.bind, Function.comp_apply, ExceptT.bindCont, pure] at h
    cases hf : CredentialProvider.ofValue? value with
    | none =>
      rw [hf] at h
      obtain ⟨rfl, rfl⟩ := h
      exact ⟨rfl, Or.inl rfl⟩
    | some c =>
      rw [hf] at h
      obtain ⟨rfl, rfl⟩ := h
      exact ⟨rfl, Or.inr ⟨_, rfl⟩⟩
  | fixed name secret =>
    cases secret with
    | none =>
      obtain ⟨rfl, rfl⟩ := h
      exact ⟨rfl, Or.inl rfl⟩
    | some c =>
      obtain ⟨rfl, rfl⟩ := h
      exact ⟨rfl, Or.inr ⟨_, rfl⟩⟩

/-- A failure at a step is reported as one. -/
theorem PublishFailure.toError_of_step {f : PublishFailure} {step : PublishStep}
    (h : f.step? = some step) : f.toError = .publishFailure step f.reason := by
  cases f with
  | credential error => cases h
  | git _ _ | badTagName _ | tagElsewhere _ _ | tagWithChanges _ | remoteUnknown _ | tagOnRemote _
  | noChanges | push _ _ _ | noTag _ | tagNotAtHead _ _ =>
    obtain rfl := Option.some.inj h
    rfl

namespace Publisher

/-- The step was tried. -/
def Tried (step : PublishStep) (calls : History) : Prop :=
  ∃ x ∈ calls, x.1.action.step? = some step

/-- Git was called for the step and ended well. -/
def Done (step : PublishStep) (calls : History) : Prop :=
  ∃ x ∈ calls, x.1.action.step? = some step ∧ x.2.succeeded = true

/-- The commit that git names, if that is what it is asked first. -/
def namedFirst : History → Option String
  | [] => none
  | (call, outcome) :: _ =>
    match call.action with
    | .head => outcome.named?
    | _ => none

/-- What there is to tell of a call, with the calls after it: the step that it makes, if it ends
well. A commit is made when git has named it. -/
def deed (x : Git.Call × Git.Outcome) (later : History) : List Event :=
  if x.2.succeeded then
    match x.1.action with
    | .commit .. => (namedFirst later).toList.map (.publishStep .commit)
    | .createTag _ tag => [.publishStep .tag tag]
    | .push _ tag => [.publishStep .push tag]
    | _ => []
  else []

/-- **What the calls come to**: the steps that they make, in order. -/
def deeds : History → List Event
  | [] => []
  | x :: later => deed x later ++ deeds later

section Statement
variable (p : Publisher) (tag : String)

/-- **What a failure at a step says of the calls.** -/
def Blames (mode : Mode) (calls : History) : PublishStep → Prop
  | .commit => ¬ Tried .tag calls ∧ ¬ Tried .push calls
  | .tag => ¬ Tried .push calls ∧
      (Done .commit calls → ∃ before u, calls = before ++ [(p.repository.call .undoCommit, u)])
  | .push => ∃ before x, calls = before ++ [x] ∧ x.2.succeeded = false ∧
      (x.1.action = .remoteTag tag ∧ ¬ Tried .commit calls ∧ ¬ Tried .tag calls ∨
        x.1.action = .push p.repository.branch tag ∧
          (Fresh p tag before ∨ Resumed p tag mode before))

/-- There is nothing to make: the publisher only pushes, or found the tag in the clone. -/
def Resumes (mode : Mode) (calls : History) : Prop :=
  mode = .resume ∨ ∃ reply : Git.Reply,
    (p.repository.call (.tagTarget tag), .exited reply) ∈ calls ∧ reply.success = true

/-- The release commit was tagged, or is to be taken back. -/
def Settled (calls : History) : Prop :=
  (∃ reply : Git.Reply, (p.tagCall tag, .exited reply) ∈ calls ∧ reply.success = true) ∨
    ∃ u, (p.repository.call .undoCommit, u) ∈ calls

/-- The release commit stands behind calls that change nothing but the index, and right before a
question for its name. -/
def MadeAt (c : Credential) (calls : History) (made : Git.Reply) (looked : Git.Outcome)
    (later : History) : Prop :=
  ∃ before, calls = before ++ (p.commitCall, .exited made) :: (p.repository.call .head, looked) ::
    later ∧ ∀ x ∈ before, x.1 ∈ p.preliminary tag c .publish

/-- Git named the release commit right after it was made. -/
def Named (calls : History) : Prop :=
  ∃ before made outcome later sha, calls = before ++ (p.commitCall, made) ::
    (p.repository.call .head, outcome) :: later ∧ outcome.named? = some sha

end Statement

/-! ## Calls that make no step -/

section Idle
variable {p : Publisher} {tag : String} {c : Credential} {mode : Mode} {calls : History}

/-- The calls before anything is changed make no step. -/
theorem step?_of_preliminary (h : ∀ x ∈ calls, x.1 ∈ p.preliminary tag c mode) :
    ∀ x ∈ calls, x.1.action.step? = none := by
  intro x hx
  have := h x hx
  cases mode <;> simp only [preliminary, List.mem_cons, List.not_mem_nil, or_false] at this
  · rcases this with h | h | h | h | h | h <;> rw [h] <;> rfl
  · rcases this with h | h | h | h <;> rw [h] <;> rfl

theorem not_tried_of_idle {step : PublishStep} (h : ∀ x ∈ calls, x.1.action.step? = none) :
    ¬ Tried step calls := by
  rintro ⟨x, hx, hs⟩
  rw [h x hx] at hs
  cases hs

theorem tried_of_done {step : PublishStep} (h : Done step calls) : Tried step calls := by
  obtain ⟨x, hx, hs, -⟩ := h
  exact ⟨x, hx, hs⟩

theorem deed_of_idle {x : Git.Call × Git.Outcome} (h : x.1.action.step? = none)
    (later : History) : deed x later = [] := by
  obtain ⟨⟨action, directory, token⟩, outcome⟩ := x
  cases action with
  | commit who text | createTag who tag | push branch tag => cases h
  | topLevel | head | clone branch url path | addAll | compareIndex | tagTarget tag
  | remoteTag tag | checkTagName tag | undoCommit => exact ite_self _

/-- Calls that make no step are left out of the account. -/
theorem deeds_of_idle (h : ∀ x ∈ calls, x.1.action.step? = none) (later : History) :
    deeds (calls ++ later) = deeds later := by
  induction calls with
  | nil => rfl
  | cons x calls ih =>
    obtain ⟨first, rest⟩ := List.forall_mem_cons.mp h
    have nothing : deed x (calls ++ later) = [] := deed_of_idle first _
    show deed x (calls ++ later) ++ deeds (calls ++ later) = deeds later
    rw [nothing, ih rest]
    rfl

theorem deeds_singleton (x : Git.Call × Git.Outcome) : deeds [x] = deed x [] :=
  List.append_nil _

/-- A call that fails makes no step. -/
theorem deed_of_failed {call : Git.Call} {outcome : Git.Outcome} (h : outcome.succeeded = false)
    (later : History) : deed (call, outcome) later = [] := by
  unfold deed
  rw [if_neg (by rw [h]; decide)]

theorem deed_tagCall {reply : Git.Reply} (h : reply.success = true) (later : History) :
    deed (p.tagCall tag, .exited reply) later = [.publishStep .tag tag] :=
  if_pos h

theorem deed_pushCall {reply : Git.Reply} (h : reply.success = true) (later : History) :
    deed (p.pushCall tag c, .exited reply) later = [.publishStep .push tag] :=
  if_pos h

/-- The calls that commit: they come to a commit if git names it. -/
theorem deeds_commit {made : Git.Reply} (h : made.success = true) (outcome : Git.Outcome)
    (later : History) :
    deeds ((p.commitCall, .exited made) :: (p.repository.call .head, outcome) :: later) =
      outcome.named?.toList.map (.publishStep .commit) ++ deeds later := by
  have commit : deed (p.commitCall, .exited made) ((p.repository.call .head, outcome) :: later) =
      outcome.named?.toList.map (.publishStep .commit) := if_pos h
  have lookup : deed (p.repository.call .head, outcome) later = [] := ite_self _
  show deed _ _ ++ (deed _ later ++ deeds later) = _
  rw [commit, lookup, List.nil_append]

end Idle

/-! ## The courses -/

section Courses
variable {p : Publisher} {tag : String} {c : Credential} {mode : Mode} {calls before : History}

/-- A commit of its own, its name and its tag are told before the push; a release that was found is
not. -/
theorem Approach.deeds {sha : String} {resumed : Bool}
    (h : Approach p tag c mode before sha resumed) (later : History) :
    deeds (before ++ later) = announced tag sha resumed ++ deeds later := by
  cases h with
  | fresh ready hm hf hne ht =>
    rw [List.append_assoc, deeds_of_idle (step?_of_preliminary ready.mem_preliminary)]
    show Publisher.deeds (_ :: _ :: _ :: later) = _
    rw [deeds_commit hm, Git.Outcome.named?_exited hf hne]
    show _ ++ (deed _ later ++ _) = _
    rw [deed_tagCall ht]
    rfl
  | found located clear _ _ =>
    refine deeds_of_idle (List.forall_mem_append.mpr ⟨?_, ?_⟩) later
    · exact step?_of_preliminary (located.append_mem_preliminary clear)
    · exact List.forall_mem_singleton.mpr rfl
  | left located clear =>
    exact deeds_of_idle (step?_of_preliminary (located.append_mem_preliminary clear)) later

/-- **What is told of a course is what its calls come to.** -/
theorem Course.told_eq {told : List Event} {r : Except PublishFailure Published}
    (h : Course p tag c mode calls told r) : told = deeds calls := by
  cases h with
  | halted halted =>
    have := deeds_of_idle (step?_of_preliminary halted.mem_preliminary) []
    rw [List.append_nil] at this
    exact this.symm
  | commitRefused ready refused =>
    rw [deeds_of_idle (step?_of_preliminary ready.mem_preliminary), deeds_singleton,
      deed_of_failed refused]
  | commitUnnamed ready hm unnamed =>
    rw [deeds_of_idle (step?_of_preliminary ready.mem_preliminary), deeds_commit hm, unnamed]
    rfl
  | tagRefused ready hm hf hne refused =>
    have undo (u : Git.Outcome) : deed (p.repository.call .undoCommit, u) [] = [] := ite_self _
    rw [deeds_of_idle (step?_of_preliminary ready.mem_preliminary), deeds_commit hm,
      Git.Outcome.named?_exited hf hne]
    show _ = _ ++ (deed _ _ ++ deeds [_])
    rw [deed_of_failed refused, deeds_singleton, undo]
    rfl
  | pushRefused approach refused =>
    rw [approach.deeds, deeds_singleton, deed_of_failed refused, List.append_nil]
  | published approach hs => rw [approach.deeds, deeds_singleton, deed_pushCall hs]

/-- **A failure to be ready is a failure at a step**, and says what was tried. -/
theorem Halted.blames {f : PublishFailure} (h : Halted p tag c mode calls f) :
    ∃ step, f.step? = some step ∧ Blames p tag mode calls step := by
  have idle := step?_of_preliminary h.mem_preliminary
  have commit : Blames p tag mode calls .commit :=
    ⟨not_tried_of_idle idle, not_tried_of_idle idle⟩
  have name : Blames p tag mode calls .tag :=
    ⟨not_tried_of_idle idle, fun done => absurd (tried_of_done done) (not_tried_of_idle idle)⟩
  cases h with
  | nameUnasked | badTagName _ | tagUnasked _ | noTag _ _ | tagWithChanges _ _ _ _ _
  | tagOnRemote _ _ _ _ => exact ⟨.tag, rfl, name⟩
  | elsewhere _ _ _ _ _ => cases mode <;> exact ⟨.tag, rfl, name⟩
  | uncollected _ _ | uncompared _ _ _ | headUnnamed _ _ _ | noChanges _ _ | headLost _ _ _ =>
    exact ⟨.commit, rfl, commit⟩
  | remoteUnknown located _ failed =>
    exact ⟨.push, rfl, _, _, rfl, failed,
      Or.inl ⟨rfl, not_tried_of_idle idle, not_tried_of_idle idle⟩⟩

/-- Behind what makes no step, a step is tried in the calls that follow. -/
theorem Ready.not_tried {step : PublishStep} (h : Ready p tag c before) {later : History}
    (hl : ∀ x ∈ later, x.1.action.step? ≠ some step) : ¬ Tried step (before ++ later) := by
  have idle := step?_of_preliminary h.mem_preliminary
  rintro ⟨x, hx, hs⟩
  rcases List.mem_append.mp hx with hx | hx
  · rw [idle x hx] at hs
    cases hs
  · exact hl x hx hs

/-- **A failure of publishing is a failure at a step**, and says what was tried. -/
theorem Course.blames {told : List Event} {f : PublishFailure}
    (h : Course p tag c mode calls told (.error f)) :
    ∃ step, f.step? = some step ∧ Blames p tag mode calls step := by
  cases h with
  | halted halted => exact halted.blames
  | commitRefused ready _ | commitUnnamed ready _ _ =>
    refine ⟨.commit, rfl, ready.not_tried ?_, ready.not_tried ?_⟩ <;>
      simp [commitCall, Repository.call, Git.Action.step?]
  | @tagRefused before made found outcome u _ ready _ _ _ _ =>
    refine ⟨.tag, rfl, ready.not_tried ?_, fun _ => ?_⟩
    · simp [commitCall, tagCall, Repository.call, Git.Action.step?]
    · refine ⟨before ++ [(p.commitCall, .exited made), (p.repository.call .head, .exited found),
        (p.tagCall tag, outcome)], u, ?_⟩
      rw [List.append_assoc]
      rfl
  | pushRefused approach refused =>
    exact ⟨.push, rfl, _, _, rfl, refused,
      Or.inr ⟨rfl, approach.guarded.release.imp_left And.right⟩⟩

/-- Who is to commit has found no local tag, and looks for none again. -/
theorem Ready.not_resumes (h : Ready p tag c before) {later : History}
    (hl : ∀ x ∈ later, x.1.action ≠ .tagTarget tag) :
    ¬ Resumes p tag .publish (before ++ later) := by
  rintro (⟨⟨⟩⟩ | ⟨reply, hr, hs⟩)
  obtain ⟨located, clear⟩ := h
  cases located with
  | @changes opening looked opened missing =>
    rcases List.mem_append.mp hr with hr | hr
    · cases opened with
      | publish _ _ _ =>
        have : reply = looked := by
          cases clear <;> simpa [Repository.call, Repository.callWith] using hr
        rw [this, missing] at hs
        cases hs
    · exact hl _ hr rfl

/-- A release is pushed without being made exactly if the publisher resumes. -/
theorem Approach.resumes_iff {sha : String} {resumed : Bool} {outcome : Git.Outcome}
    (h : Approach p tag c mode before sha resumed) :
    Resumes p tag mode (before ++ [(p.pushCall tag c, outcome)]) ↔ resumed = true := by
  cases h with
  | fresh ready _ _ _ _ =>
    rw [List.append_assoc]
    refine iff_of_false (ready.not_resumes ?_) Bool.false_ne_true
    simp [commitCall, tagCall, pushCall, Repository.call, Repository.callWith]
  | found located _ _ _ =>
    cases located with
    | @release _ _ looked _ _ hl _ _ _ => exact iff_of_true (Or.inr ⟨looked, by simp, hl⟩) rfl
  | left _ _ => exact iff_of_true (Or.inl rfl) rfl

/-- **The steps that are told of**, in order: from the commit on, or the push alone. -/
theorem Course.steps_prefix {told : List Event} {r : Except PublishFailure Published}
    (h : Course p tag c mode calls told r) :
    (Resumes p tag mode calls → told.filterMap Event.step? <+: [.push]) ∧
      (¬ Resumes p tag mode calls → told.filterMap Event.step? <+: [.commit, .tag, .push]) := by
  cases h with
  | halted _ | commitRefused _ _ | commitUnnamed _ _ _ =>
    exact ⟨fun _ => List.nil_prefix, fun _ => List.nil_prefix⟩
  | tagRefused ready _ _ _ _ =>
    refine ⟨fun resumes => absurd resumes (ready.not_resumes ?_), fun _ => ⟨[.tag, .push], rfl⟩⟩
    simp [commitCall, tagCall, Repository.call]
  | @pushRefused _ _ _ resumed _ _ approach _ =>
    rw [approach.resumes_iff]
    cases resumed with
    | true => exact ⟨fun _ => List.nil_prefix, fun made => absurd rfl made⟩
    | false => exact ⟨fun found => absurd found Bool.false_ne_true, fun _ => ⟨[.push], rfl⟩⟩
  | @published _ _ _ resumed _ approach _ =>
    rw [approach.resumes_iff]
    cases resumed with
    | true => exact ⟨fun _ => List.prefix_rfl, fun made => absurd rfl made⟩
    | false => exact ⟨fun found => absurd found Bool.false_ne_true, fun _ => List.prefix_rfl⟩

/-! ## The release commit -/

/-- The release commit is made once. -/
theorem Ready.eq_of_mem (h : Ready p tag c before) {later : History} {outcome made : Git.Outcome}
    (hl : ∀ x ∈ later, x.1.action.step? ≠ some .commit)
    (hm : (p.commitCall, made) ∈ before ++ (p.commitCall, outcome) :: later) : made = outcome := by
  have idle := step?_of_preliminary h.mem_preliminary
  rcases List.mem_append.mp hm with hm | hm
  · cases idle _ hm
  · rcases List.mem_cons.mp hm with hm | hm
    · exact (Prod.mk.inj hm).2
    · exact absurd rfl (hl _ hm)

/-- A release commit before a push has been named and tagged. -/
theorem Approach.made_cases {sha : String} {resumed : Bool} {outcome : Git.Outcome}
    (h : Approach p tag c mode before sha resumed) {made : Git.Reply}
    (hm : (p.commitCall, .exited made) ∈ before ++ [(p.pushCall tag c, outcome)]) :
    ∃ looked later name,
      MadeAt p tag c (before ++ [(p.pushCall tag c, outcome)]) made looked later ∧
      looked.named? = some name ∧ Settled p tag (before ++ [(p.pushCall tag c, outcome)]) := by
  have unmade {early : History} (idle : ∀ x ∈ early, x.1.action.step? = none) :
      (p.commitCall, .exited made) ∉ early ++ [(p.pushCall tag c, outcome)] := by
    intro hm
    rcases List.mem_append.mp hm with hm | hm
    · cases idle _ hm
    · cases List.mem_singleton.mp hm
  cases h with
  | @fresh start made' found tagged ready hm' hf hne ht =>
    rw [List.append_assoc] at hm ⊢
    have later : ∀ x ∈ [(p.repository.call .head, Git.Outcome.exited found),
        (p.tagCall tag, .exited tagged), (p.pushCall tag c, outcome)],
        x.1.action.step? ≠ some .commit := by
      simp [tagCall, pushCall, Repository.call, Repository.callWith, Git.Action.step?]
    obtain ⟨⟩ := ready.eq_of_mem later hm
    refine ⟨_, _, _, ⟨start, rfl, ready.mem_preliminary⟩,
      Git.Outcome.named?_exited hf hne, Or.inl ⟨tagged, by simp, ht⟩⟩
  | found located clear _ _ =>
    refine absurd hm (unmade (List.forall_mem_append.mpr ⟨?_, ?_⟩))
    · exact step?_of_preliminary (located.append_mem_preliminary clear)
    · exact List.forall_mem_singleton.mpr rfl
  | left located clear =>
    exact absurd hm (unmade (step?_of_preliminary (located.append_mem_preliminary clear)))

/-- **After the release commit** git either names it, and then it is tagged or to be taken back, or
does not, and then the publisher fails on the spot. -/
theorem Course.made_cases {told : List Event} {r : Except PublishFailure Published}
    (h : Course p tag c mode calls told r) {made : Git.Reply}
    (hm : (p.commitCall, .exited made) ∈ calls) (hs : made.success = true) :
    (∃ looked later name, MadeAt p tag c calls made looked later ∧ looked.named? = some name ∧
        Settled p tag calls) ∨
      ∃ looked f, MadeAt p tag c calls made looked [] ∧ looked.named? = none ∧
        r = .error (.git .commit f) := by
  cases h with
  | halted halted => cases step?_of_preliminary halted.mem_preliminary _ hm
  | commitRefused ready refused =>
    rw [← ready.eq_of_mem (fun x hx => absurd hx List.not_mem_nil) hm] at refused
    exact absurd (hs.symm.trans refused) (by decide)
  | @commitUnnamed _ _ outcome _ ready _ unnamed =>
    have later : ∀ x ∈ [(p.repository.call .head, outcome)], x.1.action.step? ≠ some .commit := by
      simp [Repository.call, Git.Action.step?]
    obtain ⟨⟩ := ready.eq_of_mem later hm
    exact Or.inr ⟨_, _, ⟨_, rfl, ready.mem_preliminary⟩, unnamed, rfl⟩
  | @tagRefused before _ found outcome u _ ready _ hf hne _ =>
    have later : ∀ x ∈ [(p.repository.call .head, Git.Outcome.exited found),
        (p.tagCall tag, outcome), (p.repository.call .undoCommit, u)],
        x.1.action.step? ≠ some .commit := by
      simp [tagCall, Repository.call, Git.Action.step?]
    obtain ⟨⟩ := ready.eq_of_mem later hm
    exact Or.inl ⟨_, _, _, ⟨_, rfl, ready.mem_preliminary⟩,
      Git.Outcome.named?_exited hf hne, Or.inr ⟨u, by simp⟩⟩
  | pushRefused approach _ | published approach _ => exact Or.inl (approach.made_cases hm)

/-- If the question for its name comes last, and git does not answer it, the release commit is
unnamed and unsettled. -/
theorem MadeAt.unnamed {made : Git.Reply} {looked : Git.Outcome}
    (h : MadeAt p tag c calls made looked []) (hn : looked.named? = none) :
    ¬ Named p calls ∧ ¬ Settled p tag calls := by
  obtain ⟨before, rfl, idle⟩ := h
  have apart (x : Git.Call × Git.Outcome) (hx : x.1 ∉ p.preliminary tag c .publish)
      (hm : x ∈ before ++ [(p.commitCall, .exited made), (p.repository.call .head, looked)]) :
      x = (p.commitCall, .exited made) ∨ x = (p.repository.call .head, looked) := by
    rcases List.mem_append.mp hm with hm | hm
    · exact absurd (idle x hm) hx
    · simpa using hm
  constructor
  · rintro ⟨early, made', looked', rest, name, hc, named⟩
    rcases append_eq_append_cons hc with ⟨middle, rfl, -⟩ | ⟨middle, rfl, hc⟩
    · cases step?_of_preliminary idle (p.commitCall, made') (by simp)
    · -- The commit that git named is the last but one call, and so the one that it did not name.
      match middle, hc with
      | [], hc =>
        obtain ⟨-, rfl, rfl⟩ : _ ∧ looked = looked' ∧ _ = _ := by simpa using hc
        rw [hn] at named
        cases named
      | [_], hc => simp at hc
      | _ :: _ :: _, hc => simp at hc
  · rintro (⟨reply, tagged, -⟩ | ⟨u, undone⟩)
    · have := apart _ (by simp [preliminary, tagCall, Repository.call, Repository.callWith]) tagged
      simp [tagCall, commitCall, Repository.call] at this
    · have := apart _ (by simp [preliminary, Repository.call, Repository.callWith]) undone
      simp [commitCall, Repository.call] at this

end Courses

/-! ## A call -/

section Call
variable {p : Publisher} {tag : String} {c : Credential} {mode : Mode} {notes : List Note}

/-- A call of a publisher ends for want of a credential, before git is asked for anything, or takes
one of the courses. -/
theorem attempt_cases {r : Except PublishFailure Published}
    (h : (p.attempt mode tag).run.Yields notes r) :
    notes = [] ∧ r = .error (.credential (.credentialMissing p.provider.name)) ∨
      ∃ c, Course p tag c mode (gitCalls notes) (events notes) r := by
  rw [attempt_eq] at h
  rcases Attempt.yields_bind.mp h with ⟨f, got, rfl⟩ | ⟨c, first, rest, got, entered, rfl⟩ <;>
    rcases Attempt.yields_orElseSay.mp got with ⟨e, resolved, he⟩ | ⟨c', resolved, hc⟩ <;>
    obtain ⟨rfl, ended⟩ := CredentialProvider.resolve_cases resolved
  · obtain rfl := Except.error.inj he
    rcases ended with missing | ⟨_, ⟨⟩⟩
    obtain rfl := Except.error.inj missing
    exact Or.inl ⟨rfl, rfl⟩
  · cases hc
  · cases he
  · exact Or.inr ⟨c, course_of_yields entered⟩

/-- **A failed publisher has done what its report says.** Without a credential git is not called. A
failure at a step bounds what was tried, those who watch have been told of exactly the steps that
were made, in order, and a publisher that resumes tells of nothing but its push. -/
theorem failure_blames {r : Except PublishFailure Published}
    (h : (p.attempt mode tag).run.Yields notes r) :
    (∀ f, r = .error f →
      f.toError = .credentialMissing p.provider.name ∧ gitCalls notes = [] ∨
        ∃ step, f.toError = .publishFailure step f.reason ∧
          Blames p tag mode (gitCalls notes) step) ∧
      events notes = deeds (gitCalls notes) ∧
      (Resumes p tag mode (gitCalls notes) → (events notes).filterMap Event.step? <+: [.push]) ∧
      (¬ Resumes p tag mode (gitCalls notes) →
        (events notes).filterMap Event.step? <+: [.commit, .tag, .push]) := by
  rcases attempt_cases h with ⟨rfl, rfl⟩ | ⟨c, course⟩
  · refine ⟨?_, rfl, fun _ => List.nil_prefix, fun _ => List.nil_prefix⟩
    rintro f ⟨⟩
    exact Or.inl ⟨rfl, rfl⟩
  · refine ⟨?_, course.told_eq, course.steps_prefix⟩
    rintro f rfl
    obtain ⟨step, hf, blames⟩ := course.blames
    exact Or.inr ⟨step, PublishFailure.toError_of_step hf, blames⟩

/-- **A release commit is settled exactly if git names it.** Once it is made, it is tagged or to be
taken back if git names it right after; if not, the publisher fails at the commit and leaves it
there. -/
theorem commit_settled_iff_named {r : Except PublishFailure Published}
    (h : (p.publishWith tag c).run.Yields notes r) {made : Git.Reply}
    (hm : (p.commitCall, .exited made) ∈ gitCalls notes) (hs : made.success = true) :
    (Settled p tag (gitCalls notes) ↔ Named p (gitCalls notes)) ∧
      (¬ Named p (gitCalls notes) → ∃ f, r = .error (.git .commit f)) := by
  rcases (publishWith_course h).made_cases hm hs with
    ⟨looked, later, name, ⟨before, hc, -⟩, hn, settled⟩ | ⟨looked, f, last, hn, rfl⟩
  · have named : Named p (gitCalls notes) := ⟨before, _, looked, later, name, hc, hn⟩
    exact ⟨iff_of_true settled named, fun unnamed => absurd named unnamed⟩
  · obtain ⟨unnamed, unsettled⟩ := last.unnamed hn
    exact ⟨iff_of_false unsettled unnamed, fun _ => ⟨f, rfl⟩⟩

end Call

section Sample

/-- Git ends badly and says nothing. -/
def sampleRefusal : Git.Reply := ⟨1, [], []⟩

/-- There are changes to release, and no local tag. -/
def sampleOpening : List Note := [
  .git (sample.repository.call (.checkTagName "v1")) none (.exited sampleReply),
  .git (sample.repository.call .addAll) none (.exited sampleReply),
  .git (sample.repository.call .compareIndex) none (.exited sampleRefusal),
  .git (sample.repository.call (.tagTarget "v1")) none (.exited sampleRefusal),
  .git sample.commitCall none (.exited sampleReply)]

/-- The tag of a release commit is refused. -/
def untaggedNotes : List Note := sampleOpening ++ [
  .git (sample.repository.call .head) none (.exited sampleReply),
  .event (.publishStep .commit "a"),
  .git (sample.tagCall "v1") none (.exited sampleRefusal),
  .git (sample.repository.call .undoCommit) none (.exited sampleReply)]

/-- A release commit is made, but git does not name it. -/
def unnamedNotes : List Note := sampleOpening ++ [
  .git (sample.repository.call .head) none (.exited sampleRefusal)]

theorem unnamedNotes_yields : (sample.publishWith "v1" ⟨"secret"⟩).run.Yields unnamedNotes
    (.error (.git .commit (.refused "git rev-parse HEAD" []))) :=
  ⟨none, .exited sampleReply, _, rfl, none, .exited sampleReply, _, rfl, none,
    .exited sampleRefusal, _, rfl, none, .exited sampleRefusal, _, rfl, none, .exited sampleReply,
    _, rfl, none, .exited sampleRefusal, _, rfl, rfl, rfl⟩

theorem untaggedNotes_yields : (sample.attempt .publish "v1").run.Yields untaggedNotes
    (.error (.git .tag (.refused "git tag" []))) := by
  refine ⟨none, .exited sampleReply, _, rfl, none, .exited sampleReply, _, rfl, none,
    .exited sampleRefusal, _, rfl, none, .exited sampleRefusal, _, rfl, none, .exited sampleReply,
    _, rfl, none, .exited sampleReply, _, rfl, ?_⟩
  have good : sampleReply.success = true := rfl
  simp only [Script.bind, ExceptT.bindCont, Function.comp, good, sampleReply_text, if_true,
    String.reduceEq, if_false, pure, ExceptT.pure, ExceptT.mk]
  exact ⟨_, rfl, none, .exited sampleRefusal, _, rfl, none, .exited sampleReply, _, rfl, rfl, rfl⟩

/-- A tag that is refused, after which the commit is to be taken back. -/
theorem failure_blames_untagged :
    (sample.attempt .publish "v1").run.Yields untaggedNotes
        (.error (.git .tag (.refused "git tag" []))) ∧
      events untaggedNotes = deeds (gitCalls untaggedNotes) ∧
      Blames sample "v1" .publish (gitCalls untaggedNotes) .tag := by
  obtain ⟨blamed, told, -⟩ := failure_blames untaggedNotes_yields
  refine ⟨untaggedNotes_yields, told, ?_⟩
  rcases blamed _ rfl with ⟨missing, -⟩ | ⟨step, reported, blames⟩
  · cases missing
  · cases reported
    exact blames

/-- Git names the release commit, so that it is settled. -/
theorem commit_settled_untagged :
    (sample.commitCall, .exited sampleReply) ∈ gitCalls untaggedNotes ∧
      Settled sample "v1" (gitCalls untaggedNotes) := by
  have made : (sample.commitCall, .exited sampleReply) ∈ gitCalls untaggedNotes :=
    List.mem_of_elem_eq_true rfl
  have entered : (sample.publishWith "v1" ⟨"secret"⟩).run.Yields untaggedNotes
      (.error (.git .tag (.refused "git tag" []))) := untaggedNotes_yields
  have text : (Git.Outcome.exited sampleReply).named? = some sampleReply.text :=
    Git.Outcome.named?_exited rfl (by rw [sampleReply_text]; decide)
  have named : Named sample (gitCalls untaggedNotes) :=
    ⟨(gitCalls untaggedNotes).take 4, _, _, (gitCalls untaggedNotes).drop 6, _, rfl, text⟩
  exact ⟨made, (commit_settled_iff_named entered made rfl).1.mpr named⟩

/-- **A release commit can be left behind** without a tag: it is made, git does not name it, and the
publisher neither tags it nor takes it back. -/
theorem commit_left_behind : ¬ ∀ (p : Publisher) (tag : String) (c : Credential)
    (notes : List Note) (r : Except PublishFailure Published) (made : Git.Reply),
    (p.publishWith tag c).run.Yields notes r → (p.commitCall, .exited made) ∈ gitCalls notes →
      made.success = true → Settled p tag (gitCalls notes) := by
  intro all
  have made : (sample.commitCall, .exited sampleReply) ∈ gitCalls unnamedNotes :=
    List.mem_of_elem_eq_true rfl
  have last : MadeAt sample "v1" ⟨"secret"⟩ (gitCalls unnamedNotes) sampleReply
      (.exited sampleRefusal) [] :=
    ⟨(gitCalls unnamedNotes).take 4, rfl, by decide⟩
  exact (last.unnamed rfl).2
    (all sample "v1" ⟨"secret"⟩ unnamedNotes _ sampleReply unnamedNotes_yields made rfl)

end Sample

end Publisher
end GatedRelease
