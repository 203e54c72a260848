import GatedRelease.Proofs.Git.Arguments
import GatedRelease.Proofs.Plan.HandOver
import GatedRelease.Proofs.Publish.Guard
import GatedRelease.Proofs.Run.Phases

/-! # The calls of git that a release makes

Whatever it is answered, a publisher calls git with actions whose texts are the tag and its own
settings (`Publisher.Course.prescribed`), and so does a release with its configuration
(`Plan.prescribed_carryOut`): the arguments of every call are a template with these texts filled in,
and a tag that is pushed is the very text that git took for a name before.  The credential is none
of the texts.
-/
namespace GatedRelease
open Git (History Texts)

/-! ## The texts of a user -/

/-- The texts that work in a checkout is done with. -/
def Repository.texts (r : Repository) (message : String) (who : Identity) (tag : String) : Texts
  | .tag => tag
  | .branch => r.branch
  | .remoteUrl => r.remoteUrl
  | .checkout => r.checkout
  | .commitMessage => message
  | .committerName => who.name
  | .committerEmail => who.email

/-- The texts that a publisher works with. -/
def Publisher.texts (p : Publisher) (tag : String) : Texts :=
  p.repository.texts p.settings.commitMessage p.settings.identity tag

/-- The texts that a release is configured with. -/
def Config.texts (c : Config) (tag : String) : Texts :=
  c.repository.texts c.target.commitMessage ⟨c.target.committerName, c.target.committerEmail⟩ tag

/-- **The calls are prescribed** but for the texts of a user. -/
structure Prescribed (x : Texts) (calls : History) : Prop where
  /-- The arguments of each call are a template with the texts filled in. -/
  formed : ∀ y ∈ calls, ∃ words ∈ Git.templates, y.1.action.arguments = Git.fill x words
  /-- What is pushed was taken by git for the name of a tag before, in the same directory and to the
  letter. -/
  vetted : ∀ before y after, calls = before ++ y :: after → y.1.action.isPush = true →
    ∃ z ∈ before, ∃ ref, z.1.directory = y.1.directory ∧
      z.1.action.arguments = ["check-ref-format", ref] ∧ z.2.succeeded = true ∧
      y.1.action.arguments.getLast? = some ref

namespace Prescribed
variable {x : Texts} {first second : History}

theorem nil : Prescribed x [] := ⟨nofun, fun _ _ _ h => absurd h (by simp)⟩

theorem append (h : Prescribed x first) (h' : Prescribed x second) :
    Prescribed x (first ++ second) := by
  refine ⟨List.forall_mem_append.mpr ⟨h.formed, h'.formed⟩, fun before y after split push => ?_⟩
  rcases append_eq_append_cons split with ⟨rest, here, -⟩ | ⟨rest, rfl, there⟩
  · exact h.vetted before y rest here push
  · obtain ⟨z, hz, vetted⟩ := h'.vetted rest y after there push
    exact ⟨z, List.mem_append_right _ hz, vetted⟩

/-- Calls with the texts of a user, none of which pushes. -/
theorem of_actions (h : ∀ y ∈ first, y.1.action ∈ Git.actions x)
    (quiet : ∀ y ∈ first, y.1.action.isPush = false) : Prescribed x first := by
  refine ⟨fun y hy => Git.exists_template (h y hy), ?_⟩
  rintro before y after rfl push
  have unpushed := quiet y (by simp)
  exact absurd (unpushed.symm.trans push) nofun

end Prescribed

/-- The request is for no call of git but one that pushes nothing, with the texts of a user. -/
def Request.Preparatory (x : Texts) : Request → Prop
  | .git call => call.action ∈ Git.actions x ∧ call.action.isPush = false
  | _ => True

theorem prescribed_of_uses {α : Type} {x : Texts} {s : Script α} {notes : List Note} {a : α}
    (hs : s.Uses (Request.Preparatory x)) (h : s.Yields notes a) :
    Prescribed x (gitCalls notes) := by
  have asked : ∀ y ∈ gitCalls notes, y.1.action ∈ Git.actions x ∧ y.1.action.isPush = false := by
    intro y hy
    obtain ⟨place, told⟩ := mem_gitCalls.mp hy
    exact hs.note h _ told
  exact .of_actions (fun y hy => (asked y hy).1) fun y hy => (asked y hy).2

/-! ## Publishing -/

namespace Publisher
variable {p : Publisher} {tag : String} {c : Credential} {mode : Mode} {calls : History}

/-- The calls that make a release and send it off, or take it back. -/
def making (p : Publisher) (tag : String) (c : Credential) : List Git.Call :=
  [p.commitCall, p.repository.call .head, p.tagCall tag, p.repository.call .undoCommit,
    p.pushCall tag c]

/-- All that a publisher calls git with has the texts of the publisher. -/
theorem mem_actions_of_mem {call : Git.Call}
    (h : call ∈ p.preliminary tag c mode ++ p.making tag c) :
    call.action ∈ Git.actions (p.texts tag) := by
  cases mode <;>
    simp only [preliminary, making, List.mem_append, List.mem_cons, List.not_mem_nil, or_false] at h
  · rcases h with (rfl | rfl | rfl | rfl | rfl | rfl) | rfl | rfl | rfl | rfl | rfl <;>
      simp [Git.actions, Repository.call, Repository.callWith, texts, Repository.texts, commitCall,
        tagCall, pushCall]
  · rcases h with (rfl | rfl | rfl | rfl) | rfl | rfl | rfl | rfl | rfl <;>
      simp [Git.actions, Repository.call, Repository.callWith, texts, Repository.texts, commitCall,
        tagCall, pushCall]

section Calls
variable {before : History}

theorem mem_calls_of_preliminary (h : ∀ y ∈ before, y.1 ∈ p.preliminary tag c mode) :
    ∀ y ∈ before, y.1 ∈ p.preliminary tag c mode ++ p.making tag c :=
  fun y hy => List.mem_append_left _ (h y hy)

theorem Approach.mem_calls {sha : String} {resumed : Bool}
    (h : Approach p tag c mode before sha resumed) :
    ∀ y ∈ before, y.1 ∈ p.preliminary tag c mode ++ p.making tag c := by
  cases h with
  | fresh ready _ _ _ _ =>
    exact List.forall_mem_append.mpr
      ⟨mem_calls_of_preliminary ready.mem_preliminary, by simp [making]⟩
  | found located clear _ _ =>
    exact List.forall_mem_append.mpr
      ⟨mem_calls_of_preliminary (located.append_mem_preliminary clear), by simp [making]⟩
  | left located clear => exact mem_calls_of_preliminary (located.append_mem_preliminary clear)

/-- **All that a publisher calls git with.** -/
theorem Course.mem_calls {told : List Event} {r : Except PublishFailure Published}
    (h : Course p tag c mode calls told r) :
    ∀ y ∈ calls, y.1 ∈ p.preliminary tag c mode ++ p.making tag c := by
  cases h with
  | halted halted => exact mem_calls_of_preliminary halted.mem_preliminary
  | commitRefused ready _ | commitUnnamed ready _ _ | tagRefused ready _ _ _ _ =>
    exact List.forall_mem_append.mpr
      ⟨mem_calls_of_preliminary ready.mem_preliminary, by simp [making]⟩
  | pushRefused approach _ | published approach _ =>
    exact List.forall_mem_append.mpr ⟨approach.mem_calls, by simp [making]⟩

end Calls

/-- **The calls of a publisher are prescribed.** -/
theorem Course.prescribed {told : List Event} {r : Except PublishFailure Published}
    (h : Course p tag c mode calls told r) : Prescribed (p.texts tag) calls := by
  refine ⟨fun y hy => Git.exists_template (mem_actions_of_mem (h.mem_calls y hy)), ?_⟩
  rintro before y after split push
  rcases h.push_cases with ⟨quiet, -⟩ | ⟨early, sha, resumed, outcome, rfl, approach, -⟩
  · have unpushed := quiet y (by simp [split])
    exact absurd (unpushed.symm.trans push) nofun
  · -- The push is the last call, and what comes before it guards it.
    obtain ⟨rfl, rfl, rfl⟩ := eq_of_append_last (P := fun y => y.1.action.isPush = true)
      (fun z hz => by simp [approach.isPush z hz]) push split
    obtain ⟨reply, named, good⟩ := approach.guarded.named
    exact ⟨_, named, Git.tagRef tag, rfl, rfl, good, rfl⟩

theorem prescribed_attempt {notes : List Note} {r : Except PublishFailure Published}
    (h : (p.attempt mode tag).run.Yields notes r) : Prescribed (p.texts tag) (gitCalls notes) := by
  rcases attempt_cases h with ⟨rfl, -⟩ | ⟨c, course⟩
  · exact .nil
  · exact course.prescribed

end Publisher

/-! ## Stages -/

/-- Whatever it is answered, the stage calls git as is prescribed, and keeps the tag. -/
def Stage.Prescribes (x : Texts) (s : Stage) : Prop :=
  ∀ ctx notes a, ctx.tag = x .tag → (s.action.execute ctx).Yields notes a →
    Prescribed x (gitCalls notes) ∧ a.2.tag = x .tag

namespace Run
variable {x : Texts} {before stages : List Stage} {ctx : Context} {notes : List Note} {e : Ending}

theorem gitCalls_visited (position : Nat) (s : Stage) (ctx : Context) (own : List Note)
    (success : Bool) :
    gitCalls ((visited position s ctx own success).flatMap Act.notes) = gitCalls own := by
  simp [visited, Act.notes, gitCalls, List.filterMap_cons, Note.call?]

theorem gitCalls_tell (told : List Event) :
    gitCalls ((told.map Act.tell).flatMap Act.notes) = [] := by
  induction told with
  | nil => rfl
  | cons e told ih => exact ih

/-- **Going through stages calls git as is prescribed**, if each of them does. -/
theorem prescribed_advance (pending : ∀ s ∈ stages, s.status = .pending)
    (h : ∀ s ∈ stages, s.Prescribes x) (tag : ctx.tag = x .tag)
    (way : (advance before ctx stages).Yields notes e) : Prescribed x (gitCalls notes) := by
  -- Each stage hands on a context with the tag, so that the last one publishes under it.
  induction stages generalizing before ctx notes with
  | nil =>
    obtain ⟨rfl, -⟩ := way
    exact .nil
  | cons s later ih =>
    obtain ⟨fresh, unstarted⟩ := List.forall_mem_cons.mp pending
    obtain ⟨here, there⟩ := List.forall_mem_cons.mp h
    cases turn_of_advance way with
    | cancelled | unmet => exact .nil
    | @executed ended a _ second _ executed followed =>
      obtain ⟨own, yields, -, rfl⟩ := yields_execute fresh executed
      obtain ⟨prescribed, kept⟩ := here ctx own a tag yields
      rw [gitCalls_append, gitCalls_visited]
      refine prescribed.append ?_
      obtain ⟨result, ctx'⟩ := a
      cases result with
      | error _ =>
        obtain ⟨rfl, -⟩ := followed
        exact .nil
      | ok _ => exact ih unstarted there kept followed

/-- The same of a whole run. -/
theorem prescribed_run {release : Release} {r : RunReport}
    (pending : ∀ s ∈ stages, s.status = .pending) (h : ∀ s ∈ stages, s.Prescribes x)
    (tag : release.tag = x .tag) (way : (run release stages).Yields notes r) :
    Prescribed x (gitCalls notes) := by
  have start : (Context.start release.tag).tag = x .tag := tag
  obtain ⟨_, rfl, rest⟩ := way
  obtain ⟨e, first, second, gone, concluded, rfl⟩ := Script.yields_bind.mp
    (show ((advance [] (.start release.tag) stages).bind (conclude release)).Yields _ r from rest)
  obtain ⟨-, told, rfl⟩ := yields_conclude concluded
  rw [gitCalls_event, gitCalls_append, gitCalls_tell, List.append_nil]
  exact prescribed_advance pending h start gone

end Run

namespace Plan
variable (c : Config) (provider : CredentialProvider) (tag : String)

/-- The stages before publishing keep the tag. -/
theorem tag_of_preparation {s : Stage} (hs : s ∈ preparation c) {ctx : Context} {notes : List Note}
    {a : Except ReleaseError Unit × Context} (h : (s.action.execute ctx).Yields notes a) :
    a.2.tag = ctx.tag := by
  simp only [preparation, List.mem_cons, List.mem_map] at hs
  rcases hs with rfl | rfl | ⟨suite, -, rfl⟩
  · rcases Build.action_ends h with ⟨reason, rfl⟩ | rfl <;> rfl
  · cases found : ctx.artifact with
    | none =>
      have unstaged : (stagingStage c).action.execute ctx =
          .done (.error StagingFailure.noArtifact.toError, ctx) := by
        show (Staging.action c.repository).execute ctx = _
        simp [Staging.action, found]
      rw [unstaged] at h
      obtain ⟨-, rfl⟩ := h
      rfl
    | some artifact =>
      rcases Staging.action_ends found h with ⟨f, -, rfl⟩ | ⟨staged, rfl⟩ <;> rfl
  · rcases Gate.action_ends h with ⟨details, rfl⟩ | rfl <;> rfl

theorem prescribes_preparation {s : Stage} (hs : s ∈ preparation c) :
    s.Prescribes (c.texts tag) := by
  intro ctx notes a ht h
  have asks : (s.action.execute ctx).Uses (Request.Preparatory (c.texts tag)) := by
    refine uses_preparation ?top ?cloning ?_ ?_ ?_ (fun _ => ?_) hs ctx
    case top => exact ⟨by simp [Git.actions], rfl⟩
    case cloning =>
      exact ⟨by simp [Git.actions, Config.texts, Repository.texts, Config.repository], rfl⟩
    all_goals trivial
  exact ⟨prescribed_of_uses asks h, (tag_of_preparation c hs h).trans ht⟩

theorem prescribes_publishStage : (publishStage c provider).Prescribes (c.texts tag) := by
  intro ctx notes a ht h
  obtain ⟨r, attempted, rfl⟩ := Publisher.attempted_of_action h
  have texts : (publisher c provider).texts ctx.tag = c.texts tag := by
    rw [ht]
    rfl
  rw [← texts]
  refine ⟨Publisher.prescribed_attempt attempted, ?_⟩
  cases r <;> rfl

/-- **The stages of a release call git as is prescribed.** -/
theorem prescribes_stages : ∀ s ∈ stages c provider, s.Prescribes (c.texts tag) := by
  intro s hs
  obtain ⟨t, ht, same, -⟩ := Stage.exists_of_mem_linearAfter hs
  unfold Stage.Prescribes
  rw [same]
  rcases List.mem_append.mp ht with prepared | published
  · exact prescribes_preparation c tag prepared
  · rw [List.mem_singleton.mp published]
    exact prescribes_publishStage c provider tag

end Plan

/-! ## What git is called with -/

section Whole
variable {notes : List Note}

/-- Finding out what is released asks git two questions without any text of a user. -/
theorem Release.prescribed_identify {tag directory : String} {names : List String}
    {release : Release} (h : (identify tag directory names).Yields notes release) (x : Texts) :
    Prescribed x (gitCalls notes) := by
  refine prescribed_of_uses (x := x) (uses_identify ?_ ?_ ?_) h
  · exact ⟨by simp [Git.actions], rfl⟩
  · exact ⟨by simp [Git.actions], rfl⟩
  · trivial

/-- What is released has the tag that it was to be. -/
theorem Release.tag_of_identify {tag directory : String} {names : List String} {release : Release}
    (h : (identify tag directory names).Yields notes release) : release.tag = tag := by
  obtain ⟨sha, first, second, -, ⟨-, rfl⟩, -⟩ := Script.yields_bind.mp h
  rfl

/-- **The calls of a release are prescribed.** -/
theorem Plan.prescribed_carryOut {c : Config} {tag : String} {provider : CredentialProvider}
    {r : RunReport} (h : (carryOut c tag provider).Yields notes r) :
    Prescribed (c.texts tag) (gitCalls notes) := by
  obtain ⟨release, first, second, identified, ran, rfl⟩ := Script.yields_bind.mp h
  have named : release.tag = (c.texts tag) .tag := Release.tag_of_identify identified
  rw [gitCalls_append]
  exact (Release.prescribed_identify identified _).append
    (Run.prescribed_run stages_pending (prescribes_stages c provider tag) named ran)

/-- **No text of a user is read as an option by git.** Git is called with finitely many templates,
in which the texts of a user are sheltered, so that the options that git reads do not depend on
them. Whatever the configuration, the tag, the files, the variables, git and the runner are, all
calls of a release, of a publisher, and of the search for what is released are formed from them
with texts that the credential is none of; and a tag that is pushed is the very text that git took
for a name. -/
theorem calls_prescribed :
    (∀ words ∈ Git.templates, Git.Sheltered words ∧
      ∀ x y, Git.options (Git.fill x words) = Git.options (Git.fill y words)) ∧
    ∀ {σ : Type} (o : Outside σ) (w : World σ),
      (∀ c tag provider, Prescribed (c.texts tag)
        (gitCalls ((Plan.carryOut c tag provider).play o w).notes)) ∧
      (∀ (p : Publisher) mode tag, Prescribed (p.texts tag)
        (gitCalls ((p.attempt mode tag).run.play o w).notes)) ∧
      ∀ tag directory names x, Prescribed x
        (gitCalls ((Release.identify tag directory names).play o w).notes) := by
  refine ⟨fun words listed => ?_, fun o w => ⟨?_, ?_, ?_⟩⟩
  · have sheltered := Git.sheltered_templates words listed
    exact ⟨sheltered, sheltered.options_eq⟩
  · intro c tag provider
    exact Plan.prescribed_carryOut (Script.yields_play o _ w)
  · intro p mode tag
    exact Publisher.prescribed_attempt (Script.yields_play o _ w)
  · intro tag directory names x
    exact Release.prescribed_identify (Script.yields_play o _ w) x

end Whole
end GatedRelease
