import GatedRelease.Proofs.Publish.Footprint
import GatedRelease.Proofs.Publish.Resumption
import GatedRelease.Proofs.Script.Performance
import Mathlib.Control.Monad.Basic

/-! # Publishing can be taken up again

Calls of publishers follow one another in one clone, in any number, each to publish or to resume,
under any tag and with any settings, and between two calls the work tree may change in any way
(`Runs`).  Git is lawful, and may refuse each commit, tag and push, and leave each question to the
remote unanswered.

Then nothing gets lost between clone and remote (`Recoverable`).  The remote changes only in a call
that reports so, and holds then what was reported; a call that fails has a reason, and leaves the
clone as it was, or with a release that only waits for its push; no tag is ever moved; `HEAD` is
never a commit that a publisher made and that has no tag.  A release that waits is what both ways to
publish take it for: until another one is made, a call under its tag pushes it, or something outside
the clone stood in the way.
-/
namespace GatedRelease.Publisher
open Git (View Clone)

/-- Publishes or resumes. -/
def attempt (p : Publisher) : Mode → String → Attempt PublishFailure Published
  | .publish, tag => p.publish tag
  | .resume, tag => p.resume tag

/-- Both ways to publish ask for the credential first. -/
theorem attempt_eq (p : Publisher) (mode : Mode) (tag : String) :
    p.attempt mode tag = p.credential >>= fun c => p.enter mode tag c := by
  cases mode <;> rfl

/-- Publishing as the work of a stage is one call of the publisher. -/
theorem attempted_of_action {p : Publisher} {ctx : Context} {notes : List Note}
    {a : Except ReleaseError Unit × Context} (h : (p.action.execute ctx).Yields notes a) :
    ∃ r, (p.attempt .publish ctx.tag).run.Yields notes r ∧
      a = match r with
        | .ok x => (.ok (), { ctx with published := some x })
        | .error f => (.error f.toError, ctx) := by
  obtain ⟨r, first, second, ran, ended, rfl⟩ := Script.yields_bind.mp h
  cases r <;> obtain ⟨rfl, rfl⟩ := ended <;> rw [List.append_nil] <;> exact ⟨_, ran, rfl⟩

theorem uses_attempt {σ T : Type} {g : View σ T} {p : Publisher} {mode : Mode} {tag : String}
    (hc : p.repository.checkout = g.checkout) : (p.attempt mode tag).run.Uses g.Permits := by
  rw [attempt_eq]
  exact Attempt.uses_bind (uses_credential fun _ => trivial) fun c =>
    uses_enter (fun _ h _ => ⟨hc, h⟩) (fun _ h _ => ⟨hc, h⟩) trivial

/-- A call of a publisher, with the world that it starts in. -/
structure Call (σ : Type) where
  publisher : Publisher
  mode : Mode
  tag : String
  start : World σ

namespace Call
variable {σ T : Type} (g : View σ T) (o : Outside σ) (e : Call σ)

/-- What the call leaves. -/
def played : Played σ (Except PublishFailure Published) :=
  (e.publisher.attempt e.mode e.tag).run.play o e.start

/-- What the call reports. -/
def result : Except PublishFailure Published := (e.played o).value

/-- The credential that is there for the call. -/
def credential : Except PublishFailure Credential :=
  (e.publisher.credential.run.play o e.start).value

/-- The clone before the call. -/
def before : Clone T := g.clone e.start.outside

/-- The clone after the call. -/
def after : Clone T := g.clone (e.played o).world.outside

/-- What the work tree holds at the call. -/
def held : T := g.holds e.start.files

/-- The push of the call failed, and nothing before it. -/
def IsUnpushed : Prop := ∃ branch tag f, e.result o = .error (.push branch tag f)

/-- The call makes no release, but one of this tag. -/
def Spares (tag : String) : Prop :=
  e.mode = .resume ∨ e.tag = tag ∨ e.held g = g.contents (e.before g).head

/-- **The call failed for a reason.** -/
inductive Justified : PublishFailure → Prop
  | credential {f : PublishFailure} : e.credential o = .error f → Justified f
  | reason {c : Credential} {f : PublishFailure} : e.credential o = .ok c →
      Reason g e.publisher e.tag c (e.held g) (e.before g) (gitCalls (e.played o).notes) e.mode
        f → Justified f

/-- **Something stood in the way of the call**, if a release was left for it. -/
inductive Hindered : PublishFailure → Prop
  | credential {f : PublishFailure} : e.credential o = .error f → Hindered f
  | hindrance {c : Credential} {f : PublishFailure} : e.credential o = .ok c →
      Hindrance g e.publisher e.tag c (e.held g) (e.before g) (gitCalls (e.played o).notes) e.mode
        f → Hindered f

end Call

/-- **Calls in one clone**, from one world to another.  Between calls everything may change but the
clone; even the index may. -/
inductive Runs {σ T : Type} (g : View σ T) (o : Outside σ) (w : World σ) :
    List (Call σ) → World σ → Prop
  | start : Runs g o w [] w
  | edited {past : List (Call σ)} {v u : World σ} {index : T} : Runs g o w past v →
      g.clone u.outside = { g.clone v.outside with index := index } → Runs g o w past u
  | called {past : List (Call σ)} {e : Call σ} : Runs g o w past e.start →
      e.publisher.repository.checkout = g.checkout →
      Runs g o w (past ++ [e]) (e.played o).world

section Outcome
variable {T : Type} (k after : Clone T)

/-- `HEAD` and all tags are where they were. -/
def Unmoved : Prop := after.head = k.head ∧ after.tags = k.tags

/-- **A release was made**: a commit on top of `HEAD` that holds the work tree, with a tag that was
missing, and no other change. -/
structure Made {σ : Type} (g : View σ T) (tag : String) (held : T) : Prop where
  parent : g.parent after.head = some k.head
  contents : g.contents after.head = held
  missing : k.tags tag = none
  tags : after.tags = Function.update k.tags tag (some after.head)

/-- **The report of a success is true**: what it names is `HEAD` and has the tag, the remote has
received it and nothing else, and it is said whether it was made or was there. -/
structure Reported {σ : Type} (g : View σ T) (p : Publisher) (mode : Mode) (tag : String) (held : T)
    (r : Published) : Prop where
  commit : r.commitSha = after.head
  named : r.tag = tag
  branch : r.branch = p.repository.branch
  target : after.tags tag = some r.commitSha
  remote : after.remote = k.remote.receive r.branch r.commitSha r.tag r.commitSha
  absent : p.settings.rejectExistingTag = true → k.remote.tags tag = none
  resumed : r.resumed = true → Unmoved k after
  made : r.resumed = false → mode = .publish ∧ Made k after g tag held

end Outcome

/-- **What can be relied on after calls in one clone.** -/
structure Recoverable {σ T : Type} (g : View σ T) (o : Outside σ) (w : World σ)
    (past : List (Call σ)) (v : World σ) : Prop where
  /-- The remote changes only in a call that reports success. -/
  remote : ∀ e ∈ past, (e.after g o).remote ≠ (e.before g).remote → ∃ r, e.result o = .ok r
  /-- All in all, a tag or a branch of the remote changes only in a call that reports it. -/
  refs : ∀ name, ((g.clone v.outside).remote.tags name = (g.clone w.outside).remote.tags name ∨
      ∃ e ∈ past, ∃ r, e.result o = .ok r ∧ r.tag = name) ∧
    ((g.clone v.outside).remote.branches name = (g.clone w.outside).remote.branches name ∨
      ∃ e ∈ past, ∃ r, e.result o = .ok r ∧ r.branch = name)
  /-- What is reported is true. -/
  published : ∀ e ∈ past, ∀ r, e.result o = .ok r →
    Reported (e.before g) (e.after g o) g e.publisher e.mode e.tag (e.held g) r
  /-- A call fails only for a reason. -/
  justified : ∀ e ∈ past, ∀ f, e.result o = .error f → e.Justified g o f
  /-- A call that fails before its push leaves `HEAD` and all tags. -/
  failed : ∀ e ∈ past, ∀ f, e.result o = .error f → ¬ e.IsUnpushed o →
    Unmoved (e.before g) (e.after g o)
  /-- A call whose push failed leaves a release: one that was there, or one of its own. -/
  unpushed : ∀ e ∈ past, e.IsUnpushed o → Left g e.tag (e.after g o) (e.after g o).head ∧
    (Unmoved (e.before g) (e.after g o) ∨
      e.mode = .publish ∧ Made (e.before g) (e.after g o) g e.tag (e.held g))
  /-- No tag is moved or lost. -/
  tags : ∀ tag commit, (g.clone w.outside).tags tag = some commit →
    (g.clone v.outside).tags tag = some commit
  /-- `HEAD` is where it was, or a commit with the tag of one of the calls. -/
  head : (g.clone v.outside).head = (g.clone w.outside).head ∨
    ∃ e ∈ past, e.mode = .publish ∧
      (g.clone v.outside).tags e.tag = some (g.clone v.outside).head
  /-- A release whose push failed waits until another one is made, and the next call under its tag
  pushes it, unless something stands in the way. -/
  recovery : ∀ early e later, past = early ++ e :: later → e.IsUnpushed o →
    (∀ l ∈ later, l.Spares g e.tag) →
    Left g e.tag (g.clone v.outside) (e.after g o).head ∧
      ∀ n : Call σ, n.start = v → n.publisher.repository.checkout = g.checkout → n.tag = e.tag →
        n.result o = .ok ⟨e.tag, (e.after g o).head, n.publisher.repository.branch, true⟩ ∨
          ∃ f, n.result o = .error f ∧ n.Hindered g o f

/-! ## What an effect says -/

section Effect
variable {σ T : Type} {g : View σ T} {p : Publisher} {tag : String} {held : T} {k after : Clone T}
  {mode : Mode} {r : Except PublishFailure Published}

theorem Poised.remote {m : Clone T} {resumed : Bool} (h : Poised g tag held k mode m resumed) :
    m.remote = k.remote := by
  cases h <;> rfl

theorem Poised.takes {m : Clone T} {resumed : Bool} (h : Poised g tag held k mode m resumed) :
    g.takes tag := by
  cases h with
  | fresh takes _ _ _ _ | found takes _ _ => exact takes

theorem Poised.left {m : Clone T} {resumed : Bool} (h : Poised g tag held k mode m resumed) :
    Left g tag m m.head :=
  ⟨h.takes, rfl, h.tag_head⟩

/-- Tagging a release moves no tag. -/
theorem Poised.tags {m : Clone T} {resumed : Bool} (h : Poised g tag held k mode m resumed)
    {other commit : String} (ht : k.tags other = some commit) : m.tags other = some commit := by
  cases h with
  | fresh _ missing _ _ _ =>
    have distinct : other ≠ tag := by
      rintro rfl
      rw [missing] at ht
      cases ht
    show Function.update k.tags tag _ other = some commit
    rw [Function.update_of_ne distinct]
    exact ht
  | found _ _ _ => exact ht

/-- `HEAD` moves only to a commit that is tagged. -/
theorem Poised.head {m : Clone T} {resumed : Bool} (h : Poised g tag held k mode m resumed) :
    m.head = k.head ∨ mode = .publish ∧ m.tags tag = some m.head := by
  cases h with
  | fresh _ _ _ _ _ => exact Or.inr ⟨rfl, Function.update_self ..⟩
  | found _ _ _ => exact Or.inl rfl

/-- A release is made on top of one only under another tag, and where there are changes. -/
theorem Poised.spared {m : Clone T} {resumed : Bool} (h : Poised g tag held k mode m resumed)
    {other : String} (left : Left g other k k.head)
    (spares : mode = .resume ∨ tag = other ∨ held = g.contents k.head) : m.head = k.head := by
  cases h with
  | fresh _ missing differs _ _ =>
    -- A release is made neither by resuming, nor under a tag that is there, nor without changes.
    rcases spares with ⟨⟨⟩⟩ | rfl | same
    · rw [left.target] at missing
      cases missing
    · exact absurd same differs
  | found _ _ _ => rfl

/-- A call leaves all but the index, or leaves a release. -/
theorem Effect.cases (h : Effect g p tag held k mode after r) :
    (∃ index, after = { k with index := index }) ∨
      ∃ m resumed remote, Poised g tag held k mode m resumed ∧
        after = { m with remote := remote } := by
  cases h with
  | kept _ => exact Or.inl ⟨_, rfl⟩
  | unpushed poised => exact Or.inr ⟨_, _, _, poised, rfl⟩
  | published poised _ => exact Or.inr ⟨_, _, _, poised, rfl⟩

theorem Effect.tags (h : Effect g p tag held k mode after r) {other commit : String}
    (ht : k.tags other = some commit) : after.tags other = some commit := by
  rcases h.cases with ⟨index, rfl⟩ | ⟨m, resumed, remote, poised, rfl⟩
  · exact ht
  · exact poised.tags ht

theorem Effect.head (h : Effect g p tag held k mode after r) :
    after.head = k.head ∨ mode = .publish ∧ after.tags tag = some after.head := by
  rcases h.cases with ⟨index, rfl⟩ | ⟨m, resumed, remote, poised, rfl⟩
  · exact Or.inl rfl
  · exact poised.head

/-- A release that is left stays, unless another one is made. -/
theorem Effect.left (h : Effect g p tag held k mode after r) {other commit : String}
    (left : Left g other k commit)
    (spares : mode = .resume ∨ tag = other ∨ held = g.contents k.head) :
    Left g other after commit := by
  obtain ⟨takes, rfl, target⟩ := left
  refine ⟨takes, ?_, h.tags target⟩
  rcases h.cases with ⟨index, rfl⟩ | ⟨m, resumed, remote, poised, rfl⟩
  · rfl
  · exact poised.spared ⟨takes, rfl, target⟩ spares

theorem Effect.remote (h : Effect g p tag held k mode after r) (moved : after.remote ≠ k.remote) :
    ∃ x, r = .ok x := by
  cases h with
  | kept _ => exact absurd rfl moved
  | unpushed poised => exact absurd poised.remote moved
  | published _ _ => exact ⟨_, rfl⟩

/-- A release that is there was there, or was made. -/
theorem Poised.origin {m : Clone T} {resumed : Bool} (h : Poised g tag held k mode m resumed) :
    (resumed = true → Unmoved k m) ∧ (resumed = false → mode = .publish ∧ Made k m g tag held) := by
  cases h with
  | fresh _ missing _ parent contents =>
    exact ⟨nofun, fun _ => ⟨rfl, parent, contents, missing, rfl⟩⟩
  | found _ _ _ => exact ⟨fun _ => ⟨rfl, rfl⟩, nofun⟩

/-- A tag or a branch of the remote stays, or is reported. -/
theorem Effect.refs (h : Effect g p tag held k mode after r) (name : String) :
    (after.remote.tags name = k.remote.tags name ∨ ∃ x, r = .ok x ∧ x.tag = name) ∧
      (after.remote.branches name = k.remote.branches name ∨ ∃ x, r = .ok x ∧ x.branch = name) := by
  cases h with
  | kept _ => exact ⟨Or.inl rfl, Or.inl rfl⟩
  | unpushed poised =>
    rw [poised.remote]
    exact ⟨Or.inl rfl, Or.inl rfl⟩
  | published poised _ =>
    -- Until the push the remote is the one that was found.
    rw [← poised.remote]
    constructor
    · by_cases hn : name = tag
      · exact Or.inr ⟨_, rfl, hn.symm⟩
      · exact Or.inl (Function.update_of_ne hn _ _)
    · by_cases hn : name = p.repository.branch
      · exact Or.inr ⟨_, rfl, hn.symm⟩
      · exact Or.inl (Function.update_of_ne hn _ _)

theorem Effect.reported {x : Published} (h : Effect g p tag held k mode after (.ok x)) :
    Reported k after g p mode tag held x := by
  cases h with
  | published poised absent =>
    obtain ⟨there, made⟩ := poised.origin
    refine ⟨rfl, rfl, rfl, poised.tag_head, ?_, absent, there, fun hr => ?_⟩
    · rw [← poised.remote]
    · obtain ⟨hm, parent, contents, missing, tags⟩ := made hr
      exact ⟨hm, parent, contents, missing, tags⟩

theorem Effect.failed {f : PublishFailure} (h : Effect g p tag held k mode after (.error f))
    (early : ∀ branch name failure, f ≠ .push branch name failure) : Unmoved k after := by
  cases h with
  | kept _ => exact ⟨rfl, rfl⟩
  | unpushed _ => exact absurd rfl (early _ _ _)

theorem Effect.unpushed_cases {branch name : String} {f : Git.Failure}
    (h : Effect g p tag held k mode after (.error (.push branch name f))) :
    Left g tag after after.head ∧
      (Unmoved k after ∨ mode = .publish ∧ Made k after g tag held) := by
  cases h with
  | kept early => exact absurd rfl (early _ _ _)
  | @unpushed _ resumed _ poised =>
    refine ⟨poised.left, ?_⟩
    obtain ⟨there, made⟩ := poised.origin
    cases resumed with
    | true => exact Or.inl (there rfl)
    | false => exact Or.inr (made rfl)

end Effect

/-! ## A call -/

namespace Call
variable {σ T : Type} {g : View σ T} {o : Outside σ} {e : Call σ}

/-- A call ends for want of a credential, or is one of publishing with a credential. -/
theorem played_cases : (∃ f, e.credential o = .error (.credential f) ∧
      e.played o = ⟨.error (.credential f), e.start, []⟩) ∨
    ∃ c, e.credential o = .ok c ∧
      e.played o = (e.publisher.enter e.mode e.tag c).run.play o e.start := by
  have silent : e.publisher.credential.run.play o e.start = ⟨e.credential o, e.start, []⟩ :=
    Script.play_of_reading (uses_credential fun _ => trivial) e.start
  have whole : e.played o = (match e.credential o with
      | .error f => ⟨.error f, e.start, []⟩
      | .ok c => (e.publisher.enter e.mode e.tag c).run.play o e.start) := by
    unfold played
    rw [attempt_eq, ExceptT.run_bind, Script.bind_eq, Script.play_bind, silent]
    cases e.credential o <;> rfl
  have way : e.publisher.credential.run.Yields [] (e.credential o) := by
    have := Script.yields_play o e.publisher.credential.run e.start
    rwa [silent] at this
  rcases Attempt.yields_orElseSay.mp way with ⟨f, -, missing⟩ | ⟨c, -, there⟩
  · rw [missing] at whole
    exact Or.inl ⟨f, missing, whole⟩
  · rw [there] at whole
    exact Or.inr ⟨c, there, whole⟩

variable (lawful : g.Lawful o) (hc : e.publisher.repository.checkout = g.checkout)
include lawful hc

/-- **A call takes the clone along one of the courses**, if there is a credential. -/
theorem course_cases : (∃ f, e.credential o = .error (.credential f) ∧
      e.result o = .error (.credential f) ∧ e.after g o = e.before g) ∨
    ∃ c told, e.credential o = .ok c ∧
      Course e.publisher e.tag c e.mode (gitCalls (e.played o).notes) told (e.result o) ∧
      g.Follows (g.workTree e.start.files) (e.before g) (gitCalls (e.played o).notes)
        (e.after g o) := by
  unfold result after before
  rcases played_cases (o := o) (e := e) with ⟨f, missing, played⟩ | ⟨c, there, played⟩ <;>
    rw [played]
  · exact Or.inl ⟨f, missing, rfl, rfl⟩
  · have uses : (e.publisher.enter e.mode e.tag c).run.Uses g.Permits :=
      uses_enter (fun _ h _ => ⟨hc, h⟩) (fun _ h _ => ⟨hc, h⟩) trivial
    exact Or.inr ⟨c, _, there, course_of_yields (Script.yields_play o _ e.start),
      (lawful.follows_play uses e.start).1⟩

theorem effect : Effect g e.publisher e.tag (e.held g) (e.before g) e.mode (e.after g o)
    (e.result o) := by
  rcases course_cases lawful hc with ⟨f, -, failed, same⟩ | ⟨c, told, -, course, follows⟩
  · rw [failed, same]
    exact .kept (by simp)
  · exact course.effect follows

/-- A call that fails has a reason. -/
theorem justified {f : PublishFailure} (hf : e.result o = .error f) : e.Justified g o f := by
  rcases course_cases lawful hc with ⟨f', missing, failed, -⟩ | ⟨c, told, there, course, follows⟩
  · rw [hf] at failed
    obtain rfl := Except.error.inj failed
    exact .credential missing
  · rw [hf] at course
    exact .reason there (course.reason follows)

/-- **A release that is left is pushed by the next call**, or something stood in the way. -/
theorem resumes {commit : String} (left : Left g e.tag (e.before g) commit) :
    e.result o = .ok ⟨e.tag, commit, e.publisher.repository.branch, true⟩ ∨
      ∃ f, e.result o = .error f ∧ e.Hindered g o f := by
  obtain ⟨takes, rfl, target⟩ := left
  rcases course_cases lawful hc with ⟨f, missing, failed, -⟩ | ⟨c, told, there, course, follows⟩
  · exact Or.inr ⟨_, failed, .credential missing⟩
  · rcases course.resumes follows ⟨takes, rfl, target⟩ with done | ⟨f, failed, hindrance⟩
    · exact Or.inl done
    · exact Or.inr ⟨f, failed, .hindrance there hindrance⟩

end Call

/-! ## Calls in a row -/

section Runs
variable {σ T : Type} {g : View σ T} {o : Outside σ} {w v : World σ} {past : List (Call σ)}

theorem Runs.checkout (h : Runs g o w past v) :
    ∀ e ∈ past, e.publisher.repository.checkout = g.checkout := by
  induction h with
  | start => exact fun e he => absurd he List.not_mem_nil
  | edited _ _ ih => exact ih
  | called _ hc ih => exact List.forall_mem_append.mpr ⟨ih, List.forall_mem_singleton.mpr hc⟩

theorem Runs.effect (lawful : g.Lawful o) (h : Runs g o w past v) : ∀ e ∈ past,
    Effect g e.publisher e.tag (e.held g) (e.before g) e.mode (e.after g o) (e.result o) :=
  fun e he => Call.effect lawful (h.checkout e he)

/-- No tag moves in a row of calls. -/
theorem Runs.tags (lawful : g.Lawful o) (h : Runs g o w past v) {tag commit : String}
    (ht : (g.clone w.outside).tags tag = some commit) :
    (g.clone v.outside).tags tag = some commit := by
  induction h with
  | start => exact ht
  | edited _ edit ih =>
    rw [edit]
    exact ih
  | called _ hc ih => exact (Call.effect lawful hc).tags ih

/-- `HEAD` stays, or moves to what a call tags. -/
theorem Runs.head (lawful : g.Lawful o) (h : Runs g o w past v) :
    (g.clone v.outside).head = (g.clone w.outside).head ∨
      ∃ e ∈ past, e.mode = .publish ∧
        (g.clone v.outside).tags e.tag = some (g.clone v.outside).head := by
  induction h with
  | start => exact Or.inl rfl
  | edited _ edit ih =>
    rw [edit]
    exact ih
  | @called past e _ hc ih =>
    have effect := Call.effect lawful hc
    -- Where `HEAD` stays, its tag stays too, for no tag moves.
    rcases effect.head with same | ⟨hm, tagged⟩
    · rcases ih with start | ⟨l, hl, hm, tagged⟩
      · exact Or.inl (same.trans start)
      · refine Or.inr ⟨l, List.mem_append_left _ hl, hm, ?_⟩
        exact (effect.tags tagged).trans (congrArg some same.symm)
    · exact Or.inr ⟨e, List.mem_append_right _ List.mem_cons_self, hm, tagged⟩

/-- A tag or a branch of the remote stays in a row of calls, or one of them reports it. -/
theorem Runs.refs (lawful : g.Lawful o) (h : Runs g o w past v) (name : String) :
    ((g.clone v.outside).remote.tags name = (g.clone w.outside).remote.tags name ∨
        ∃ e ∈ past, ∃ r, e.result o = .ok r ∧ r.tag = name) ∧
      ((g.clone v.outside).remote.branches name = (g.clone w.outside).remote.branches name ∨
        ∃ e ∈ past, ∃ r, e.result o = .ok r ∧ r.branch = name) := by
  induction h with
  | start => exact ⟨Or.inl rfl, Or.inl rfl⟩
  | edited _ edit ih =>
    rw [edit]
    exact ih
  | @called past e _ hc ih =>
    have later {P : Call σ → Prop} (earlier : ∃ l ∈ past, P l) : ∃ l ∈ past ++ [e], P l := by
      obtain ⟨l, hl, hp⟩ := earlier
      exact ⟨l, List.mem_append_left _ hl, hp⟩
    have last : e ∈ past ++ [e] := List.mem_append_right _ List.mem_cons_self
    obtain ⟨tags, branches⟩ := (Call.effect lawful hc).refs name
    constructor
    · rcases tags with same | reported
      · exact ih.1.imp same.trans later
      · exact Or.inr ⟨e, last, reported⟩
    · rcases branches with same | reported
      · exact ih.2.imp same.trans later
      · exact Or.inr ⟨e, last, reported⟩

/-- A release that a call left stays, unless another one is made. -/
theorem Runs.left (lawful : g.Lawful o) (h : Runs g o w past v) {early later : List (Call σ)}
    {e : Call σ} (hp : past = early ++ e :: later)
    (left : Left g e.tag (e.after g o) (e.after g o).head)
    (spares : ∀ l ∈ later, l.Spares g e.tag) :
    Left g e.tag (g.clone v.outside) (e.after g o).head := by
  induction h generalizing later with
  | start => simp at hp
  | edited _ edit ih =>
    rw [edit]
    obtain ⟨takes, head, target⟩ := ih hp spares
    exact ⟨takes, head, target⟩
  | @called past l _ hc ih =>
    -- The call that left the release came before the last one, or is the last one.
    rcases append_eq_append_cons hp with ⟨rest, rfl, rfl⟩ | ⟨rest, rfl, hr⟩
    · obtain ⟨earlier, last⟩ := List.forall_mem_append.mp spares
      exact (Call.effect lawful hc).left (ih rfl earlier) (last l List.mem_cons_self)
    · cases rest with
      | nil =>
        obtain ⟨rfl, -⟩ := List.cons.inj hr
        exact left
      | cons x rest =>
        obtain ⟨-, hr⟩ := List.cons.inj hr
        exact absurd hr.symm (by simp)

/-- **Publishing can be taken up again**, after any calls in one clone. -/
theorem recoverable (lawful : g.Lawful o) (h : Runs g o w past v) : Recoverable g o w past v where
  remote e he := (h.effect lawful e he).remote
  refs := h.refs lawful
  published e he r hr := by
    have effect := h.effect lawful e he
    rw [hr] at effect
    exact effect.reported
  justified e he f hf := Call.justified lawful (h.checkout e he) hf
  failed e he f hf early := by
    have effect := h.effect lawful e he
    rw [hf] at effect
    refine effect.failed ?_
    rintro branch name failure rfl
    exact early ⟨branch, name, failure, hf⟩
  unpushed e he := by
    rintro ⟨branch, name, f, hf⟩
    have effect := h.effect lawful e he
    rw [hf] at effect
    exact effect.unpushed_cases
  tags _ _ := h.tags lawful
  head := h.head lawful
  recovery early e later hp := by
    rintro ⟨branch, name, f, hf⟩ spares
    have effect := h.effect lawful e (by simp [hp])
    rw [hf] at effect
    -- What the call left still waits in the world that the next call starts in.
    have left := h.left lawful hp effect.unpushed_cases.1 spares
    refine ⟨left, ?_⟩
    rintro n rfl hc ht
    rw [← ht] at left ⊢
    exact Call.resumes lawful hc left

end Runs

section Small
open Git.SmallGit

/-- Before any release, with an empty remote. -/
def smallStart : Git.SmallGit where
  ahead := false
  index := false
  tags _ := none
  remote := ⟨fun _ => none, fun _ => none⟩
  refuses := true

/-- A publisher that works in the clone. -/
def smallPublisher : Publisher where
  repository := ⟨"/packages", "/", "main"⟩
  settings := ⟨"Release", ⟨"Releases", "releases@localhost"⟩, true⟩
  provider := .fixed "TOKEN" (some "secret")

/-- The push is refused. -/
def refusedCall : Call Git.SmallGit := ⟨smallPublisher, .publish, "v1", bare smallStart⟩

/-- The release that the first call left is resumed. -/
def resumingCall : Call Git.SmallGit :=
  ⟨smallPublisher, .resume, "v1", (refusedCall.played outside).world⟩

theorem played_small (mode : Mode) (s : Git.SmallGit) :
    ((smallPublisher.attempt mode "v1").run.play outside (bare s)).value =
        (replay (smallPublisher.attempt mode "v1").run s).1 ∧
      ((smallPublisher.attempt mode "v1").run.play outside (bare s)).world =
        bare (replay (smallPublisher.attempt mode "v1").run s).2 :=
  play_bare (uses_attempt rfl) s

theorem result_refusedCall :
    refusedCall.result outside = .error (.push "main" "v1" (.refused "git push" [])) := by
  show ((smallPublisher.attempt .publish "v1").run.play outside (bare smallStart)).value = _
  rw [(played_small .publish smallStart).1]
  decide +kernel

theorem result_resumingCall :
    resumingCall.result outside = .ok ⟨"v1", "b", "main", true⟩ := by
  show ((smallPublisher.attempt .resume "v1").run.play outside
    ((smallPublisher.attempt .publish "v1").run.play outside (bare smallStart)).world).value = _
  rw [(played_small .publish smallStart).2, (played_small .resume _).1]
  decide +kernel

/-- A publisher whose push is refused, and then one that resumes. -/
theorem recoverable_small : view.Lawful outside ∧
    Runs view outside (bare smallStart) [refusedCall, resumingCall]
      (resumingCall.played outside).world ∧
    refusedCall.IsUnpushed outside ∧
    resumingCall.result outside = .ok ⟨"v1", "b", "main", true⟩ ∧
    Recoverable view outside (bare smallStart) [refusedCall, resumingCall]
      (resumingCall.played outside).world := by
  have once : Runs view outside (bare smallStart) ([] ++ [refusedCall])
      (refusedCall.played outside).world := .called .start rfl
  have twice : Runs view outside (bare smallStart) ([refusedCall] ++ [resumingCall])
      (resumingCall.played outside).world := .called once rfl
  exact ⟨lawful, twice, ⟨_, _, _, result_refusedCall⟩, result_resumingCall,
    recoverable lawful twice⟩

end Small
end GatedRelease.Publisher
