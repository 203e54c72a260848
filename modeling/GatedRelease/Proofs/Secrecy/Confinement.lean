import GatedRelease.Proofs.Plan.Gating
import GatedRelease.Proofs.Publish.Recovery
import GatedRelease.Proofs.Run.Continuation
import GatedRelease.Proofs.Run.Shape
import GatedRelease.Proofs.Secrecy.Alike
import Mathlib.Data.List.Forall2

/-! # The secret goes to the remote and nowhere else

Only publishing knows the secret, and it does nothing with it but hand it to git in the two calls
for the remote.  Two people who publish with secrets of their own therefore do the same
(`Publisher.alike_attempt`).  A stage of publishing with the one secret and one with the other are
alike, stages that are alike pairwise make runs that are alike (`Run.alike_run`), and so do the two
releases as a whole.  What can be known of the run of a release without looking into git's
environment is `Confined`: the report, the events, the commands, the calls of git, and the files.
-/
namespace GatedRelease
variable {σ α β δ ε : Type} {o : Outside σ} {a b : Holder}

/-! ## Attempts -/

namespace Attempt
open Script (Alike)

theorem alike_bind {x y : Attempt ε α} {f g : α → Attempt ε β} (h : Alike o a b Eq x.run y.run)
    (hf : ∀ r, Alike o a b Eq (f r).run (g r).run) :
    Alike o a b Eq (x >>= f).run (y >>= g).run := by
  rw [ExceptT.run_bind, ExceptT.run_bind]
  refine h.bind ?_
  rintro r _ rfl
  cases r with
  | ok r => exact hf r
  | error e => exact Script.alike_done rfl

theorem alike_orElseSay {x y : Attempt ε α} {say : ε → δ} (h : Alike o a b Eq x.run y.run) :
    Alike o a b Eq (x.orElseSay say).run (y.orElseSay say).run := by
  refine h.bind ?_
  rintro r _ rfl
  cases r <;> exact Script.alike_done rfl

end Attempt

/-- A call for the remote that has to succeed. -/
theorem Git.alike_demand (ho : o.IgnoresToken) {action : Git.Action}
    (hn : action.needsToken = true) (directory : String) :
    Script.Alike o a b Eq (demand ⟨action, directory, some a.credential.secret⟩).run
      (demand ⟨action, directory, some b.credential.secret⟩).run := by
  unfold demand ask
  refine Attempt.alike_bind (Attempt.alike_bind ?_ fun outcome => ?_) fun reply => ?_
  · refine (Script.alike_callGit ho hn directory).bind ?_
    rintro outcome _ rfl
    exact Script.alike_done rfl
  · cases outcome <;> exact Script.alike_done rfl
  · dsimp only
    split <;> exact Script.alike_done rfl

/-! ## Publishing -/

namespace Publisher
open Script (Alike)
variable {p : Publisher} {tag : String}

/-- The credential is there for either. -/
theorem alike_credential (settings : PublishSettings) (repository : Repository) :
    Alike o a b (fun r s => r = .ok a.credential ∧ s = .ok b.credential)
      (credential ⟨repository, settings, a.provider⟩).run
      (credential ⟨repository, settings, b.provider⟩).run := by
  have got (h : Holder) (w : World σ) :
      (credential ⟨repository, settings, h.provider⟩).run.play o (h.world w) =
        ⟨.ok h.credential, h.world w, []⟩ := by
    have found : h.provider.find? (h.world w).vars = some h.credential := h.found
    change Script.play o (h.provider.resolve.run.bind _) _ = _
    rw [Script.play_bind, CredentialProvider.play_resolve, found]
    rfl
  intro w
  rw [got a w, got b w]
  exact Script.alike_done (o := o) ⟨rfl, rfl⟩ w

section Secret
variable (ho : o.IgnoresToken)
include ho

theorem alike_checkRemoteTag :
    Alike o a b Eq (p.checkRemoteTag tag a.credential).run
      (p.checkRemoteTag tag b.credential).run := by
  unfold checkRemoteTag
  cases p.settings.rejectExistingTag with
  | false => exact Script.alike_done rfl
  | true =>
    refine Attempt.alike_bind (Attempt.alike_orElseSay ?_) fun known => ?_
    · exact Attempt.alike_bind (Git.alike_demand ho rfl _) fun _ => Script.alike_done rfl
    · cases known <;> exact Script.alike_done rfl

theorem alike_push :
    Alike o a b Eq (p.push tag a.credential).run (p.push tag b.credential).run := by
  have told : (ExceptT.lift (Script.emit (.publishStep .push tag)) :
      Attempt PublishFailure Unit).run.Uses Request.Open :=
    Attempt.uses_lift ⟨rfl, trivial, trivial⟩
  unfold push
  refine Attempt.alike_bind (Attempt.alike_orElseSay ?_) fun _ => ?_
  · exact Attempt.alike_bind (Git.alike_demand ho rfl _) fun _ => Script.alike_done rfl
  · exact told.alike

/-- **Publishing with the one secret and with the other** is alike: what is done between the calls
for the remote does not know the secret. -/
theorem alike_enter (mode : Mode) :
    Alike o a b Eq (p.enter mode tag a.credential).run (p.enter mode tag b.credential).run := by
  have plain (action : Git.Action) (_ : action.isPublishing = true)
      (hn : action.needsToken = false) : Request.Open (.git (p.repository.call action)) :=
    ⟨rfl, hn⟩
  have pushed (r : Published) : Alike o a b Eq
      (p.push tag a.credential >>= fun _ => (pure r : Attempt PublishFailure Published)).run
      (p.push tag b.credential >>= fun _ => (pure r : Attempt PublishFailure Published)).run :=
    Attempt.alike_bind (alike_push ho) fun _ => Script.alike_done rfl
  cases mode with
  | publish =>
    show Alike o a b Eq (p.publishWith tag a.credential).run (p.publishWith tag b.credential).run
    unfold publishWith
    refine Attempt.alike_bind (uses_checkTagName plain).alike fun _ => ?_
    refine Attempt.alike_bind (Script.Uses.alike ?_) fun _ => ?_
    · exact Attempt.uses_orElseSay (Attempt.uses_bind (Git.uses_demand (plain _ rfl rfl))
        fun _ => trivial)
    refine Attempt.alike_bind (uses_hasChanges plain).alike fun hasChanges => ?_
    refine Attempt.alike_bind (uses_checkLocalTag plain).alike fun resumed => ?_
    refine Attempt.alike_bind (alike_checkRemoteTag ho) fun _ => ?_
    cases resumed with
    | true => exact Attempt.alike_bind (uses_head plain).alike fun sha => pushed _
    | false =>
      cases hasChanges with
      | true =>
        exact Attempt.alike_bind (uses_commitAndTag plain trivial).alike fun sha => pushed _
      | false => exact Script.alike_done rfl
  | resume =>
    show Alike o a b Eq (p.resumeWith tag a.credential).run (p.resumeWith tag b.credential).run
    unfold resumeWith
    refine Attempt.alike_bind (uses_checkTagName plain).alike fun _ => ?_
    refine Attempt.alike_bind (Attempt.uses_orElseSay (uses_tagTarget plain)).alike
      fun target => ?_
    cases target with
    | none => exact Script.alike_done rfl
    | some target =>
      refine Attempt.alike_bind (uses_head plain).alike fun sha => ?_
      by_cases he : target ≠ sha
      · rw [if_pos he, if_pos he]
        exact Script.alike_done rfl
      · rw [if_neg he, if_neg he]
        exact Attempt.alike_bind (alike_checkRemoteTag ho) fun _ => pushed _

/-- **Publishing, with the search for the credential**, is alike for all who find one. -/
theorem alike_attempt (settings : PublishSettings) (repository : Repository) (mode : Mode)
    (tag : String) :
    Alike o a b Eq (attempt ⟨repository, settings, a.provider⟩ mode tag).run
      (attempt ⟨repository, settings, b.provider⟩ mode tag).run := by
  rw [attempt_eq, attempt_eq, ExceptT.run_bind, ExceptT.run_bind]
  refine (alike_credential settings repository).bind ?_
  rintro _ _ ⟨rfl, rfl⟩
  -- Past the search for the credential, where it came from does not matter.
  have same : enter ⟨repository, settings, b.provider⟩ mode tag b.credential =
      enter ⟨repository, settings, a.provider⟩ mode tag b.credential := by cases mode <;> rfl
  show Alike o a b Eq (enter _ mode tag a.credential).run (enter _ mode tag b.credential).run
  rw [same]
  exact alike_enter ho mode

end Secret
end Publisher

/-! ## Stages and runs -/

/-- The one stage is as good as the other, for the one holder and for the other. -/
structure Stage.Alike (o : Outside σ) (a b : Holder) (s t : Stage) : Prop where
  name : s.name = t.name
  kind : s.kind = t.kind
  dependsOn : s.dependsOn = t.dependsOn
  status : s.status = t.status
  execute : ∀ ctx, Script.Alike o a b Eq (s.action.execute ctx) (t.action.execute ctx)

namespace Stage.Alike
variable {s t : Stage}

theorem transition (h : Alike o a b s t) (next : StageStatus) :
    (s.transition next).1 = (t.transition next).1 ∧
      Alike o a b (s.transition next).2 (t.transition next).2 := by
  unfold Stage.transition
  rw [← h.status]
  split
  · exact ⟨rfl, { h with status := rfl }⟩
  · exact ⟨rfl, h⟩

theorem chained (h : Alike o a b s t) (previous : Option String) :
    Alike o a b (s.chained previous) (t.chained previous) := by
  cases previous with
  | none => exact h
  | some name =>
    unfold Stage.chained
    simp only [← h.dependsOn]
    split
    · exact h
    · exact { h with dependsOn := by simp only [Stage.after, h.dependsOn] }

theorem linearAfter {stages stages' : List Stage} (h : List.Forall₂ (Alike o a b) stages stages')
    (previous : Option String) : List.Forall₂ (Alike o a b) (Stage.linearAfter previous stages)
      (Stage.linearAfter previous stages') := by
  induction h generalizing previous with
  | nil => exact .nil
  | cons hs _ ih =>
    unfold Stage.linearAfter
    rw [← hs.name]
    exact .cons (hs.chained previous) (ih _)

theorem names {stages stages' : List Stage} (h : List.Forall₂ (Alike o a b) stages stages') :
    stages.map (·.name) = stages'.map (·.name) := by
  induction h with
  | nil => rfl
  | cons hs _ ih => rw [List.map_cons, List.map_cons, hs.name, ih]

end Stage.Alike

namespace Run
open Script (Alike)
variable {before before' stages stages' : List Stage} {s t : Stage}

/-- Two runs ended in the same way. -/
structure EndAlike (o : Outside σ) (a b : Holder) (e f : Ending) : Prop where
  stages : List.Forall₂ (Stage.Alike o a b) e.stages f.stages
  context : e.context = f.context
  failure : e.failure = f.failure

theorem alike_move (h : Stage.Alike o a b s t) (position : Nat) (next : StageStatus) :
    Alike o a b (Stage.Alike o a b) (move position s next) (move position t next) := by
  obtain ⟨permitted, moved⟩ := h.transition next
  have same : Note.moved position t.status next (t.transition next).1 =
      Note.moved position s.status next (s.transition next).1 := by rw [h.status, permitted]
  have told : Alike o a b Eq (Script.record (.moved position s.status next (s.transition next).1))
      (Script.record (.moved position t.status next (t.transition next).1)) := by
    rw [same]
    exact Script.Uses.alike ⟨rfl, trivial, trivial⟩
  exact told.bind fun _ _ _ => Script.alike_done moved

/-- Executing a stage leaves stages that are alike, with one result and one context. -/
theorem alike_execute (h : Stage.Alike o a b s t) (position : Nat) (ctx : Context) :
    Alike o a b (fun r r' => Stage.Alike o a b r.1 r'.1 ∧ r.2 = r'.2)
      (execute position s ctx) (execute position t ctx) := by
  have tell (n : Note) (hn : n.request = .remark) : Alike o a b Eq (Script.record n)
      (Script.record n) := Script.Uses.alike ⟨hn, trivial, trivial⟩
  refine (alike_move h position .running).bind fun r r' hr => ?_
  refine Alike.bind (by rw [h.name]; exact tell _ rfl) fun _ _ _ => ?_
  refine (tell (.entered position ctx) rfl).bind fun _ _ _ => ?_
  refine (h.execute ctx).bind ?_
  rintro ⟨result, ctx'⟩ _ rfl
  refine (alike_move hr position _).bind fun ended ended' he => ?_
  refine Alike.bind (by rw [h.name]; exact tell _ rfl) fun _ _ _ => ?_
  exact Script.alike_done ⟨he, rfl⟩

theorem unmetDependency?_alike (hb : List.Forall₂ (Stage.Alike o a b) before before')
    (h : Stage.Alike o a b s t) : unmetDependency? before s = unmetDependency? before' t := by
  unfold unmetDependency?
  rw [h.dependsOn]
  congr 1
  funext d
  congr 1
  induction hb with
  | nil => rfl
  | cons hs _ ih => rw [List.any_cons, List.any_cons, hs.name, hs.status, ih]

/-- **Stages that are alike go the same way**, from stages that are alike. -/
theorem alike_advance (h : List.Forall₂ (Stage.Alike o a b) stages stages')
    (hb : List.Forall₂ (Stage.Alike o a b) before before') (ctx : Context) :
    Alike o a b (EndAlike o a b) (advance before ctx stages) (advance before' ctx stages') := by
  induction h generalizing before before' ctx with
  | nil => exact Script.alike_done ⟨hb, rfl, rfl⟩
  | @cons s t later later' hs hl ih =>
    have hn : before.length = before'.length := hb.length_eq
    have ends {r r' : Stage} (hr : Stage.Alike o a b r r') (ctx : Context) (e : ReleaseError) :
        EndAlike o a b ⟨before ++ r :: later, ctx, some (before.length, e)⟩
          ⟨before' ++ r' :: later', ctx, some (before'.length, e)⟩ :=
      ⟨List.rel_append hb (.cons hr hl), rfl, by rw [hn]⟩
    unfold advance
    refine Alike.bind (R := Eq) (Script.Uses.alike ⟨trivial, fun _ => trivial⟩) ?_
    rintro up _ rfl
    cases up with
    | true =>
      have he := ends hs ctx (.cancelled s.name)
      rw [hs.name] at he ⊢
      exact Script.alike_done he
    | false =>
      rw [← unmetDependency?_alike hb hs]
      cases unmetDependency? before s with
      | some dependency =>
        have hm := alike_move hs before.length .failed
        rw [← hn]
        refine hm.bind fun r r' hr => ?_
        have he := ends hr ctx (.dependencyNotSatisfied s.name dependency)
        rw [← hn] at he
        rw [← hs.name]
        exact Script.alike_done he
      | none =>
        have hx := alike_execute hs before.length ctx
        rw [← hn]
        refine hx.bind ?_
        rintro ⟨ended, result, ctx'⟩ ⟨ended', _, _⟩ ⟨he, ⟨⟩⟩
        cases result with
        | ok _ => exact ih (List.rel_append hb (.cons he .nil)) ctx'
        | error e =>
          have hend := ends he ctx' e
          rw [← hn] at hend
          exact Script.alike_done hend

theorem shown_alike (h : List.Forall₂ (Stage.Alike o a b) stages stages') :
    stages.map Stage.shown = stages'.map Stage.shown := by
  induction h with
  | nil => rfl
  | cons hs _ ih =>
    rw [List.map_cons, List.map_cons, ih, Stage.shown, Stage.shown, hs.name, hs.kind, hs.status]

theorem uses_announceSkipped : (announceSkipped stages).Uses Request.Open := by
  induction stages with
  | nil => trivial
  | cons s later ih => exact ⟨rfl, trivial, ih⟩

theorem uses_conclude {release : Release} {e : Ending} :
    (conclude release e).Uses Request.Open := by
  unfold conclude
  cases e.failure with
  | none => exact ⟨rfl, trivial, trivial⟩
  | some failed => exact uses_announceSkipped.bind fun _ => ⟨rfl, trivial, trivial⟩

/-- **Runs of stages that are alike are alike**, and report the same. -/
theorem alike_run (h : List.Forall₂ (Stage.Alike o a b) stages stages') (release : Release) :
    Alike o a b Eq (run release stages) (run release stages') := by
  have started : Alike o a b Eq (Script.emit (.runStarted release.tag stages.length))
      (Script.emit (.runStarted release.tag stages.length)) :=
    Script.Uses.alike ⟨rfl, trivial, trivial⟩
  rw [run_eq, run_eq, ← h.length_eq]
  refine started.bind fun _ _ _ => ?_
  refine (alike_advance h .nil _).bind fun e f hf => ?_
  -- What is left to do is to tell of the end, which is the same for both.
  rw [← conclude_congr (shown_alike hf.stages) hf.context hf.failure]
  exact Script.Uses.alike uses_conclude

end Run

/-! ## Releases -/

namespace Plan

/-- Only publishing knows the secret. -/
theorem open_of_isPublishing {action : Git.Action} (h : action.isPublishing = false)
    (directory : String) : Request.Open (.git ⟨action, directory, none⟩) := by
  refine ⟨rfl, ?_⟩
  cases action <;> first | rfl | cases h

theorem alike_stages (ho : o.IgnoresToken) (c : Config) :
    List.Forall₂ (Stage.Alike o a b) (stages c a.provider) (stages c b.provider) := by
  refine Stage.Alike.linearAfter (List.rel_append ?_ (.cons ?_ .nil)) none
  · refine List.forall₂_same.mpr fun s hs => ⟨rfl, rfl, rfl, rfl, fun ctx => Script.Uses.alike ?_⟩
    refine uses_preparation ?_ ?_ ?_ ?_ ?_ (fun _ => ?_) hs ctx
    case refine_1 | refine_2 => exact open_of_isPublishing rfl _
    all_goals trivial
  · refine ⟨rfl, rfl, rfl, rfl, fun ctx => ?_⟩
    refine (Publisher.alike_attempt ho _ _ .publish ctx.tag).bind ?_
    rintro r _ rfl
    cases r <;> exact Script.alike_done rfl

/-- **A release is alike for all** who find a credential. -/
theorem alike_carryOut (ho : o.IgnoresToken) (c : Config) (tag : String) :
    Script.Alike o a b Eq (carryOut c tag a.provider) (carryOut c tag b.provider) := by
  have stages := alike_stages (a := a) (b := b) ho c
  have names : stageNames (Plan.stages c a.provider) = stageNames (Plan.stages c b.provider) :=
    Stage.Alike.names stages
  dsimp only [carryOut]
  rw [← names]
  have identified : Script.Alike o a b Eq
      (Release.identify tag c.build.workingDir (stageNames (Plan.stages c a.provider)))
      (Release.identify tag c.build.workingDir (stageNames (Plan.stages c a.provider))) :=
    Script.Uses.alike (Release.uses_identify ⟨rfl, rfl⟩ ⟨rfl, rfl⟩ trivial)
  refine identified.bind ?_
  rintro release _ rfl
  exact Run.alike_run stages release

end Plan

/-! ## What two holders leave -/

/-- A call of git without the secret, and what became of it. -/
def bareCalls (notes : List Note) : List (Git.Call × Git.Outcome) :=
  (gitCalls notes).map fun x => ({ x.1 with token := none }, x.2)

/-- **The secret is confined** to the calls for the remote: two runs, one by each holder, come to
the same in everything else. -/
structure Confined (a b : Holder) (r s : Played σ α) : Prop where
  /-- The report, or the failure, with all its texts. -/
  value : r.value = s.value
  files : r.world.files = s.world.files
  /-- All else that there is, the state of git and of the runner included. -/
  world : s.world = b.world r.world
  events : events r.notes = events s.notes
  commands : commandRuns r.notes = commandRuns s.notes
  /-- Git is called in the same order, with the same arguments in the same directories, and answers
  the same. -/
  calls : bareCalls r.notes = bareCalls s.notes
  own : ∀ x ∈ gitCalls r.notes, a.Hands x.1
  other : ∀ x ∈ gitCalls s.notes, b.Hands x.1

theorem events_bare (notes : List Note) : events (notes.map Note.bare) = events notes := by
  unfold events
  rw [List.filterMap_map]
  refine congrArg (List.filterMap · notes) (funext fun n => ?_)
  cases n <;> rfl

theorem commandRuns_bare (notes : List Note) :
    commandRuns (notes.map Note.bare) = commandRuns notes := by
  unfold commandRuns
  rw [List.filterMap_map]
  refine congrArg (List.filterMap · notes) (funext fun n => ?_)
  cases n <;> rfl

theorem gitCalls_bare (notes : List Note) : gitCalls (notes.map Note.bare) = bareCalls notes := by
  unfold bareCalls gitCalls
  rw [List.filterMap_map, List.map_filterMap]
  refine congrArg (List.filterMap · notes) (funext fun n => ?_)
  cases n <;> rfl

theorem Played.Alike.confined {r s : Played σ α} (h : Played.Alike a b Eq r s) :
    Confined a b r s := by
  obtain ⟨w, hr, hs⟩ := h.world
  exact {
    value := h.value
    files := by rw [hr, hs]; rfl
    world := by rw [hr, hs]; rfl
    events := by rw [← events_bare, h.notes, events_bare]
    commands := by rw [← commandRuns_bare, h.notes, commandRuns_bare]
    calls := by rw [← gitCalls_bare, h.notes, gitCalls_bare]
    own := h.own
    other := h.other }

/-- **The secret influences nothing but what git is handed for the remote.** Two people with
secrets of their own carry out the same release in the same world, or publish or resume with the
same settings, with a git and a runner whose answers do not depend on the secret: the two runs come
to the same, but that each hands its own secret to git in the calls for the remote, and nothing in
all others. -/
theorem secret_confined (o : Outside σ) (ho : o.IgnoresToken) (a b : Holder) (w : World σ) :
    (∀ c tag, Confined a b ((Plan.carryOut c tag a.provider).play o (a.world w))
      ((Plan.carryOut c tag b.provider).play o (b.world w))) ∧
    ∀ repository settings mode tag, Confined a b
      ((Publisher.attempt ⟨repository, settings, a.provider⟩ mode tag).run.play o (a.world w))
      ((Publisher.attempt ⟨repository, settings, b.provider⟩ mode tag).run.play o (b.world w)) := by
  constructor
  · intro c tag
    exact (Plan.alike_carryOut ho c tag w).confined
  · intro repository settings mode tag
    exact (Publisher.alike_attempt ho settings repository mode tag w).confined

section Sample

/-- A holder whose secret is in a variable. -/
def variableHolder : Holder where
  vars := [("TOKEN", Text.utf8 "alpha")]
  provider := .environment "TOKEN"
  credential := ⟨"alpha"⟩
  found := by decide +kernel
  clean := by decide
  unset := by decide +kernel

/-- A holder whose secret is known already. -/
def fixedHolder : Holder where
  vars := []
  provider := .fixed "TOKEN" (some "beta")
  credential := ⟨"beta"⟩
  found := rfl
  clean := by decide
  unset := by decide +kernel

/-- The holder releases what is new. -/
def Holder.released (h : Holder) : Played Unit RunReport :=
  (Plan.carryOut .default "v1" h.provider).play Run.newsOutside (h.world Run.newsWorld)

/-- The holder publishes what is new in the checkout. -/
def Holder.published (h : Holder) : Played Unit (Except PublishFailure Published) :=
  ((Plan.publisher .default h.provider).attempt .publish "v1").run.play Run.newsOutside
    (h.world Run.newsWorld)

/-- Both release what is new, and each hands its own secret to git twice: for the two calls that
talk to the remote. -/
theorem secret_confined_sample :
    Run.newsOutside.IgnoresToken ∧
    (gitCalls variableHolder.released.notes).filterMap (·.1.token) = ["alpha", "alpha"] ∧
    (gitCalls fixedHolder.published.notes).filterMap (·.1.token) = ["beta", "beta"] ∧
    Confined variableHolder fixedHolder variableHolder.released fixedHolder.released ∧
    Confined variableHolder fixedHolder variableHolder.published fixedHolder.published := by
  have ignores : Run.newsOutside.IgnoresToken := fun _ _ _ _ _ => rfl
  obtain ⟨carried, attempted⟩ := secret_confined Run.newsOutside ignores variableHolder fixedHolder
    Run.newsWorld
  exact ⟨ignores, by decide +kernel, by decide +kernel, carried .default "v1",
    attempted _ _ .publish "v1"⟩

end Sample
end GatedRelease
