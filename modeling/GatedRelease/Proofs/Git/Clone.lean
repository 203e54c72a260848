import GatedRelease.Proofs.Git.Ways
import Mathlib.Logic.Function.Basic

/-! # What git does in a clone

So far git was anything that answers.  Here it is a git: `View` says how the state of whatever
stands for git is seen as a clone with its remote, and `View.Lawful` that each call of publishing
does to the clone what git's manual has it do, and answers accordingly (`View.Answers`).  A commit,
a tag and a push may always be refused, and then change nothing.

A call need not reach git at all: it does not start if the work tree is gone, or with a NUL in what
it is given.  `View.Follows` takes the clone along the calls of a history, started or not, and
`follows_play` says that a run takes the clone along its own calls.
-/
namespace GatedRelease.Git

/-- Git may refuse the action although nothing is wrong with it, and then does nothing. -/
def Action.isRefusable : Action → Bool
  | .commit .. | .createTag .. | .push .. => true
  | _ => false

/-- Names of branches or tags, with the commits that they stand for. -/
abbrev Refs := String → Option String

/-- The branches and the tags of a remote. -/
structure Remote where
  branches : Refs
  tags : Refs

/-- Takes a commit for a branch, and a tag. -/
def Remote.receive (r : Remote) (branch commit tag target : String) : Remote where
  branches := Function.update r.branches branch (some commit)
  tags := Function.update r.tags tag (some target)

/-- A clone and its remote.  A commit is known by its hash; what a commit or the index holds is a
`T`. -/
structure Clone (T : Type) where
  head : String
  index : T
  tags : Refs
  remote : Remote

/-- A work tree: whether git can be started in it, and what it holds. -/
structure WorkTree (T : Type) where
  found : Bool
  holds : T

/-- **How to see a clone** in a state of type `σ`. -/
structure View (σ T : Type) where
  /-- Where the work tree is. -/
  checkout : String
  clone : σ → Clone T
  /-- What the work tree holds among all files. -/
  holds : FileSystem → T
  /-- The names that git takes for a tag. -/
  takes : String → Prop
  parent : String → Option String
  contents : String → T

namespace View
variable {σ T : Type} (g : View σ T)

/-- The work tree among all files. -/
def workTree (files : FileSystem) : WorkTree T where
  found := (files.workplace g.checkout).isOk
  holds := g.holds files

/-- **What git answers in a clone**, and what the clone is then.  A commit, a tag and a push may
always be refused, and the remote may be out of reach. -/
def Answers (held : T) : Action → Clone T → Reply → Clone T → Prop
  | .checkTagName tag, k, reply, after => after = k ∧ (reply.success = true ↔ g.takes tag)
  | .addAll, k, reply, after => reply.success = true ∧ after = { k with index := held }
  | .compareIndex, k, reply, after => after = k ∧
      (reply.code = 0 ∧ k.index = g.contents k.head ∨ reply.code = 1 ∧ k.index ≠ g.contents k.head)
  | .head, k, reply, after => after = k ∧ reply.success = true ∧ reply.text = k.head ∧
      k.head ≠ ""
  | .tagTarget tag, k, reply, after => after = k ∧
      (if reply.success then some reply.text else none) = k.tags tag
  | .remoteTag tag, k, reply, after => after = k ∧ (reply.success = true →
      (Text.isBlank (Text.ofUtf8Lossy reply.out) = true ↔ k.remote.tags tag = none))
  | .commit .., k, reply, after => reply.success = false ∧ after = k ∨
      reply.success = true ∧ ∃ commit, g.parent commit = some k.head ∧
        g.contents commit = k.index ∧ after = { k with head := commit }
  | .createTag _ tag, k, reply, after => reply.success = false ∧ after = k ∨
      reply.success = true ∧ k.tags tag = none ∧
        after = { k with tags := Function.update k.tags tag (some k.head) }
  | .push branch tag, k, reply, after => reply.success = false ∧ after = k ∨
      reply.success = true ∧ ∃ target, k.tags tag = some target ∧
        after = { k with remote := k.remote.receive branch k.head tag target }
  | .undoCommit, k, reply, after =>
      match g.parent k.head with
      | some commit => reply.success = true ∧ after = { k with head := commit }
      | none => reply.success = false ∧ after = k
  | .topLevel, _, _, _ | .clone .., _, _, _ => True

/-- **Git is lawful**: in the work tree, whatever publishing asks for is answered and done as in a
clone, and the work tree stays as it is. -/
structure Lawful (o : Outside σ) : Prop where
  answers {call : Call} {place : Location} {files : FileSystem} {state : σ} :
    call.directory = g.checkout → call.action.isPublishing = true →
    files.workplace g.checkout = .ok place →
    g.Answers (g.holds files) call.action (g.clone state) (o.git call place files state).1
      (g.clone (o.git call place files state).2.2)
  workTree {call : Call} {place : Location} {files : FileSystem} {state : σ} :
    call.directory = g.checkout → call.action.isPublishing = true →
    files.workplace g.checkout = .ok place →
    g.workTree (o.git call place files state).2.1 = g.workTree files

/-- **The clone along the calls of a history.**  A call that does not start changes nothing. -/
def Follows (t : WorkTree T) : Clone T → History → Clone T → Prop
  | k, [], after => after = k
  | k, (call, .notStarted _) :: rest, after =>
    (t.found = false ∨ call.holdsNul = true) ∧ Follows t k rest after
  | k, (call, .exited reply) :: rest, after =>
    t.found = true ∧ call.holdsNul = false ∧
      ∃ next, g.Answers t.holds call.action k reply next ∧ Follows t next rest after

/-- What a script may ask of a git that it only publishes with. -/
def Permits : Request → Prop
  | .git call => call.directory = g.checkout ∧ call.action.isPublishing = true
  | .environment _ | .remark => True
  | _ => False

variable {g} {o : Outside σ} {t : WorkTree T} {k after : Clone T}

theorem follows_append {before later : History} :
    g.Follows t k (before ++ later) after ↔
      ∃ middle, g.Follows t k before middle ∧ g.Follows t middle later after := by
  induction before generalizing k with
  | nil =>
    constructor
    · intro h
      exact ⟨k, rfl, h⟩
    · rintro ⟨_, rfl, h⟩
      exact h
  | cons x rest ih =>
    obtain ⟨call, outcome⟩ := x
    cases outcome with
    | notStarted cause =>
      constructor
      · rintro ⟨hn, h⟩
        obtain ⟨middle, hb, hl⟩ := ih.mp h
        exact ⟨middle, ⟨hn, hb⟩, hl⟩
      · rintro ⟨middle, ⟨hn, hb⟩, hl⟩
        exact ⟨hn, ih.mpr ⟨middle, hb, hl⟩⟩
    | exited reply =>
      constructor
      · rintro ⟨hf, hn, next, ha, h⟩
        obtain ⟨middle, hb, hl⟩ := ih.mp h
        exact ⟨middle, ⟨hf, hn, next, ha, hb⟩, hl⟩
      · rintro ⟨middle, ⟨hf, hn, next, ha, hb⟩, hl⟩
        exact ⟨hf, hn, next, ha, ih.mpr ⟨middle, hb, hl⟩⟩

/-- What is refused has no effect. -/
theorem eq_of_refused {held : T} {action : Action} {reply : Reply}
    (ha : g.Answers held action k reply after) (hr : action.isRefusable = true)
    (hs : reply.success = false) : after = k := by
  have refused {P : Prop} (h : reply.success = false ∧ after = k ∨ reply.success = true ∧ P) :
      after = k := by
    rcases h with ⟨-, same⟩ | ⟨good, -⟩
    · exact same
    · rw [hs] at good
      exact absurd good (by decide)
  cases action with
  | commit who text | createTag who tag | push branch tag => exact refused ha
  | topLevel | head | clone branch url path | addAll | compareIndex | tagTarget tag | remoteTag tag
  | checkTagName tag | undoCommit => exact absurd hr Bool.false_ne_true

/-- A call that is refused, or does not start, has no effect. -/
theorem Follows.eq_of_failed {call : Call} {outcome : Outcome}
    (h : g.Follows t k [(call, outcome)] after) (hr : call.action.isRefusable = true)
    (hf : outcome.succeeded = false) : after = k := by
  cases outcome with
  | notStarted cause => exact h.2
  | exited reply =>
    obtain ⟨-, -, next, ha, rfl⟩ := h
    exact eq_of_refused ha hr hf

section Play
variable (lawful : g.Lawful o)
include lawful

/-- A call of a lawful git, started or not. -/
theorem Lawful.callGit_cases {w : World σ} {call : Call} (hd : call.directory = g.checkout)
    (hp : call.action.isPublishing = true) :
    (∃ cause place, w.callGit o call = (.notStarted cause, place, w) ∧
        ((g.workTree w.files).found = false ∨ call.holdsNul = true)) ∨
      ∃ reply place v, w.callGit o call = (.exited reply, place, v) ∧
        (g.workTree w.files).found = true ∧ call.holdsNul = false ∧
        g.Answers (g.holds w.files) call.action (g.clone w.outside) reply (g.clone v.outside) ∧
        g.workTree v.files = g.workTree w.files := by
  unfold World.callGit
  cases hn : call.holdsNul with
  | true => exact Or.inl ⟨_, _, rfl, Or.inr rfl⟩
  | false =>
    rw [if_neg Bool.false_ne_true, hd]
    cases hw : w.files.workplace g.checkout with
    | error cause =>
      refine Or.inl ⟨_, _, rfl, Or.inl ?_⟩
      show (w.files.workplace g.checkout).isOk = false
      rw [hw]
      rfl
    | ok place =>
      refine Or.inr ⟨_, _, _, rfl, ?_, rfl, lawful.answers hd hp hw, lawful.workTree hd hp hw⟩
      show (w.files.workplace g.checkout).isOk = true
      rw [hw]
      rfl

/-- **A run takes the clone along its own calls**, and leaves the work tree as it is. -/
theorem Lawful.follows_play {α : Type} {s : Script α} (hs : s.Uses g.Permits) (w : World σ) :
    g.Follows (g.workTree w.files) (g.clone w.outside) (gitCalls (s.play o w).notes)
        (g.clone (s.play o w).world.outside) ∧
      g.workTree (s.play o w).world.files = g.workTree w.files := by
  induction s generalizing w with
  | done a => exact ⟨rfl, rfl⟩
  | environment name next ih => exact ih _ (hs.2 _) w
  | note n next ih =>
    -- A script does not write down calls of its own making, so its notes leave the history alone.
    obtain ⟨hn, -, hs⟩ := hs
    have silent : gitCalls (n :: (next.play o w).notes) = gitCalls (next.play o w).notes := by
      cases n with
      | git call place outcome | command c result => cases hn
      | event e | entered position ctx | moved position first second permitted => rfl
    show g.Follows _ _ (gitCalls (n :: (next.play o w).notes)) _ ∧ _
    rw [silent]
    exact ih hs w
  | git call next ih =>
    obtain ⟨⟨hd, hp⟩, hs⟩ := hs
    unfold Script.play
    rcases lawful.callGit_cases (w := w) hd hp with
      ⟨cause, place, hw, unstarted⟩ | ⟨reply, place, v, hw, found, clean, answers, kept⟩ <;>
      rw [hw]
    · obtain ⟨follows, kept⟩ := ih _ (hs _) w
      exact ⟨⟨unstarted, follows⟩, kept⟩
    · -- The later calls find the work tree that this one found.
      obtain ⟨follows, kept'⟩ := ih _ (hs _) v
      rw [kept] at follows kept'
      exact ⟨⟨found, clean, _, answers, follows⟩, kept'⟩
  | look next ih | store fs next ih | command c next ih | cancelled next ih | raise next ih
  | suffix next ih => exact absurd hs.1 id

end Play
end View

/-! ## A small git that is lawful -/

/-- A git that knows two commits, `a` and `b` on top of it, and refuses the first push. -/
structure SmallGit where
  /-- `HEAD` is the second commit. -/
  ahead : Bool
  /-- The index holds what the second commit holds. -/
  index : Bool
  tags : String → Option Bool
  remote : Remote
  refuses : Bool

namespace SmallGit

/-- The hash of a commit. -/
def name (second : Bool) : String := if second then "b" else "a"

/-- Git says yes or no. -/
def answer (good : Bool) : Reply := ⟨if good then 0 else 1, [], []⟩

/-- Git prints a hash. -/
def print (second : Bool) : Reply := ⟨0, if second then [98] else [97], []⟩

theorem print_text (second : Bool) : (print second).text = name second := by
  cases second <;> decide +kernel

/-- What git answers, and what its state is then. -/
def step : Action → SmallGit → Reply × SmallGit
  | .checkTagName _, s => (answer true, s)
  | .addAll, s => (answer true, { s with index := true })
  | .compareIndex, s => (answer (s.index == s.ahead), s)
  | .head, s => (print s.ahead, s)
  | .tagTarget tag, s =>
    match s.tags tag with
    | some second => (print second, s)
    | none => (answer false, s)
  | .remoteTag tag, s => (if s.remote.tags tag = none then answer true else print true, s)
  | .commit .., s =>
    if s.index && !s.ahead then (answer true, { s with ahead := true }) else (answer false, s)
  | .createTag _ tag, s =>
    if s.tags tag = none then
      (answer true, { s with tags := Function.update s.tags tag (some s.ahead) })
    else (answer false, s)
  | .push branch tag, s =>
    match s.refuses, s.tags tag with
    | false, some second =>
      (answer true, { s with remote := s.remote.receive branch (name s.ahead) tag (name second) })
    | _, _ => (answer false, { s with refuses := false })
  | .undoCommit, s =>
    if s.ahead then (answer true, { s with ahead := false }) else (answer false, s)
  | .topLevel, s | .clone .., s => (answer false, s)

/-- The git, and a runner that does nothing. -/
def outside : Outside SmallGit where
  git call _ files s := ((step call.action s).1, files, (step call.action s).2)
  command _ files s := ⟨.ok ⟨0, "", "", true⟩, files, false, s⟩

/-- The clone. The work tree holds what the second commit is to hold. -/
def view : View SmallGit Bool where
  checkout := "/"
  clone s := ⟨name s.ahead, s.index, fun tag => (s.tags tag).map name, s.remote⟩
  holds _ := true
  takes _ := True
  parent commit := if commit = "b" then some "a" else none
  contents commit := commit = "b"

theorem contents_name (second : Bool) : view.contents (name second) = second := by
  cases second <;> decide

/-- What is done to the tags is seen in the clone. -/
theorem clone_tags_update (s : SmallGit) (tag : String) (second : Bool) :
    (fun other => (Function.update s.tags tag (some second) other).map name) =
      Function.update (view.clone s).tags tag (some (name second)) := by
  funext other
  by_cases h : other = tag
  · subst h
    simp
  · rw [Function.update_of_ne h, Function.update_of_ne h]
    rfl

theorem step_answers (action : Action) (s : SmallGit) :
    view.Answers true action (view.clone s) (step action s).1 (view.clone (step action s).2) := by
  cases action with
  | topLevel | clone branch url path => trivial
  | checkTagName tag => exact ⟨rfl, iff_of_true rfl trivial⟩
  | addAll => exact ⟨rfl, rfl⟩
  | compareIndex =>
    refine ⟨rfl, ?_⟩
    show _ ∧ s.index = view.contents (name s.ahead) ∨ _ ∧ s.index ≠ view.contents (name s.ahead)
    rw [contents_name]
    by_cases h : s.index = s.ahead
    · exact Or.inl ⟨by simp [step, answer, h], h⟩
    · exact Or.inr ⟨by simp [step, answer, h], h⟩
  | head =>
    refine ⟨rfl, rfl, print_text s.ahead, ?_⟩
    show name s.ahead ≠ ""
    cases s.ahead <;> decide
  | tagTarget tag =>
    show _ = view.clone s ∧ _ = (s.tags tag).map name
    cases h : s.tags tag with
    | none => simp [step, h, answer, Reply.success]
    | some second =>
      have good : (print second).success = true := rfl
      simp [step, h, good, print_text]
  | remoteTag tag =>
    refine ⟨rfl, fun _ => ?_⟩
    show _ ↔ s.remote.tags tag = none
    by_cases h : s.remote.tags tag = none
    · simp only [step, h]
      decide +kernel
    · simp only [step, h]
      decide +kernel
  | commit who text =>
    obtain ⟨ahead, index, tags, remote, refuses⟩ := s
    cases index <;> cases ahead
    · exact Or.inl ⟨rfl, rfl⟩
    · exact Or.inl ⟨rfl, rfl⟩
    · exact Or.inr ⟨rfl, "b", by simp [view, name], by simp [view], rfl⟩
    · exact Or.inl ⟨rfl, rfl⟩
  | createTag who tag =>
    by_cases h : s.tags tag = none
    · simp only [step, if_pos h]
      refine Or.inr ⟨rfl, by simp [view, h], ?_⟩
      show Clone.mk _ _ (fun other => (Function.update s.tags tag _ other).map name) _ = _
      rw [clone_tags_update]
      rfl
    · simp only [step, if_neg h]
      exact Or.inl ⟨rfl, rfl⟩
  | push branch tag =>
    cases hr : s.refuses with
    | true =>
      simp only [step, hr]
      exact Or.inl ⟨rfl, rfl⟩
    | false =>
      cases h : s.tags tag with
      | none =>
        simp only [step, hr, h]
        exact Or.inl ⟨rfl, rfl⟩
      | some second =>
        simp only [step, hr, h]
        exact Or.inr ⟨rfl, name second, by simp [view, h], rfl⟩
  | undoCommit =>
    obtain ⟨ahead, index, tags, remote, refuses⟩ := s
    cases ahead <;> exact ⟨rfl, rfl⟩

theorem lawful : view.Lawful outside where
  answers _ _ _ := step_answers _ _
  workTree _ _ _ := rfl

/-- Nothing but the root directory, and no variables. -/
def bare (s : SmallGit) : World SmallGit := ⟨⟨.empty, []⟩, [], false, 0, s⟩

theorem workplace_bare : FileSystem.workplace ⟨.empty, []⟩ "/" = .ok [] := by
  have steps : FileSystem.steps "/" = ["."] := by decide +kernel
  have text : FileSystem.checkText "/" = .ok () := rfl
  simp [FileSystem.workplace, FileSystem.directoryAt, FileSystem.canonical, FileSystem.locate,
    FileSystem.spot, FileSystem.walk_cons, FileSystem.walk_nil, FileSystem.start, steps, text, bind,
    Except.bind]

/-- **What a script comes to** in the bare world, if it only publishes. Nothing else is computed
than the calls themselves. -/
def replay {α : Type} : Script α → SmallGit → α × SmallGit
  | .done a, s => (a, s)
  | .git call next, s =>
    if call.holdsNul then replay (next (.notStarted .nulInData)) s
    else replay (next (.exited (step call.action s).1)) (step call.action s).2
  | .environment _ next, s => replay (next none) s
  | .look next, s => replay (next ⟨.empty, []⟩) s
  | .command _ next, s => replay (next (.ok ⟨0, "", "", true⟩)) s
  | .cancelled next, s => replay (next false) s
  | .suffix next, s => replay (next "") s
  | .store _ next, s | .raise next, s | .note _ next, s => replay next s

theorem callGit_bare {call : Call} (hd : call.directory = view.checkout) (s : SmallGit) :
    (bare s).callGit outside call =
      if call.holdsNul then (.notStarted .nulInData, none, bare s)
      else (.exited (step call.action s).1, some [], bare (step call.action s).2) := by
  have place : (bare s).files.workplace view.checkout = .ok [] := workplace_bare
  unfold World.callGit
  rw [hd, place]
  rfl

theorem play_bare {α : Type} {script : Script α} (hs : script.Uses view.Permits) (s : SmallGit) :
    (script.play outside (bare s)).value = (replay script s).1 ∧
      (script.play outside (bare s)).world = bare (replay script s).2 := by
  induction script generalizing s with
  | done a => exact ⟨rfl, rfl⟩
  | environment name next ih =>
    have unset : lookUpVariable (bare s).vars name = none := by
      unfold lookUpVariable
      split <;> rfl
    unfold Script.play replay
    rw [unset]
    exact ih _ (hs.2 _) s
  | note n next ih => exact ih hs.2.2 s
  | git call next ih =>
    obtain ⟨⟨hd, -⟩, hs⟩ := hs
    unfold Script.play replay
    rw [callGit_bare hd]
    cases call.holdsNul with
    | true => exact ih _ (hs _) s
    | false => exact ih _ (hs _) _
  | look next ih | store fs next ih | command c next ih | cancelled next ih | raise next ih
  | suffix next ih => exact absurd hs.1 id

end SmallGit
end GatedRelease.Git
