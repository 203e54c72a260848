import GatedRelease.Proofs.Publish.Footprint
import GatedRelease.Proofs.Publish.Steps

/-! # Publishing once more and resuming agree

There are two ways to push a release that an earlier attempt left: `Publisher.resumeWith` pushes it
at once, and `Publisher.publishWith` comes upon it after it has collected changes and found none.
The two ask git in different orders, and the second asks for `HEAD` twice.  With a git whose answers
hang on nothing but the arguments (`Git.Constant`) they agree (`resume_agrees`): where the one
resumes a release, so does the other, with the same result and the same push; and what publishing
adds is the look for changes, which can only hold it up before it has changed anything but the
index.

Every answer of such a git is fixed beforehand (`Git.consult`).  What has to be fixed for a release
to be pushed is said once (`Awaits`), and each course either shows it or is ruled out by it.
-/
namespace GatedRelease

/-- The request does not touch the files. -/
def Request.Sparing : Request → Prop
  | .store | .command _ => False
  | _ => True

namespace Git
variable {σ : Type}

/-- **A git without memory**: it answers the same arguments in the same way, and leaves the files
alone. -/
structure Constant (o : Outside σ) (answer : List String → Reply) : Prop where
  reply : ∀ call place fs s, (o.git call place fs s).1 = answer call.action.arguments
  files : ∀ call place fs s, (o.git call place fs s).2.1 = fs

/-- What becomes of a call to a git without memory. -/
def consult (answer : List String → Reply) (fs : FileSystem) (call : Call) : Outcome :=
  if call.holdsNul then .notStarted .nulInData
  else match fs.workplace call.directory with
    | .error cause => .notStarted cause
    | .ok _ => .exited (answer call.action.arguments)

/-- Every call came out as it had to. -/
def Consulted (f : Call → Outcome) (calls : History) : Prop := ∀ x ∈ calls, x.2 = f x.1

variable {o : Outside σ} {answer : List String → Reply} {fs : FileSystem} {f : Call → Outcome}

theorem Constant.callGit (constant : Constant o answer) (w : World σ) (call : Call) :
    (w.callGit o call).1 = consult answer w.files call ∧
      (w.callGit o call).2.2.files = w.files := by
  unfold World.callGit consult
  by_cases nul : call.holdsNul = true
  · rw [if_pos nul, if_pos nul]
    exact ⟨rfl, rfl⟩
  · rw [if_neg nul, if_neg nul]
    cases w.files.workplace call.directory with
    | error cause => exact ⟨rfl, rfl⟩
    | ok place => exact ⟨congrArg _ (constant.reply ..), constant.files ..⟩

/-- **In a run that does not touch the files**, every call comes out as it had to from the start. -/
theorem Constant.consulted_play {α : Type} (constant : Constant o answer) {s : Script α}
    (hs : s.Uses Request.Sparing) (w : World σ) :
    Consulted (consult answer w.files) (gitCalls (s.play o w).notes) := by
  induction s generalizing w with
  | done a => exact fun x hx => absurd hx List.not_mem_nil
  | look next ih | environment name next ih | cancelled next ih | suffix next ih =>
    exact ih _ (hs.2 _) _
  | raise next ih => exact ih hs.2 _
  | store fs next ih | command c next ih => exact absurd hs.1 id
  | note n next ih =>
    obtain ⟨remark, -, hs⟩ := hs
    have silent : gitCalls (n :: (next.play o w).notes) = gitCalls (next.play o w).notes := by
      cases n with
      | git call place outcome | command c result => cases remark
      | event e | entered position ctx | moved position first second permitted => rfl
    show Consulted _ (gitCalls (n :: (next.play o w).notes))
    rw [silent]
    exact ih hs w
  | git call next ih =>
    obtain ⟨fixed, kept⟩ := constant.callGit w call
    unfold Script.play
    generalize w.callGit o call = called at fixed kept ⊢
    obtain ⟨outcome, place, v⟩ := called
    refine List.forall_mem_cons.mpr ⟨fixed, ?_⟩
    rw [← kept]
    exact ih outcome (hs.2 outcome) v

/-- Where one call has started, so does every other from the same directory that holds no NUL. -/
theorem consult_of_started {call other : Call} {reply : Reply}
    (started : consult answer fs call = .exited reply) (same : other.directory = call.directory)
    (clean : other.holdsNul = false) :
    consult answer fs other = .exited (answer other.action.arguments) := by
  unfold consult at started ⊢
  rw [clean, same, if_neg Bool.false_ne_true]
  by_cases nul : call.holdsNul = true
  · rw [if_pos nul] at started
    exact absurd started nofun
  · rw [if_neg nul] at started
    cases hw : fs.workplace call.directory with
    | error cause =>
      rw [hw] at started
      exact absurd started nofun
    | ok place => rfl

/-- A call that holds no NUL but for its arguments holds none if these do not. -/
theorem holdsNul_of_call {r : Repository} {action other : Action}
    (clean : (r.call action).holdsNul = false)
    (plain : other.arguments.any (·.toList.contains (Char.ofNat 0)) = false) :
    (r.call other).holdsNul = false := by
  unfold Call.holdsNul at clean ⊢
  rw [List.any_append, Bool.or_eq_false_iff] at clean ⊢
  exact ⟨clean.1, plain⟩

end Git

namespace Publisher
open Git (History Consulted Constant consult)

section Statement
variable (p : Publisher) (tag : String) (c : Credential)

/-- **Git has an earlier release to push**: it takes the name, has the tag at `HEAD`, finds nothing
that speaks against it on the remote, and will push it. -/
structure Awaits (f : Git.Call → Git.Outcome) (sha : String) : Prop where
  named : (f (p.repository.call (.checkTagName tag))).succeeded = true
  looked : (f (p.repository.call (.tagTarget tag))).named? = some sha
  head : (f (p.repository.call .head)).named? = some sha
  clear : p.settings.rejectExistingTag = true → ∃ reply : Git.Reply,
    f (p.repository.callWith c (.remoteTag tag)) = .exited reply ∧ reply.success = true ∧
      Text.isBlank (Text.ofUtf8Lossy reply.out) = true
  pushed : (f (p.pushCall tag c)).succeeded = true

/-- The result of pushing an earlier release. -/
def resumption (sha : String) : Published := ⟨tag, sha, p.repository.branch, true⟩

/-- How the look for changes holds a publisher up: they cannot be collected or compared, or there
are some. -/
inductive HeldUp (f : Git.Call → Git.Outcome) : PublishFailure → Prop
  | uncollected {failure : Git.Failure} :
      (f (p.repository.call .addAll)).succeeded = false → HeldUp f (.git .commit failure)
  | uncompared {failure : Git.Failure} : (f (p.repository.call .addAll)).succeeded = true →
      (f (p.repository.call .compareIndex)).changes? = none → HeldUp f (.git .commit failure)
  | changes : (f (p.repository.call .addAll)).succeeded = true →
      (f (p.repository.call .compareIndex)).changes? = some true → HeldUp f (.tagWithChanges tag)

end Statement

/-- The pushes among the calls that notes tell of. -/
def pushes (notes : List Note) : History := (gitCalls notes).filter (·.1.action.isPush)

/-! ## Courses with answers that are fixed beforehand -/

section Courses
variable {p : Publisher} {tag : String} {c : Credential} {mode : Mode} {calls early : History}
  {f : Git.Call → Git.Outcome} {sha : String}

/-- Whether there are changes is told by one of two exit codes. -/
theorem changes?_eq_some_iff {reply : Git.Reply} {changes : Bool} :
    (Git.Outcome.exited reply).changes? = some changes ↔
      reply.code = if changes then 1 else 0 := by
  unfold Git.Outcome.changes?
  dsimp only
  cases changes <;> split <;> simp_all

theorem changes?_eq_none_iff {reply : Git.Reply} :
    (Git.Outcome.exited reply).changes? = none ↔ reply.code ≠ 0 ∧ reply.code ≠ 1 := by
  unfold Git.Outcome.changes?
  dsimp only
  split <;> simp_all

/-- A commit is named by an answer that ended well. -/
theorem named?_eq_some_iff {reply : Git.Reply} : (Git.Outcome.exited reply).named? = some sha ↔
    reply.success = true ∧ reply.text ≠ "" ∧ reply.text = sha := by
  unfold Git.Outcome.named?
  dsimp only
  by_cases good : reply.success = true ∧ reply.text ≠ ""
  · rw [if_pos good, Option.some.injEq]
    exact ⟨fun h => ⟨good.1, good.2, h⟩, fun h => h.2.2⟩
  · rw [if_neg good]
    exact ⟨nofun, fun h => absurd ⟨h.1, h.2.1⟩ good⟩

/-- What opened a course was fixed, the look for changes included. -/
theorem Opened.consulted {changes : Bool} (h : Opened p tag mode changes calls)
    (fixed : Consulted f calls) : (f (p.repository.call (.checkTagName tag))).succeeded = true ∧
      (mode = .publish → (f (p.repository.call .addAll)).succeeded = true ∧
        (f (p.repository.call .compareIndex)).changes? = some changes) := by
  cases h with
  | @publish named added compared _ hn ha hc =>
    rw [← fixed (p.repository.call (.checkTagName tag), .exited named) (by simp),
      ← fixed (p.repository.call .addAll, .exited added) (by simp),
      ← fixed (p.repository.call .compareIndex, .exited compared) (by simp)]
    exact ⟨hn, fun _ => ⟨ha, changes?_eq_some_iff.mpr hc⟩⟩
  | @resume named hn =>
    rw [← fixed (p.repository.call (.checkTagName tag), .exited named) (by simp)]
    exact ⟨hn, nofun⟩

/-- An earlier release that was found is one that git had all along, and publishing found no changes
beside it. -/
theorem Located.consulted (h : Located p tag mode (.release sha) early)
    (fixed : Consulted f early) : (f (p.repository.call (.checkTagName tag))).succeeded = true ∧
      (f (p.repository.call (.tagTarget tag))).named? = some sha ∧
      (f (p.repository.call .head)).named? = some sha ∧
      (mode = .publish → (f (p.repository.call .addAll)).succeeded = true ∧
        (f (p.repository.call .compareIndex)).changes? = some false) := by
  cases h with
  | @release _ opening looked found opened hs hf hne he =>
    obtain ⟨first, rest⟩ := List.forall_mem_append.mp fixed
    obtain ⟨named, looking⟩ := opened.consulted first
    rw [← rest (p.repository.call (.tagTarget tag), .exited looked) (by simp),
      ← rest (p.repository.call .head, .exited found) (by simp)]
    exact ⟨named, named?_eq_some_iff.mpr ⟨hs, he ▸ hne, he⟩, named?_eq_some_iff.mpr ⟨hf, hne, rfl⟩,
      looking⟩

theorem RemoteClear.consulted {remote : History} (h : RemoteClear p tag c remote)
    (fixed : Consulted f remote) (insisting : p.settings.rejectExistingTag = true) :
    ∃ reply : Git.Reply, f (p.repository.callWith c (.remoteTag tag)) = .exited reply ∧
      reply.success = true ∧ Text.isBlank (Text.ofUtf8Lossy reply.out) = true := by
  obtain ⟨reply, asked, good⟩ := h.absent_of_insisting insisting
  exact ⟨reply, (fixed _ asked).symm, good⟩

/-- **A release that was resumed was there to be resumed**, and publishing found no changes. -/
theorem Course.awaits {told : List Event} {r : Published}
    (h : Course p tag c mode calls told (.ok r)) (resumed : r.resumed = true)
    (fixed : Consulted f calls) : ∃ sha, r = p.resumption tag sha ∧ Awaits p tag c f sha ∧
      (mode = .publish → (f (p.repository.call .addAll)).succeeded = true ∧
        (f (p.repository.call .compareIndex)).changes? = some false) := by
  cases h with
  | @published _ before sha _ reply approach sent =>
    obtain ⟨first, last⟩ := List.forall_mem_append.mp fixed
    have pushed : (f (p.pushCall tag c)).succeeded = true := by
      rw [← last (p.pushCall tag c, .exited reply) (by simp)]
      exact sent
    cases approach with
    | fresh _ _ _ _ _ => exact absurd resumed Bool.false_ne_true
    | @found sha early remote again located clear hs hne =>
      obtain ⟨first, third⟩ := List.forall_mem_append.mp first
      obtain ⟨first, second⟩ := List.forall_mem_append.mp first
      obtain ⟨named, looked, head, looking⟩ := located.consulted first
      -- `HEAD` is what it was when it was looked up before.
      have same : again.text = sha := by
        rw [← third (p.repository.call .head, .exited again) (by simp)] at head
        exact (named?_eq_some_iff.mp head).2.2
      rw [same]
      exact ⟨sha, rfl, ⟨named, looked, head, clear.consulted second, pushed⟩, looking⟩
    | left located clear =>
      obtain ⟨first, second⟩ := List.forall_mem_append.mp first
      obtain ⟨named, looked, head, -⟩ := located.consulted first
      exact ⟨sha, rfl, ⟨named, looked, head, clear.consulted second, pushed⟩, nofun⟩

namespace Awaits

/-- What is found is the release that git has. -/
theorem located {prospect : Prospect} (awaits : Awaits p tag c f sha)
    (h : Located p tag mode prospect early) (fixed : Consulted f early) :
    prospect = .release sha := by
  have looked := awaits.looked
  cases h with
  | @changes opening reply _ missing | @nothing opening reply _ missing =>
    rw [← fixed (p.repository.call (.tagTarget tag), .exited reply) (by simp)] at looked
    exact absurd ((named?_eq_some_iff.mp looked).1.symm.trans missing) nofun
  | @release _ opening reply found _ _ _ _ _ =>
    have head := awaits.head
    rw [← fixed (p.repository.call .head, .exited found) (by simp)] at head
    rw [(named?_eq_some_iff.mp head).2.2]

theorem not_ready (awaits : Awaits p tag c f sha) (h : Ready p tag c early)
    (fixed : Consulted f early) : False := by
  obtain ⟨located, -⟩ := h
  exact absurd (awaits.located located (List.forall_mem_append.mp fixed).1) nofun

end Awaits

/-- **Only the look for changes can hold up** a publisher for which git has a release. -/
theorem Halted.heldUp {e : PublishFailure} (h : Halted p tag c mode calls e)
    (fixed : Consulted f calls) (awaits : Awaits p tag c f sha) :
    mode = .publish ∧ HeldUp p tag f e := by
  have named := awaits.named
  have looked := awaits.looked
  have head := awaits.head
  cases h with
  | nameUnasked =>
    rw [← fixed _ (List.mem_singleton_self _)] at named
    exact absurd named nofun
  | badTagName invalid =>
    rw [← fixed _ (List.mem_singleton_self _)] at named
    exact absurd (named.symm.trans invalid) nofun
  | @uncollected _ outcome _ _ failed =>
    have added := fixed (p.repository.call .addAll, outcome) (by simp)
    exact ⟨rfl, .uncollected (added ▸ failed)⟩
  | @uncompared _ added outcome _ _ ok failed =>
    have first := fixed (p.repository.call .addAll, .exited added) (by simp)
    have second := fixed (p.repository.call .compareIndex, outcome) (by simp)
    exact ⟨rfl, .uncompared (first ▸ ok) (second ▸ failed)⟩
  | @tagUnasked _ _ _ cause _ =>
    rw [← fixed (p.repository.call (.tagTarget tag), .notStarted cause) (by simp)] at looked
    exact absurd looked nofun
  | @noTag _ reply _ missing =>
    rw [← fixed (p.repository.call (.tagTarget tag), .exited reply) (by simp)] at looked
    exact absurd ((named?_eq_some_iff.mp looked).1.symm.trans missing) nofun
  | @headUnnamed _ _ _ _ outcome _ _ _ unnamed =>
    rw [← fixed (p.repository.call .head, outcome) (by simp)] at head
    exact absurd (head.symm.trans unnamed) nofun
  | @elsewhere _ _ _ target found _ _ _ _ other =>
    rw [← fixed (p.repository.call .head, .exited found) (by simp)] at head
    rw [← fixed (p.repository.call (.tagTarget tag), .exited target) (by simp)] at looked
    exact absurd ((named?_eq_some_iff.mp looked).2.2.trans (named?_eq_some_iff.mp head).2.2.symm)
      other
  | tagWithChanges opened _ _ _ _ =>
    obtain ⟨-, looking⟩ := opened.consulted (List.forall_mem_append.mp fixed).1
    obtain ⟨added, changes⟩ := looking rfl
    exact ⟨rfl, .changes added changes⟩
  | @remoteUnknown _ _ _ outcome _ _ insisting failed =>
    obtain ⟨reply, asked, good, -⟩ := awaits.clear insisting
    obtain rfl : outcome = .exited reply :=
      (fixed (p.repository.callWith c (.remoteTag tag), outcome) (by simp)).trans asked
    exact absurd (good.symm.trans failed) nofun
  | @tagOnRemote _ _ _ told _ insisting _ known =>
    obtain ⟨reply, asked, -, blank⟩ := awaits.clear insisting
    rw [← fixed (p.repository.callWith c (.remoteTag tag), .exited told) (by simp)] at asked
    rw [Git.Outcome.exited.inj asked] at known
    exact absurd (blank.symm.trans known) nofun
  | noChanges located _ =>
    exact absurd (awaits.located located (List.forall_mem_append.mp fixed).1) nofun
  | @headLost _ _ _ outcome _ _ _ unnamed =>
    rw [← fixed (p.repository.call .head, outcome) (by simp)] at head
    exact absurd (head.symm.trans unnamed) nofun

/-- **A release that git has is pushed**, or publishing is held up before it has tried anything. -/
theorem Course.of_awaits {told : List Event} {r : Except PublishFailure Published}
    (h : Course p tag c mode calls told r) (fixed : Consulted f calls)
    (awaits : Awaits p tag c f sha) : r = .ok (p.resumption tag sha) ∨
      mode = .publish ∧ ∃ e, r = .error e ∧ HeldUp p tag f e ∧ ∀ step, ¬Tried step calls := by
  cases h with
  | @halted _ _ e halted =>
    obtain ⟨publishing, held⟩ := halted.heldUp fixed awaits
    exact Or.inr ⟨publishing, e, rfl, held, fun step =>
      not_tried_of_idle (step?_of_preliminary halted.mem_preliminary)⟩
  | commitRefused ready _ | commitUnnamed ready _ _ | tagRefused ready _ _ _ _ =>
    exact (awaits.not_ready ready (List.forall_mem_append.mp fixed).1).elim
  | @pushRefused _ before _ _ outcome _ _ refused =>
    have pushed := awaits.pushed
    rw [← fixed (p.pushCall tag c, outcome) (by simp)] at pushed
    exact absurd (pushed.symm.trans refused) nofun
  | @published _ before _ _ reply approach sent =>
    have first := (List.forall_mem_append.mp fixed).1
    cases approach with
    | fresh ready _ _ _ _ =>
      exact (awaits.not_ready ready (List.forall_mem_append.mp first).1).elim
    | @found _ early remote again located clear hs hne =>
      have head := awaits.head
      rw [← first (p.repository.call .head, .exited again) (by simp)] at head
      rw [(named?_eq_some_iff.mp head).2.2]
      exact Or.inl rfl
    | left located clear =>
      obtain ⟨⟩ := awaits.located located (List.forall_mem_append.mp first).1
      exact Or.inl rfl

/-- What a publisher that only pushes has published was there before. -/
theorem Course.resumed {told : List Event} {r : Published}
    (h : Course p tag c .resume calls told (.ok r)) : r.resumed = true := by
  cases h with
  | published approach _ => cases approach with | left _ _ => rfl

/-- A course that ends well makes one push, and that ends well. -/
theorem Course.pushes {told : List Event} {r : Published}
    (h : Course p tag c mode calls told (.ok r)) (fixed : Consulted f calls) :
    ∃ reply : Git.Reply, f (p.pushCall tag c) = .exited reply ∧ reply.success = true ∧
      calls.filter (·.1.action.isPush) = [(p.pushCall tag c, .exited reply)] := by
  rcases h.push_cases with ⟨-, failed⟩ | ⟨before, sha, resumed, outcome, rfl, approach, good⟩
  · exact absurd failed nofun
  · have none : before.filter (·.1.action.isPush) = [] := by
      rw [List.filter_eq_nil_iff]
      intro x hx
      rw [approach.isPush x hx]
      exact Bool.false_ne_true
    obtain ⟨reply, rfl, sent⟩ := Git.Outcome.succeeded_iff.mp good.symm
    refine ⟨reply, (fixed (p.pushCall tag c, .exited reply) (by simp)).symm, sent, ?_⟩
    rw [List.filter_append, none]
    rfl

end Courses

/-! ## Two calls -/

section Calls
variable {σ : Type} {o : Outside σ} {answer : List String → Git.Reply} {p : Publisher}
  {tag : String} {c : Credential} {f : Git.Call → Git.Outcome}

/-- **What is asked of a git without memory** is a course with answers that are fixed. -/
theorem course_of_play (p : Publisher) (tag : String) (c : Credential)
    (constant : Constant o answer) (mode : Mode) (w : World σ) :
    let played := (p.enter mode tag c).run.play o w
    Course p tag c mode (gitCalls played.notes) (events played.notes) played.value ∧
      Consulted (consult answer w.files) (gitCalls played.notes) :=
  ⟨course_of_yields (Script.yields_play o _ w), constant.consulted_play
    (uses_enter (fun _ _ _ => trivial) (fun _ _ _ => trivial) trivial) w⟩

/-- A publisher for which git has a release is held up at the tag if there are changes, and else at
the commit. -/
theorem HeldUp.step {e : PublishFailure} (h : HeldUp p tag f e) {added compared : Git.Reply}
    (first : f (p.repository.call .addAll) = .exited added)
    (second : f (p.repository.call .compareIndex) = .exited compared) :
    ¬(added.code = 0 ∧ compared.code = 0) ∧ e.toError =
      .publishFailure (if added.code = 0 ∧ compared.code = 1 then .tag else .commit) e.reason := by
  cases h with
  | uncollected failed =>
    rw [first] at failed
    have missed : ¬added.code = 0 := fun h => absurd ((beq_iff_eq.mpr h).symm.trans failed) nofun
    refine ⟨fun h => missed h.1, ?_⟩
    rw [if_neg fun h => missed h.1]
    rfl
  | uncompared _ unknown =>
    rw [second] at unknown
    obtain ⟨unequal, unlike⟩ := changes?_eq_none_iff.mp unknown
    refine ⟨fun h => unequal h.2, ?_⟩
    rw [if_neg fun h => unlike h.2]
    rfl
  | changes ok found =>
    rw [first] at ok
    rw [second] at found
    have one : compared.code = 1 := changes?_eq_some_iff.mp found
    refine ⟨fun h => absurd (one.symm.trans h.2) (by decide), ?_⟩
    rw [if_pos ⟨beq_iff_eq.mp ok, one⟩]
    rfl

/-- What a git without memory has for a publisher, it answers the two calls that look for changes,
too: they are made from the same directory, and hold no text of the user's. -/
theorem Awaits.looking {fs : FileSystem} {sha : String}
    (awaits : Awaits p tag c (consult answer fs) sha) (action : Git.Action)
    (plain : action.arguments.any (·.toList.contains (Char.ofNat 0)) = false) :
    consult answer fs (p.repository.call action) = .exited (answer action.arguments) := by
  have head := awaits.head
  cases started : consult answer fs (p.repository.call .head) with
  | notStarted cause =>
    rw [started] at head
    exact absurd head nofun
  | exited reply =>
    have clean : (p.repository.call .head).holdsNul = false := by
      unfold consult at started
      by_contra nul
      rw [Bool.not_eq_false] at nul
      rw [if_pos nul] at started
      cases started
    exact Git.consult_of_started started rfl (Git.holdsNul_of_call clean plain)

/-- **Publishing once more agrees with resuming**, with a git without memory, from the same files.

If publishing resumes a release, then so does resuming, with the same result, and each makes the
same push and no other.  If resuming ends well, then publishing does so exactly if the changes can
be collected and there are none; if not, it fails at the commit, or at the tag where there are
changes, and has tried neither commit nor tag nor push. -/
theorem resume_agrees (p : Publisher) (tag : String) (c : Credential)
    (constant : Constant o answer) (w w' : World σ) (files : w'.files = w.files) :
    let published := (p.publishWith tag c).run.play o w
    let resumed := (p.resumeWith tag c).run.play o w'
    let added := answer Git.Action.addAll.arguments
    let compared := answer Git.Action.compareIndex.arguments
    let once := ∃ reply : Git.Reply, reply.success = true ∧
      pushes published.notes = [(p.pushCall tag c, .exited reply)] ∧
      pushes resumed.notes = [(p.pushCall tag c, .exited reply)]
    (∀ r, published.value = .ok r → r.resumed = true → resumed.value = .ok r ∧ once) ∧
    ∀ r, resumed.value = .ok r →
      (published.value = .ok r ↔ added.code = 0 ∧ compared.code = 0) ∧
      (published.value = .ok r → once) ∧
      (published.value ≠ .ok r → ∃ f, published.value = .error f ∧
        f.toError = .publishFailure
          (if added.code = 0 ∧ compared.code = 1 then .tag else .commit) f.reason ∧
        ∀ step, ¬Tried step (gitCalls published.notes)) := by
  intro published resumed added compared once
  obtain ⟨course, fixed⟩ := course_of_play p tag c constant .publish w
  obtain ⟨course', fixed'⟩ := course_of_play p tag c constant .resume w'
  change Course p tag c .publish (gitCalls published.notes) (events published.notes)
    published.value at course
  change Course p tag c .resume (gitCalls resumed.notes) (events resumed.notes)
    resumed.value at course'
  rw [files] at fixed'
  have same {r r' : Published} (hr : published.value = .ok r) (hr' : resumed.value = .ok r') :
      once := by
    rw [hr] at course
    rw [hr'] at course'
    obtain ⟨reply, sent, good, one⟩ := course.pushes fixed
    obtain ⟨reply', sent', -, one'⟩ := course'.pushes fixed'
    obtain rfl : reply = reply' := Git.Outcome.exited.inj (sent.symm.trans sent')
    exact ⟨reply, good, one, one'⟩
  constructor
  · intro r hr again
    rw [hr] at course
    obtain ⟨sha, rfl, awaits, -⟩ := course.awaits again fixed
    rcases course'.of_awaits fixed' awaits with done | ⟨⟨⟩, -⟩
    exact ⟨done, same hr done⟩
  · intro r hr
    rw [hr] at course'
    obtain ⟨sha, rfl, awaits, -⟩ := course'.awaits course'.resumed fixed'
    have first := awaits.looking .addAll (by decide)
    have second := awaits.looking .compareIndex (by decide)
    rcases course.of_awaits fixed awaits with done | ⟨-, f, failed, held, idle⟩
    · have clean : added.code = 0 ∧ compared.code = 0 := by
        rw [done] at course
        obtain ⟨-, -, -, looking⟩ := course.awaits rfl fixed
        obtain ⟨ok, unchanged⟩ := looking rfl
        rw [first] at ok
        rw [second] at unchanged
        exact ⟨beq_iff_eq.mp ok, changes?_eq_some_iff.mp unchanged⟩
      exact ⟨iff_of_true done clean, fun _ => same done hr, fun other => absurd done other⟩
    · obtain ⟨unclean, step⟩ := held.step first second
      have other : published.value ≠ .ok (p.resumption tag sha) := by
        rw [failed]
        exact nofun
      exact ⟨iff_of_false other unclean, fun done => absurd done other,
        fun _ => ⟨f, failed, step, idle⟩⟩

end Calls

section Sample

/-- Every call ends well and prints one letter, but for the look for changes if there are some. -/
def sampleAnswer (changes : Bool) (arguments : List String) : Git.Reply :=
  if changes ∧ arguments = Git.Action.compareIndex.arguments then sampleRefusal else sampleReply

/-- A git that goes by a table of answers. -/
def tableGit (answer : List String → Git.Reply) : Outside Unit where
  git call _ fs s := (answer call.action.arguments, fs, s)
  command _ fs s := ⟨.ok ⟨0, "", "", true⟩, fs, false, s⟩

theorem constant_tableGit (answer : List String → Git.Reply) :
    Constant (tableGit answer) answer :=
  ⟨fun _ _ _ _ => rfl, fun _ _ _ _ => rfl⟩

/-- Nothing is there but the root directory. -/
def sampleWorld : World Unit := ⟨⟨.empty, []⟩, [], false, 0, ()⟩

/-- The sample is published, or resumed. -/
def tableRun (mode : Mode) (changes : Bool) : Played Unit (Except PublishFailure Published) :=
  (sample.enter mode "v1" ⟨"secret"⟩).run.play (tableGit (sampleAnswer changes)) sampleWorld

/-- An earlier release is resumed in both ways; changes hold up the one, at the tag. -/
theorem resume_agrees_sample : Constant (tableGit (sampleAnswer false)) (sampleAnswer false) ∧
    (tableRun .publish false).value = .ok ⟨"v1", "a", "main", true⟩ ∧
    (tableRun .resume false).value = .ok ⟨"v1", "a", "main", true⟩ ∧
    (tableRun .resume true).value = .ok ⟨"v1", "a", "main", true⟩ ∧
    ∃ f, (tableRun .publish true).value = .error f ∧
      f.toError = .publishFailure .tag f.reason ∧
      ∀ step, ¬Tried step (gitCalls (tableRun .publish true).notes) := by
  have published : (tableRun .publish false).value = .ok ⟨"v1", "a", "main", true⟩ := by
    decide +kernel
  have resumed : (tableRun .resume true).value = .ok ⟨"v1", "a", "main", true⟩ := by
    decide +kernel
  obtain ⟨agrees, -⟩ := resume_agrees sample "v1" ⟨"secret"⟩
    (constant_tableGit (sampleAnswer false)) sampleWorld sampleWorld rfl
  obtain ⟨-, held⟩ := resume_agrees sample "v1" ⟨"secret"⟩
    (constant_tableGit (sampleAnswer true)) sampleWorld sampleWorld rfl
  obtain ⟨same, -, failed⟩ := held _ resumed
  have changes : ¬((sampleAnswer true Git.Action.addAll.arguments).code = 0 ∧
      (sampleAnswer true Git.Action.compareIndex.arguments).code = 0) := by decide
  exact ⟨constant_tableGit _, published, (agrees _ published rfl).1, resumed,
    failed fun done => changes (same.mp done)⟩

end Sample
end Publisher
end GatedRelease
