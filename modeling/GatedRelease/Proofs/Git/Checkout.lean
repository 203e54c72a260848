import GatedRelease.Git.Checkout
import GatedRelease.Proofs.FileSystem.Removal
import GatedRelease.Proofs.Git.Ways
import GatedRelease.Proofs.Script.Performance
import GatedRelease.Rehearsal

/-! # Getting a checkout

What stands where the checkout is to be decides what happens: git is asked whether it is the top of
a work tree, and if it is not, there is either an open place, which git is told to clone into, or
something that is left alone.  The ways through are written down once (`Gets`), and a run takes one
of them (`gets`).  Nothing is assumed of git but that its answer to the question changes no files,
and then a checkout is reused or cloned, and never overwritten (`ensureCheckout_reuses_or_clones`).

Paths are taken as they lead, links gone along: a link to a directory is that directory, and one to
nothing is an open place, so that git is asked for a clone there too.
-/
namespace GatedRelease
variable {σ : Type} {o : Outside σ} {w v : World σ}

namespace Git

/-- The action is a clone. -/
def Action.isClone : Action → Bool
  | .clone .. => true
  | _ => false

/-- Asking git, played. -/
theorem play_ask {call : Call} {outcome : Outcome} {place : Option Location}
    (h : w.callGit o call = (outcome, place, v)) :
    (ask call).run.play o w = ⟨outcome.judge .ok, v, [.git call place outcome]⟩ := by
  show ((Script.callGit call).bind fun outcome => _).play o w = _
  rw [Script.play_callGit_bind h]
  cases outcome <;> rfl

/-- Demanding success of git, played. -/
theorem play_demand {call : Call} {outcome : Outcome} {place : Option Location}
    (h : w.callGit o call = (outcome, place, v)) :
    (demand call).run.play o w = ⟨outcome.judge fun reply =>
      if reply.success then .ok reply else .error (.refused call.action.title reply.err),
      v, [.git call place outcome]⟩ := by
  unfold demand
  rw [Attempt.play_bind, play_ask h]
  cases outcome with
  | notStarted cause => rfl
  | exited reply =>
    dsimp only [Outcome.judge]
    cases reply.success <;> rfl

end Git

/-- Files are told by their entries and the directory that paths start from. -/
theorem FileSystem.eq_of_entries {fs gs : FileSystem} (entries : fs.tree.entries = gs.tree.entries)
    (home : fs.home = gs.home) : fs = gs := by
  obtain ⟨⟨xs, _, _, _⟩, h⟩ := fs
  obtain ⟨⟨ys, _, _, _⟩, k⟩ := gs
  obtain rfl : xs = ys := entries
  obtain rfl : h = k := home
  rfl

theorem FileSystem.pathExists_iff_canonical {fs : FileSystem} {p : String} :
    fs.pathExists p = true ↔ ∃ l, fs.canonical p = .ok l := by
  unfold pathExists
  cases fs.canonical p with
  | error e => exact ⟨nofun, nofun⟩
  | ok l => exact ⟨fun _ => ⟨l, rfl⟩, fun _ => rfl⟩

theorem FileSystem.holdsNothing_eq_ok_true {fs : FileSystem} {p : String} :
    fs.holdsNothing p = .ok true ↔
      ∃ l, fs.canonical p = .ok l ∧ fs.tree.isEmptyDirectory l = true := by
  unfold holdsNothing Tree.isEmptyDirectory
  cases h : fs.directoryAt p with
  | error e =>
    refine ⟨nofun, fun ⟨l, hl, empty⟩ => ?_⟩
    rw [Bool.and_eq_true, decide_eq_true_eq] at empty
    exact absurd (h.symm.trans (directoryAt_iff_canonical.mpr ⟨hl, empty.1⟩)) nofun
  | ok k =>
    obtain ⟨hk, hd⟩ := directoryAt_iff_canonical.mp h
    constructor
    · intro empty
      refine ⟨k, hk, ?_⟩
      rw [Bool.and_eq_true, decide_eq_true_eq]
      exact ⟨hd, Except.ok.inj empty⟩
    · rintro ⟨l, hl, empty⟩
      obtain rfl := Except.ok.inj (hk.symm.trans hl)
      rw [Bool.and_eq_true] at empty
      exact congrArg _ empty.2

namespace Repository
variable {r : Repository}

/-- Asking git for the top of the work tree that the checkout is in. -/
def question (r : Repository) : Git.Call := r.call .topLevel

/-- Asking git for a clone in the place of the checkout. -/
def cloning (r : Repository) : Git.Call := ⟨.clone r.branch r.remoteUrl r.checkout, ".", none⟩

/-- **The checkout is the top of a work tree**: asked in it, git ended well and named a path that
leads where the path of the checkout leads. -/
def Top (r : Repository) (files : FileSystem) (outcome : Git.Outcome) : Prop :=
  ∃ reply l, outcome = .exited reply ∧ reply.success = true ∧
    files.canonical reply.text = .ok l ∧ files.canonical r.checkout = .ok l

/-- The directories above the checkout, the nearest first. -/
def places (r : Repository) : List String :=
  match PathText.parent? r.checkout with
  | some parent => if parent = "" then [] else parent :: PathText.ancestors parent
  | none => []

/-- The directory that the checkout is to stand in is there, or it can be made. -/
def Placeable (r : Repository) (files : FileSystem) : Prop :=
  ∀ parent, PathText.parent? r.checkout = some parent → parent ≠ "" →
    (FileSystem.makeDirectories parent files).1 = .ok ()

/-- What a clone comes to. -/
def cloned : Git.Outcome → Except CheckoutFailure Bool
  | .notStarted cause => .error (.git (.notStarted cause))
  | .exited reply =>
    if reply.success then .ok true else .error (.git (.refused "git clone" reply.err))

/-- **The place is open to a clone**: nothing can be reached there, or git was asked, and it is an
empty directory that is not the top of a work tree. -/
inductive Open (o : Outside σ) (r : Repository) (w : World σ) : World σ → List Note → Prop
  | absent : w.files.pathExists r.checkout = false → Open o r w w []
  | empty {l : Location} {outcome : Git.Outcome} {place : Option Location} {v : World σ} :
      w.files.pathExists r.checkout = true → w.callGit o r.question = (outcome, place, v) →
      ¬ r.Top v.files outcome → v.files.canonical r.checkout = .ok l →
      v.files.tree.isEmptyDirectory l = true → Open o r w v [.git r.question place outcome]

/-- **The ways of getting a checkout.** -/
inductive Gets (o : Outside σ) (r : Repository) (w : World σ) :
    Played σ (Except CheckoutFailure Bool) → Prop
  /-- There is one. -/
  | reused {outcome : Git.Outcome} {place : Option Location} {v : World σ} :
      w.files.pathExists r.checkout = true → w.callGit o r.question = (outcome, place, v) →
      r.Top v.files outcome → Gets o r w ⟨.ok false, v, [.git r.question place outcome]⟩
  /-- Something else is in its place. -/
  | taken {outcome : Git.Outcome} {place : Option Location} {v : World σ} {f : CheckoutFailure} :
      w.files.pathExists r.checkout = true → w.callGit o r.question = (outcome, place, v) →
      ¬ r.Top v.files outcome →
      (∀ l, v.files.canonical r.checkout = .ok l → v.files.tree.isEmptyDirectory l = false) →
      Gets o r w ⟨.error f, v, [.git r.question place outcome]⟩
  /-- The directory that it is to stand in cannot be made. -/
  | placeless {v : World σ} {notes : List Note} {files : FileSystem} {f : CheckoutFailure} :
      Open o r w v notes → FileSystem.Made r.places v.files files → ¬ r.Placeable v.files →
      Gets o r w ⟨.error f, { v with files := files }, notes⟩
  /-- Git is asked for a clone. -/
  | cloned {v v' : World σ} {notes : List Note} {files : FileSystem} {outcome : Git.Outcome}
      {place : Option Location} :
      Open o r w v notes → FileSystem.Made r.places v.files files →
      ({ v with files := files } : World σ).callGit o r.cloning = (outcome, place, v') →
      Gets o r w ⟨cloned outcome, v', notes ++ [.git r.cloning place outcome]⟩

section Play
variable {outcome : Git.Outcome} {place : Option Location}

/-- Asking whether the checkout is the top of a work tree. -/
theorem play_isWorkTreeTop (h : w.callGit o r.question = (outcome, place, v)) :
    ∃ top : Bool, (Git.isWorkTreeTop r.checkout).play o w =
        ⟨top, v, [.git r.question place outcome]⟩ ∧ (top = true ↔ r.Top v.files outcome) := by
  have asked : w.callGit o ⟨.topLevel, r.checkout, none⟩ = (outcome, place, v) := h
  unfold Git.isWorkTreeTop
  rw [Script.bind_eq, Script.play_callGit_bind asked]
  cases outcome with
  | notStarted cause => exact ⟨false, rfl, nofun, fun ⟨_, _, other, _⟩ => absurd other nofun⟩
  | exited reply =>
    have looked (f : FileSystem → Bool) : (Script.inspect f).play o v = ⟨f v.files, v, []⟩ := rfl
    dsimp only
    by_cases good : reply.success = true
    · rw [if_pos good, looked]
      refine ⟨_, Eq.refl _, ?_⟩
      unfold Top
      dsimp only [Played.after]
      cases named : v.files.canonical reply.text with
      | error e => simp [named]
      | ok top =>
        cases here : v.files.canonical r.checkout with
        | error e => simp
        | ok l =>
          rw [decide_eq_true_eq]
          constructor
          · rintro rfl
            exact ⟨reply, top, rfl, good, named, rfl⟩
          · rintro ⟨_, k, ⟨⟩, -, there, same⟩
            exact (Except.ok.inj (named.symm.trans there)).trans (Except.ok.inj same).symm
    · rw [if_neg good]
      refine ⟨false, rfl, nofun, ?_⟩
      rintro ⟨_, l, ⟨⟩, well, -⟩
      exact absurd well good

theorem play_clone (h : w.callGit o r.cloning = (outcome, place, v)) :
    (r.clone >>= fun _ => (pure true : Attempt CheckoutFailure Bool)).run.play o w =
      ⟨cloned outcome, v, [.git r.cloning place outcome]⟩ := by
  show (((Git.demand r.cloning).orElseSay CheckoutFailure.git >>= fun _ => pure ()) >>=
    fun _ => pure true).run.play o w = _
  rw [bind_assoc, Attempt.play_bind, Attempt.play_orElseSay, Git.play_demand h]
  cases outcome with
  | notStarted cause => rfl
  | exited reply =>
    dsimp only [Git.Outcome.judge, cloned]
    cases reply.success <;> rfl

/-- Making the directory that the checkout is to stand in. -/
theorem play_makePlace (o : Outside σ) (r : Repository) (w : World σ) :
    ∃ result files, r.makePlace.run.play o w = ⟨result, { w with files := files }, []⟩ ∧
      FileSystem.Made r.places w.files files ∧ (r.Placeable w.files → result = .ok ()) := by
  unfold makePlace places Placeable
  cases hp : PathText.parent? r.checkout with
  | none => exact ⟨.ok (), w.files, rfl, .refl [] w.files, fun _ => rfl⟩
  | some parent =>
    dsimp only
    by_cases empty : parent = ""
    · rw [if_pos empty, if_pos empty]
      exact ⟨.ok (), w.files, rfl, .refl [] w.files, fun _ => rfl⟩
    · rw [if_neg empty, if_neg empty]
      obtain ⟨made, -⟩ := FileSystem.makeDirectories_made parent w.files
      refine ⟨_, _, Attempt.play_orElseSay .., made, fun placeable => ?_⟩
      exact congrArg (Except.mapError CheckoutFailure.file) (placeable parent rfl empty)

/-- Cloning afresh: the place is made, and git is asked. -/
def fresh (r : Repository) : Attempt CheckoutFailure Bool :=
  r.makePlace >>= fun _ => r.clone >>= fun _ => pure true

theorem ensureCheckout_eq (r : Repository) : r.ensureCheckout =
    Attempt.inspect (·.pathExists r.checkout) >>= fun there =>
      if there then
        ExceptT.lift (Git.isWorkTreeTop r.checkout) >>= fun top =>
          if top then pure false
          else
            Attempt.inspect (·.holdsNothing r.checkout) >>= fun
              | .error cause => throw (.file cause)
              | .ok false => throw (.foreign r.checkout)
              | .ok true => r.fresh
      else r.fresh := by
  unfold ensureCheckout fresh
  refine bind_congr fun there => ?_
  cases there with
  | false => rfl
  | true =>
    refine bind_congr fun top => ?_
    cases top with
    | true => rfl
    | false =>
      refine bind_congr fun holds => ?_
      obtain cause | (_ | _) := holds <;> rfl

/-- In an open place there is a clone, or there is none. -/
theorem gets_fresh {notes : List Note} (h : Open o r w v notes) :
    Gets o r w ⟨(r.fresh.run.play o v).value, (r.fresh.run.play o v).world,
      notes ++ (r.fresh.run.play o v).notes⟩ := by
  obtain ⟨result, files, placed, made, succeeds⟩ := play_makePlace o r v
  unfold fresh
  rw [Attempt.play_bind, placed]
  cases result with
  | error f => simpa using Gets.placeless h made fun placeable => absurd (succeeds placeable) nofun
  | ok _ =>
    obtain ⟨outcome, place, v', called⟩ : ∃ outcome place v',
        ({ v with files := files } : World σ).callGit o r.cloning = (outcome, place, v') :=
      ⟨_, _, _, rfl⟩
    dsimp only
    rw [play_clone called]
    exact .cloned h made called

/-- **A run gets its checkout in one of these ways.** -/
theorem gets (o : Outside σ) (r : Repository) (w : World σ) :
    Gets o r w (r.ensureCheckout.run.play o w) := by
  have look {α : Type} (f : FileSystem → α) (v : World σ) :
      (Attempt.inspect f : Attempt CheckoutFailure α).run.play o v = ⟨.ok (f v.files), v, []⟩ := rfl
  rw [ensureCheckout_eq, Attempt.play_bind, look]
  dsimp only
  cases there : w.files.pathExists r.checkout with
  | false => exact gets_fresh (.absent there)
  | true =>
    obtain ⟨outcome, place, v, asked⟩ : ∃ outcome place v,
        w.callGit o r.question = (outcome, place, v) := ⟨_, _, _, rfl⟩
    obtain ⟨top, answered, known⟩ := play_isWorkTreeTop asked
    have lifted : (ExceptT.lift (Git.isWorkTreeTop r.checkout) :
        Attempt CheckoutFailure Bool).run.play o w =
          ⟨.ok top, v, [.git r.question place outcome]⟩ := by
      show ((Git.isWorkTreeTop r.checkout).bind _).play o w = _
      rw [Script.play_bind, answered]
      rfl
    rw [if_pos rfl, Attempt.play_bind, lifted]
    cases top with
    | true => exact .reused there asked (known.mp rfl)
    | false =>
      have other : ¬ r.Top v.files outcome := fun h => absurd (known.mpr h) nofun
      dsimp only
      rw [if_neg nofun, Attempt.play_bind, look]
      dsimp only
      have full (h : v.files.holdsNothing r.checkout ≠ .ok true) (l : Location)
          (here : v.files.canonical r.checkout = .ok l) :
          v.files.tree.isEmptyDirectory l = false :=
        Bool.eq_false_iff.mpr fun empty =>
          h (FileSystem.holdsNothing_eq_ok_true.mpr ⟨l, here, empty⟩)
      cases holds : v.files.holdsNothing r.checkout with
      | error cause => exact .taken there asked other (full (by rw [holds]; exact nofun))
      | ok nothing =>
        cases nothing with
        | false => exact .taken there asked other (full (by rw [holds]; exact nofun))
        | true =>
          obtain ⟨l, here, empty⟩ := FileSystem.holdsNothing_eq_ok_true.mp holds
          simpa using gets_fresh (.empty there asked other here empty)

end Play

/-! ## Reused or cloned -/

/-- The calls for a clone that notes tell of, with what became of each. -/
def cloneCalls (notes : List Note) : Git.History :=
  (gitCalls notes).filter fun x => x.1.action.isClone

/-- The checkout is there, and git says so if it is asked. -/
def Reusable (o : Outside σ) (r : Repository) (w : World σ) : Prop :=
  w.files.pathExists r.checkout = true ∧ r.Top w.files (w.callGit o r.question).1

/-- If anything stands in the place of the checkout, it is an empty directory. -/
def Vacant (r : Repository) (files : FileSystem) : Prop :=
  ∀ l, files.canonical r.checkout = .ok l → files.tree.isEmptyDirectory l = true

namespace Open
variable {notes : List Note}

theorem cloneCalls (h : Open o r w v notes) : cloneCalls notes = [] := by
  cases h <;> rfl

theorem cloneCalls_append {outcome : Git.Outcome} {place : Option Location}
    (h : Open o r w v notes) :
    Repository.cloneCalls (notes ++ [.git r.cloning place outcome]) = [(r.cloning, outcome)] := by
  unfold Repository.cloneCalls
  rw [gitCalls_append, List.filter_append]
  exact congrArg (· ++ [(r.cloning, outcome)]) h.cloneCalls

/-- An open place is as it was. -/
theorem files (h : Open o r w v notes) (quiet : (w.callGit o r.question).2.2.files = w.files) :
    v.files = w.files := by
  cases h with
  | absent _ => rfl
  | empty _ asked _ _ _ =>
    rw [asked] at quiet
    exact quiet

/-- An open place is no checkout. -/
theorem not_reusable (h : Open o r w v notes)
    (quiet : (w.callGit o r.question).2.2.files = w.files) : ¬ Reusable o r w := by
  rintro ⟨there, top⟩
  cases h with
  | absent gone => exact Bool.false_ne_true (gone.symm.trans there)
  | empty _ asked other _ _ =>
    rw [asked] at quiet top
    exact other (quiet.symm ▸ top)

/-- In an open place there is an empty directory at the most. -/
theorem vacant (h : Open o r w v notes) (quiet : (w.callGit o r.question).2.2.files = w.files) :
    r.Vacant w.files := by
  intro l found
  have same := h.files quiet
  cases h with
  | absent gone =>
    exact absurd (gone.symm.trans (FileSystem.pathExists_iff_canonical.mpr ⟨l, found⟩)) nofun
  | empty _ _ _ here empty =>
    rw [same] at here empty
    rw [← Except.ok.inj (here.symm.trans found)]
    exact empty

end Open

/-- **Reused or cloned, and never overwritten**: what a run that gets a checkout does. -/
structure ReusedOrCloned (o : Outside σ) (r : Repository) (w : World σ)
    (played : Played σ (Except CheckoutFailure Bool)) : Prop where
  /-- Git is asked for one clone at the most. -/
  once : cloneCalls played.notes = [] ∨ ∃ outcome, cloneCalls played.notes = [(r.cloning, outcome)]
  /-- It is asked for one where nothing stands in the way. -/
  attempted : ¬ Reusable o r w → r.Vacant w.files → r.Placeable w.files →
    ∃ outcome, cloneCalls played.notes = [(r.cloning, outcome)]
  /-- What stands in the place, other than an empty directory, is left alone, with all else. -/
  spared : ∀ l, w.files.canonical r.checkout = .ok l → w.files.tree.isEmptyDirectory l = false →
    cloneCalls played.notes = [] ∧ played.world.files = w.files
  /-- What is reused is the top of a work tree. -/
  reused : played.value = .ok false ↔ Reusable o r w
  /-- There is a clone if git was asked for it and ended well. -/
  cloned : played.value = .ok true ↔
    ∃ reply, (r.cloning, .exited reply) ∈ cloneCalls played.notes ∧ reply.success = true
  /-- All else fails. -/
  failed : (∃ f, played.value = .error f) ↔ ¬ Reusable o r w ∧
    ¬ ∃ reply, (r.cloning, .exited reply) ∈ cloneCalls played.notes ∧ reply.success = true
  /-- Without a clone, nothing comes about but directories above the checkout. -/
  kept : cloneCalls played.notes = [] → FileSystem.Made r.places w.files played.world.files

/-- There is a clone if git ended well. -/
theorem cloned_eq_ok_iff {outcome : Git.Outcome} {made : Bool} :
    cloned outcome = .ok made ↔
      made = true ∧ ∃ reply, outcome = .exited reply ∧ reply.success = true := by
  rw [← Git.Outcome.succeeded_iff]
  cases outcome with
  | notStarted cause => exact ⟨nofun, fun h => absurd h.2 Bool.false_ne_true⟩
  | exited reply =>
    show (if reply.success = true then Except.ok true else _) = _ ↔ _ ∧ reply.success = true
    by_cases good : reply.success = true
    · rw [if_pos good]
      exact ⟨fun h => ⟨(Except.ok.inj h).symm, good⟩, fun h => congrArg _ h.1.symm⟩
    · rw [if_neg good]
      exact ⟨nofun, fun h => absurd h.2 good⟩

section Conclusion
variable {played : Played σ (Except CheckoutFailure Bool)}

/-- What is neither reused nor cloned has failed. -/
theorem failed_iff {value : Except CheckoutFailure Bool} {p q : Prop}
    (hp : value = .ok false ↔ p) (hq : value = .ok true ↔ q) :
    (∃ f, value = .error f) ↔ ¬ p ∧ ¬ q := by
  rw [← hp, ← hq]
  obtain f | (_ | _) := value <;> simp

/-- Without a call for a clone there is only the checkout that was there. -/
theorem reusedOrCloned_of_none (none : cloneCalls played.notes = [])
    (hindered : ¬ Reusable o r w → r.Vacant w.files → ¬ r.Placeable w.files)
    (spared : ¬ r.Vacant w.files → played.world.files = w.files)
    (reused : played.value = .ok false ↔ Reusable o r w) (fails : played.value ≠ .ok true)
    (kept : FileSystem.Made r.places w.files played.world.files) : ReusedOrCloned o r w played := by
  have cloned : played.value = .ok true ↔
      ∃ reply, (r.cloning, .exited reply) ∈ cloneCalls played.notes ∧ reply.success = true := by
    rw [none]
    simpa using fails
  have stands {l : Location} (found : w.files.canonical r.checkout = .ok l)
      (full : w.files.tree.isEmptyDirectory l = false) : ¬ r.Vacant w.files :=
    fun vacant => absurd (full.symm.trans (vacant l found)) nofun
  exact {
    once := .inl none
    attempted := fun other vacant placeable => absurd placeable (hindered other vacant)
    spared := fun _ found full => ⟨none, spared (stands found full)⟩
    reused := reused
    cloned := cloned
    failed := failed_iff reused cloned
    kept := fun _ => kept }

/-- **With the one call for a clone**, all hangs on how git ended. -/
theorem reusedOrCloned_of_call {outcome : Git.Outcome}
    (calls : cloneCalls played.notes = [(r.cloning, outcome)])
    (value : played.value = Repository.cloned outcome) (other : ¬ Reusable o r w)
    (vacant : r.Vacant w.files) : ReusedOrCloned o r w played := by
  have called : ∀ reply, (r.cloning, Git.Outcome.exited reply) ∈ cloneCalls played.notes ↔
      outcome = .exited reply := by
    intro reply
    rw [calls, List.mem_singleton, Prod.mk.injEq, eq_comm (a := Git.Outcome.exited reply)]
    exact and_iff_right rfl
  have reused : played.value = .ok false ↔ Reusable o r w := by
    rw [value, cloned_eq_ok_iff]
    exact ⟨fun h => absurd h.1 nofun, fun h => absurd h other⟩
  have cloned : played.value = .ok true ↔
      ∃ reply, (r.cloning, .exited reply) ∈ cloneCalls played.notes ∧ reply.success = true := by
    simp only [called]
    rw [value, cloned_eq_ok_iff]
    exact and_iff_right rfl
  exact {
    once := .inr ⟨outcome, calls⟩
    attempted := fun _ _ _ => ⟨outcome, calls⟩
    spared := fun l found full => absurd (full.symm.trans (vacant l found)) nofun
    reused := reused
    cloned := cloned
    failed := failed_iff reused cloned
    kept := fun none => absurd (calls.symm.trans none) (List.cons_ne_nil _ _) }

end Conclusion

/-- **A checkout is reused or cloned, and never overwritten**, whatever stands in its place and
whatever git does, if only its answer to the question changes no files. -/
theorem ensureCheckout_reuses_or_clones (o : Outside σ) (r : Repository) (w : World σ)
    (quiet : (w.callGit o r.question).2.2.files = w.files) :
    ReusedOrCloned o r w (r.ensureCheckout.run.play o w) := by
  generalize hp : r.ensureCheckout.run.play o w = played
  have ways := gets o r w
  rw [hp] at ways
  cases ways with
  | reused there asked top =>
    rw [asked] at quiet
    have reusable : Reusable o r w := by
      refine ⟨there, ?_⟩
      rw [asked]
      exact quiet ▸ top
    exact reusedOrCloned_of_none rfl (fun other => absurd reusable other) (fun _ => quiet)
      (iff_of_true rfl reusable) nofun (quiet ▸ .refl _ _)
  | taken there asked other full =>
    rw [asked] at quiet
    have foreign : ¬ Reusable o r w := by
      rintro ⟨-, top⟩
      rw [asked] at top
      exact other (quiet.symm ▸ top)
    have stands : ¬ r.Vacant w.files := by
      intro vacant
      obtain ⟨l, found⟩ := FileSystem.pathExists_iff_canonical.mp there
      have standing := full l
      rw [quiet] at standing
      exact absurd ((standing found).symm.trans (vacant l found)) nofun
    exact reusedOrCloned_of_none rfl (fun _ vacant => absurd vacant stands) (fun _ => quiet)
      (iff_of_false nofun foreign) nofun (quiet ▸ .refl _ _)
  | placeless free made stuck =>
    exact reusedOrCloned_of_none free.cloneCalls (fun _ _ => free.files quiet ▸ stuck)
      (fun stands => absurd (free.vacant quiet) stands)
      (iff_of_false nofun (free.not_reusable quiet)) nofun (free.files quiet ▸ made)
  | cloned free _ called =>
    exact reusedOrCloned_of_call free.cloneCalls_append rfl (free.not_reusable quiet)
      (free.vacant quiet)

section Sample

/-- An empty directory in a work tree. Git names the top of that, and clones as it is told. -/
def nestedWorld : World Rehearsal.Cast where
  files := Arrangement.arrange ⟨.empty, []⟩ [.file "README" [104] false, .directory "co"]
  vars := []
  cancelled := false
  nonce := 0
  outside := .start [⟨"rev-parse", none, [], ⟨0, [47, 10], []⟩⟩,
    ⟨"clone", none, [.file "co/README" [105] false], ⟨0, [], []⟩⟩] []

/-- An empty directory in a work tree is not taken for a checkout, and it is cloned into. -/
theorem ensureCheckout_reuses_or_clones_sample :
    (nestedWorld.callGit Rehearsal.outside (question ⟨"u", "co", "main"⟩)).2.2.files =
      nestedWorld.files ∧
    ((ensureCheckout ⟨"u", "co", "main"⟩).run.play Rehearsal.outside nestedWorld).value =
      .ok true ∧
    ReusedOrCloned Rehearsal.outside ⟨"u", "co", "main"⟩ nestedWorld
      ((ensureCheckout ⟨"u", "co", "main"⟩).run.play Rehearsal.outside nestedWorld) := by
  have quiet : (nestedWorld.callGit Rehearsal.outside (question ⟨"u", "co", "main"⟩)).2.2.files =
      nestedWorld.files := FileSystem.eq_of_entries (by decide +kernel) (by decide +kernel)
  exact ⟨quiet, by decide +kernel, ensureCheckout_reuses_or_clones _ _ _ quiet⟩

end Sample

end Repository
end GatedRelease
