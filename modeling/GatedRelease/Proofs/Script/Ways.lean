import GatedRelease.Script.Run

/-! # The ways through a script

A script asks, and its surroundings answer.  `Script.play` lets one `Outside` answer; here the
answers are whatever they are.  `s.Yields notes a` says that **some** answers lead the script `s` to
its end at `a`, with `notes` taken on the way.  Git may answer every call with every exit code and
every output, or not start at all, and nothing ties one answer to the next, so that a statement
about all the ways through a script holds of every git and every runner; `yields_play` gives the way
that a run takes.

A way through one script after another is a way through each (`yields_bind`), and of an attempt the
same holds, with failure ending the way (`Attempt.yields_bind`): what an operation can do is said
once, as the ways through it, and never by opening it again.

`s.Uses allowed` bounds what a script can ask for at all, whatever it is answered. It is the cheap
half of such a statement: a script that does not ask for a push makes none.
-/
namespace GatedRelease

namespace Script
variable {α β : Type}

/-- **A way through a script**: with some answers to its requests, whatever they are, it takes the
notes and ends at the value. -/
def Yields : Script α → List Note → α → Prop
  | done a, notes, b => notes = [] ∧ b = a
  | look next, notes, b => ∃ fs, (next fs).Yields notes b
  | store _ next, notes, b => next.Yields notes b
  | git call next, notes, b => ∃ place outcome rest,
      notes = .git call place outcome :: rest ∧ (next outcome).Yields rest b
  | command c next, notes, b => ∃ result rest,
      notes = .command c result :: rest ∧ (next result).Yields rest b
  | environment _ next, notes, b => ∃ value, (next value).Yields notes b
  | cancelled next, notes, b => ∃ raised, (next raised).Yields notes b
  | raise next, notes, b => next.Yields notes b
  | suffix next, notes, b => ∃ text, (next text).Yields notes b
  | note n next, notes, b => ∃ rest, notes = n :: rest ∧ next.Yields rest b

/-- Every run takes a way through its script. -/
theorem yields_play {σ : Type} (o : Outside σ) (s : Script α) (w : World σ) :
    s.Yields (s.play o w).notes (s.play o w).value := by
  induction s generalizing w with
  | done a => exact ⟨rfl, rfl⟩
  | look next ih => exact ⟨w.files, ih w.files w⟩
  | store fs next ih => exact ih _
  | git call next ih => exact ⟨_, _, _, rfl, ih _ _⟩
  | command c next ih => exact ⟨_, _, rfl, ih _ _⟩
  | environment name next ih => exact ⟨_, ih _ w⟩
  | cancelled next ih => exact ⟨w.cancelled, ih _ w⟩
  | raise next ih => exact ih _
  | suffix next ih => exact ⟨_, ih _ _⟩
  | note n next ih => exact ⟨_, rfl, ih w⟩

/-- **A way through one script after another** is a way through the first, and one through the
second from where the first ended. -/
theorem yields_bind {s : Script α} {f : α → Script β} {notes : List Note} {b : β} :
    (s.bind f).Yields notes b ↔
      ∃ a first second, s.Yields first a ∧ (f a).Yields second b ∧ notes = first ++ second := by
  induction s generalizing notes with
  | done a =>
    constructor
    · intro h
      exact ⟨a, [], notes, ⟨rfl, rfl⟩, h, rfl⟩
    · rintro ⟨_, _, second, ⟨rfl, rfl⟩, h, rfl⟩
      exact h
  | store fs next ih | raise next ih => exact ih
  | look next ih | environment name next ih | cancelled next ih | suffix next ih =>
    constructor
    · rintro ⟨x, h⟩
      obtain ⟨a, first, second, hs, hf, rfl⟩ := (ih x).mp h
      exact ⟨a, first, second, ⟨x, hs⟩, hf, rfl⟩
    · rintro ⟨a, first, second, ⟨x, hs⟩, hf, rfl⟩
      exact ⟨x, (ih x).mpr ⟨a, first, second, hs, hf, rfl⟩⟩
  | git call next ih =>
    constructor
    · rintro ⟨place, outcome, rest, rfl, h⟩
      obtain ⟨a, first, second, hs, hf, rfl⟩ := (ih outcome).mp h
      exact ⟨a, _ :: first, second, ⟨place, outcome, first, rfl, hs⟩, hf, rfl⟩
    · rintro ⟨a, _, second, ⟨place, outcome, first, rfl, hs⟩, hf, rfl⟩
      exact ⟨place, outcome, _, rfl, (ih outcome).mpr ⟨a, first, second, hs, hf, rfl⟩⟩
  | command c next ih =>
    constructor
    · rintro ⟨result, rest, rfl, h⟩
      obtain ⟨a, first, second, hs, hf, rfl⟩ := (ih result).mp h
      exact ⟨a, _ :: first, second, ⟨result, first, rfl, hs⟩, hf, rfl⟩
    · rintro ⟨a, _, second, ⟨result, first, rfl, hs⟩, hf, rfl⟩
      exact ⟨result, _, rfl, (ih result).mpr ⟨a, first, second, hs, hf, rfl⟩⟩
  | note n next ih =>
    constructor
    · rintro ⟨rest, rfl, h⟩
      obtain ⟨a, first, second, hs, hf, rfl⟩ := ih.mp h
      exact ⟨a, n :: first, second, ⟨first, rfl, hs⟩, hf, rfl⟩
    · rintro ⟨a, _, second, ⟨first, rfl, hs⟩, hf, rfl⟩
      exact ⟨_, rfl, ih.mpr ⟨a, first, second, hs, hf, rfl⟩⟩

@[simp] theorem yields_done {a b : α} {notes : List Note} :
    (done a).Yields notes b ↔ notes = [] ∧ b = a := Iff.rfl

theorem yields_callGit {call : Git.Call} {notes : List Note} {r : Git.Outcome} :
    (callGit call).Yields notes r ↔ ∃ place, notes = [.git call place r] := by
  constructor
  · rintro ⟨place, _, _, rfl, rfl, rfl⟩
    exact ⟨place, rfl⟩
  · rintro ⟨place, rfl⟩
    exact ⟨place, r, [], rfl, rfl, rfl⟩

theorem yields_run {c : Command} {notes : List Note} {r : Except RunFailure Output} :
    (run c).Yields notes r ↔ notes = [.command c r] := by
  constructor
  · rintro ⟨_, _, rfl, rfl, rfl⟩
    rfl
  · rintro rfl
    exact ⟨r, [], rfl, rfl, rfl⟩

theorem yields_record {n : Note} {notes : List Note} {u : Unit} :
    (record n).Yields notes u ↔ notes = [n] := by
  constructor
  · rintro ⟨_, rfl, rfl, -⟩
    rfl
  · rintro rfl
    exact ⟨[], rfl, rfl, rfl⟩

end Script

/-! ## Attempts -/

namespace Attempt
variable {α β ε δ : Type} {x : Attempt ε α} {notes : List Note}

/-- **A way through one attempt after another** ends where the first fails, or goes on from where
the first ended. -/
theorem yields_bind {f : α → Attempt ε β} {r : Except ε β} :
    (x >>= f).run.Yields notes r ↔
      (∃ e, x.run.Yields notes (.error e) ∧ r = .error e) ∨
        ∃ a first second, x.run.Yields first (.ok a) ∧ (f a).run.Yields second r ∧
          notes = first ++ second := by
  rw [ExceptT.run_bind, Script.bind_eq, Script.yields_bind]
  constructor
  · rintro ⟨a | a, first, second, hx, hf, rfl⟩
    · obtain ⟨rfl, rfl⟩ := hf
      exact Or.inl ⟨a, by simpa using hx, rfl⟩
    · exact Or.inr ⟨a, first, second, hx, hf, rfl⟩
  · rintro (⟨e, hx, rfl⟩ | ⟨a, first, second, hx, hf, rfl⟩)
    · exact ⟨.error e, notes, [], hx, ⟨rfl, rfl⟩, (List.append_nil _).symm⟩
    · exact ⟨.ok a, first, second, hx, hf, rfl⟩

@[simp] theorem yields_pure {a : α} {r : Except ε α} :
    (pure a : Attempt ε α).run.Yields notes r ↔ notes = [] ∧ r = .ok a := Iff.rfl

@[simp] theorem yields_throw {e : ε} {r : Except ε α} :
    (throw e : Attempt ε α).run.Yields notes r ↔ notes = [] ∧ r = .error e := Iff.rfl

@[simp] theorem yields_ofExcept {a r : Except ε α} :
    (ofExcept a).run.Yields notes r ↔ notes = [] ∧ r = a := Iff.rfl

/-- What is no attempt cannot fail. -/
theorem yields_lift {s : Script α} {r : Except ε α} :
    (ExceptT.lift s : Attempt ε α).run.Yields notes r ↔ ∃ a, s.Yields notes a ∧ r = .ok a := by
  change (s.bind fun a => Script.done (Except.ok a)).Yields notes r ↔ _
  rw [Script.yields_bind]
  constructor
  · rintro ⟨a, first, _, hs, ⟨rfl, rfl⟩, rfl⟩
    exact ⟨a, by simpa using hs, rfl⟩
  · rintro ⟨a, hs, rfl⟩
    exact ⟨a, notes, [], hs, ⟨rfl, rfl⟩, (List.append_nil _).symm⟩

/-- Going on from what is no attempt. -/
theorem yields_lift_bind {s : Script α} {f : α → Attempt ε β} {r : Except ε β} :
    ((liftM s : Attempt ε α) >>= f).run.Yields notes r ↔
      ∃ a first second, s.Yields first a ∧ (f a).run.Yields second r ∧ notes = first ++ second := by
  rw [yields_bind]
  constructor
  · rintro (⟨e, hs, -⟩ | ⟨a, first, second, hs, hf, rfl⟩)
    · obtain ⟨_, -, ⟨⟩⟩ := yields_lift.mp hs
    · obtain ⟨_, hs, ⟨⟩⟩ := yields_lift.mp hs
      exact ⟨a, first, second, hs, hf, rfl⟩
  · rintro ⟨a, first, second, hs, hf, rfl⟩
    exact Or.inr ⟨a, first, second, yields_lift.mpr ⟨a, hs, rfl⟩, hf, rfl⟩

/-- A step on the files may find any files. -/
theorem yields_files {step : FileStep ε α} {r : Except ε α} :
    (Attempt.files step).run.Yields notes r ↔ notes = [] ∧ ∃ fs, r = (step fs).1 := by
  constructor
  · rintro ⟨fs, rfl, rfl⟩
    exact ⟨rfl, fs, rfl⟩
  · rintro ⟨rfl, fs, rfl⟩
    exact ⟨fs, rfl, rfl⟩

theorem yields_emit_bind {e : Event} {f : Unit → Attempt ε β} {r : Except ε β} :
    ((liftM (Script.emit e) : Attempt ε Unit) >>= f).run.Yields notes r ↔
      ∃ rest, (f ()).run.Yields rest r ∧ notes = .event e :: rest := by
  rw [yields_lift_bind]
  constructor
  · rintro ⟨_, first, second, hs, hf, rfl⟩
    rw [Script.yields_record.mp hs]
    exact ⟨second, hf, rfl⟩
  · rintro ⟨rest, hf, rfl⟩
    exact ⟨(), [_], rest, Script.yields_record.mpr rfl, hf, rfl⟩

theorem yields_orElseSay {say : ε → δ} {r : Except δ α} :
    (x.orElseSay say).run.Yields notes r ↔
      (∃ e, x.run.Yields notes (.error e) ∧ r = .error (say e)) ∨
        ∃ a, x.run.Yields notes (.ok a) ∧ r = .ok a := by
  unfold orElseSay
  rw [ExceptT.run_mk, Script.bind_eq, Script.yields_bind]
  constructor
  · rintro ⟨a | a, first, second, hx, hf, rfl⟩ <;> obtain ⟨rfl, rfl⟩ := hf
    · exact Or.inl ⟨a, by simpa using hx, rfl⟩
    · exact Or.inr ⟨a, by simpa using hx, rfl⟩
  · rintro (⟨e, hx, rfl⟩ | ⟨a, hx, rfl⟩)
    · exact ⟨.error e, notes, [], hx, ⟨rfl, rfl⟩, (List.append_nil _).symm⟩
    · exact ⟨.ok a, notes, [], hx, ⟨rfl, rfl⟩, (List.append_nil _).symm⟩

/-- Going on from an attempt whose failure is put in other words. -/
theorem yields_orElseSay_bind {say : ε → δ} {f : α → Attempt δ β} {r : Except δ β} :
    (x.orElseSay say >>= f).run.Yields notes r ↔
      (∃ e, x.run.Yields notes (.error e) ∧ r = .error (say e)) ∨
        ∃ a first second, x.run.Yields first (.ok a) ∧ (f a).run.Yields second r ∧
          notes = first ++ second := by
  simp only [yields_bind, yields_orElseSay]
  constructor
  · rintro (⟨_, ⟨e, hx, he⟩ | ⟨_, -, ⟨⟩⟩, rfl⟩ | ⟨a, first, second, ⟨_, -, ⟨⟩⟩ | ⟨_, hx, ⟨⟩⟩, hf⟩)
    · exact Or.inl ⟨e, hx, by rw [Except.error.inj he]⟩
    · exact Or.inr ⟨_, first, second, hx, hf⟩
  · rintro (⟨e, hx, rfl⟩ | ⟨a, first, second, hx, hf⟩)
    · exact Or.inl ⟨_, Or.inl ⟨e, hx, rfl⟩, rfl⟩
    · exact Or.inr ⟨a, first, second, Or.inr ⟨a, hx, rfl⟩, hf⟩

end Attempt

/-! ## What a script can ask for -/

/-- What a script asks of its surroundings. -/
inductive Request
  | look
  | store
  | git (call : Git.Call)
  | command (c : Command)
  | environment (name : String)
  | cancelled
  | raise
  | suffix
  /-- To write down something that it did itself. -/
  | remark

/-- The request that a note tells of. -/
def Note.request : Note → Request
  | .git call _ _ => .git call
  | .command c _ => .command c
  | .event _ | .entered .. | .moved .. => .remark

namespace Script
variable {α β : Type} {allowed : Request → Prop}

/-- **All that the script can ask for is allowed**, whatever it is answered.  What it writes down
itself is a remark, and no call or command that it made up. -/
def Uses (allowed : Request → Prop) : Script α → Prop
  | done _ => True
  | look next => allowed .look ∧ ∀ fs, (next fs).Uses allowed
  | store _ next => allowed .store ∧ next.Uses allowed
  | git call next => allowed (.git call) ∧ ∀ outcome, (next outcome).Uses allowed
  | command c next => allowed (.command c) ∧ ∀ result, (next result).Uses allowed
  | environment name next => allowed (.environment name) ∧ ∀ value, (next value).Uses allowed
  | cancelled next => allowed .cancelled ∧ ∀ raised, (next raised).Uses allowed
  | raise next => allowed .raise ∧ next.Uses allowed
  | suffix next => allowed .suffix ∧ ∀ text, (next text).Uses allowed
  | note n next => n.request = .remark ∧ allowed .remark ∧ next.Uses allowed

theorem Uses.bind {s : Script α} {f : α → Script β} (hs : s.Uses allowed)
    (hf : ∀ a, (f a).Uses allowed) : (s.bind f).Uses allowed := by
  induction s with
  | done a => exact hf a
  | store _ next ih | raise next ih => exact ⟨hs.1, ih hs.2⟩
  | note _ next ih => exact ⟨hs.1, hs.2.1, ih hs.2.2⟩
  | look next ih | git _ next ih | command _ next ih | environment _ next ih
  | cancelled next ih | suffix next ih => exact ⟨hs.1, fun x => ih x (hs.2 x)⟩

/-- On every way through the script, each note tells of a request that is allowed. -/
theorem Uses.note {s : Script α} (hs : s.Uses allowed) {notes : List Note} {a : α}
    (h : s.Yields notes a) : ∀ n ∈ notes, allowed n.request := by
  induction s generalizing notes with
  | done b =>
    obtain ⟨rfl, -⟩ := h
    exact fun n hn => absurd hn List.not_mem_nil
  | store _ next ih | raise next ih => exact ih hs.2 h
  | look next ih | environment _ next ih | cancelled next ih | suffix next ih =>
    obtain ⟨x, h⟩ := h
    exact ih x (hs.2 x) h
  | git call next ih =>
    obtain ⟨place, outcome, rest, rfl, h⟩ := h
    exact List.forall_mem_cons.mpr ⟨hs.1, ih outcome (hs.2 outcome) h⟩
  | command c next ih =>
    obtain ⟨result, rest, rfl, h⟩ := h
    exact List.forall_mem_cons.mpr ⟨hs.1, ih result (hs.2 result) h⟩
  | note n next ih =>
    -- What a script writes down itself is a remark, and remarks are allowed.
    obtain ⟨rest, rfl, h⟩ := h
    obtain ⟨hn, remark, hs⟩ := hs
    exact List.forall_mem_cons.mpr ⟨hn ▸ remark, ih hs h⟩

end Script

namespace Attempt
variable {α β ε δ : Type} {allowed : Request → Prop}

theorem uses_bind {x : Attempt ε α} {f : α → Attempt ε β} (hx : x.run.Uses allowed)
    (hf : ∀ a, (f a).run.Uses allowed) : (x >>= f).run.Uses allowed := by
  rw [ExceptT.run_bind]
  refine hx.bind fun r => ?_
  cases r with
  | ok a => exact hf a
  | error e => trivial

theorem uses_orElseSay {x : Attempt ε α} {say : ε → δ} (hx : x.run.Uses allowed) :
    (x.orElseSay say).run.Uses allowed :=
  hx.bind fun r => by cases r <;> trivial

theorem uses_lift {s : Script α} (hs : s.Uses allowed) :
    (ExceptT.lift s : Attempt ε α).run.Uses allowed :=
  hs.bind fun _ => trivial

end Attempt

/-! ## Places in lists -/

section Places
variable {α : Type} {xs ys before after : List α} {x y : α}

/-- A place in two lists is a place in one of them. -/
theorem append_eq_append_cons (h : xs ++ ys = before ++ x :: after) :
    (∃ rest, xs = before ++ x :: rest ∧ after = rest ++ ys) ∨
      ∃ rest, before = xs ++ rest ∧ ys = rest ++ x :: after := by
  rcases List.append_eq_append_iff.mp h with ⟨rest, rfl, hr⟩ | ⟨rest, rfl, hr⟩
  · exact Or.inr ⟨rest, rfl, hr⟩
  · cases rest with
    | nil => exact Or.inr ⟨[], by simp, hr.symm⟩
    | cons z rest =>
      obtain ⟨rfl, rfl⟩ := List.cons.inj hr
      exact Or.inl ⟨rest, rfl, rfl⟩

/-- What is the first of its kind at the end is the only one. -/
theorem eq_of_append_last {P : α → Prop} (hl : ∀ z ∈ xs, ¬ P z) (hx : P x)
    (h : xs ++ [y] = before ++ x :: after) : before = xs ∧ x = y ∧ after = [] := by
  rcases append_eq_append_cons h with ⟨rest, rfl, -⟩ | ⟨rest, rfl, hr⟩
  · exact absurd hx (hl x (by simp))
  · cases rest with
    | nil =>
      obtain ⟨rfl, rfl⟩ := List.cons.inj hr
      exact ⟨List.append_nil _, rfl, rfl⟩
    | cons z rest =>
      obtain ⟨-, hr⟩ := List.cons.inj hr
      exact absurd hr.symm (by simp)

end Places

/-! ## What the notes tell -/

namespace Note

/-- The call of git that a note tells of, with what became of it. -/
def call? : Note → Option (Git.Call × Git.Outcome)
  | .git call _ outcome => some (call, outcome)
  | .command .. | .event _ | .entered .. | .moved .. => none

/-- The command that a note tells of, with what became of it. -/
def command? : Note → Option (Command × Except RunFailure Output)
  | .command c result => some (c, result)
  | .git .. | .event _ | .entered .. | .moved .. => none

/-- What those who watch were told by a note. -/
def event? : Note → Option Event
  | .event e => some e
  | .git .. | .command .. | .entered .. | .moved .. => none

end Note

/-- The calls of git that notes tell of, in order. -/
def gitCalls (notes : List Note) : List (Git.Call × Git.Outcome) := notes.filterMap Note.call?

/-- The commands that notes tell of, in order. -/
def commandRuns (notes : List Note) : List (Command × Except RunFailure Output) :=
  notes.filterMap Note.command?

/-- What those who watch were told, in order. -/
def events (notes : List Note) : List Event := notes.filterMap Note.event?

@[simp] theorem gitCalls_append (first second : List Note) :
    gitCalls (first ++ second) = gitCalls first ++ gitCalls second :=
  List.filterMap_append

@[simp] theorem commandRuns_append (first second : List Note) :
    commandRuns (first ++ second) = commandRuns first ++ commandRuns second :=
  List.filterMap_append

@[simp] theorem events_append (first second : List Note) :
    events (first ++ second) = events first ++ events second :=
  List.filterMap_append

@[simp] theorem gitCalls_nil : gitCalls [] = [] := rfl

@[simp] theorem commandRuns_nil : commandRuns [] = [] := rfl

@[simp] theorem events_nil : events [] = [] := rfl

@[simp] theorem gitCalls_event (e : Event) (notes : List Note) :
    gitCalls (.event e :: notes) = gitCalls notes := rfl

@[simp] theorem events_event (e : Event) (notes : List Note) :
    events (.event e :: notes) = e :: events notes := rfl

theorem mem_gitCalls {notes : List Note} {call : Git.Call} {outcome : Git.Outcome} :
    (call, outcome) ∈ gitCalls notes ↔ ∃ place, Note.git call place outcome ∈ notes := by
  unfold gitCalls
  rw [List.mem_filterMap]
  constructor
  · rintro ⟨n, hn, h⟩
    cases n <;> simp only [Note.call?, Option.some.injEq, Prod.mk.injEq, reduceCtorEq] at h
    obtain ⟨rfl, rfl⟩ := h
    exact ⟨_, hn⟩
  · rintro ⟨place, hn⟩
    exact ⟨_, hn, rfl⟩

end GatedRelease
