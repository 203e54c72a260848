import GatedRelease.Proofs.FileSystem.Removal

/-! # What stays inside a directory

A path that goes down from a directory and along no link ends below the directory, at a location
that its names spell (`Walks.descends`).  So it is enough to know where links are not: `Kept` says
of two states of the files that they differ only strictly below the directory, and that the second
has no new link in the first few directories below it.  A step on the files keeps to this whenever
the places that it changes are that deep.
-/
namespace GatedRelease

section Inversion
variable {ε δ α β : Type}

theorem ok_of_bind {x : Except ε α} {f : α → Except ε β} {b : β} (h : x >>= f = .ok b) :
    ∃ a, x = .ok a ∧ f a = .ok b := by
  cases x with
  | error e => exact absurd h nofun
  | ok a => exact ⟨a, rfl, h⟩

theorem ok_of_guard {c : Prop} [Decidable c] {e : ε} {x : Except ε α} {a : α}
    (h : (if c then .error e else x) = .ok a) : ¬c ∧ x = .ok a := by
  by_cases hc : c
  · rw [if_pos hc] at h
    exact absurd h nofun
  · rw [if_neg hc] at h
    exact ⟨hc, h⟩

theorem mapError_eq_ok_iff {r : Except ε α} {say : ε → δ} {a : α} :
    r.mapError say = .ok a ↔ r = .ok a := by
  cases r with
  | error e => exact ⟨nofun, nofun⟩
  | ok b => exact ⟨fun h => congrArg _ (Except.ok.inj h), fun h => congrArg _ (Except.ok.inj h)⟩

theorem mapError_eq_error_iff {r : Except ε α} {say : ε → δ} {d : δ} :
    r.mapError say = .error d ↔ ∃ e, r = .error e ∧ say e = d := by
  cases r with
  | ok a => exact ⟨nofun, fun ⟨_, h, _⟩ => absurd h nofun⟩
  | error e =>
    constructor
    · exact fun h => ⟨e, rfl, Except.error.inj h⟩
    · rintro ⟨_, ⟨⟩, rfl⟩
      rfl

end Inversion

/-! ## What a step preserves -/

namespace FileStep
variable {ε δ α β : Type} {P : FileSystem → Prop}

/-- **What holds of the files before the step holds after it**, whether it succeeds or fails. -/
def Preserves (P : FileSystem → Prop) (step : FileStep ε α) : Prop := ∀ fs, P fs → P (step fs).2

/-- What the first step finds may be known. -/
theorem Preserves.bind_of {Q : α → Prop} {x : FileStep ε α} {f : α → FileStep ε β}
    (hx : x.Preserves P) (found : ∀ fs a, P fs → (x fs).1 = .ok a → Q a)
    (hf : ∀ a, Q a → (f a).Preserves P) : (x >>= f).Preserves P := by
  intro fs h
  have after := hx fs h
  rw [bind_apply]
  rcases hr : x fs with ⟨e | a, fs'⟩ <;> rw [hr] at after
  · exact after
  · have value : (x fs).1 = .ok a := by rw [hr]
    exact hf a (found fs a h value) fs' after

theorem Preserves.bind {x : FileStep ε α} {f : α → FileStep ε β} (hx : x.Preserves P)
    (hf : ∀ a, (f a).Preserves P) : (x >>= f).Preserves P :=
  hx.bind_of (Q := fun _ => True) (fun _ _ _ _ => trivial) fun a _ => hf a

theorem Preserves.orElseSay {x : FileStep ε α} (hx : x.Preserves P) (say : ε → δ) :
    (x.orElseSay say).Preserves P := by
  intro fs h
  rw [orElseSay_apply]
  exact hx fs h

theorem Preserves.attempt {x : FileStep ε α} (hx : x.Preserves P) :
    (x.attempt : FileStep δ (Except ε α)).Preserves P := hx

theorem preserves_look (f : FileSystem → Except ε α) : (look f).Preserves P := fun _ h => h

theorem preserves_get : (get : FileStep ε FileSystem).Preserves P := fun _ h => h

theorem preserves_pure (a : α) : (pure a : FileStep ε α).Preserves P := fun _ h => h

theorem preserves_throw (e : ε) : (throw e : FileStep ε α).Preserves P := fun _ h => h

theorem preserves_atOnce {f : FileSystem → Except ε FileSystem}
    (h : ∀ fs fs', P fs → f fs = .ok fs' → P fs') : (atOnce f).Preserves P := by
  intro fs hp
  unfold atOnce
  cases hf : f fs with
  | error e => exact hp
  | ok fs' => exact h fs fs' hp hf

end FileStep

/-! ## Where a changed tree has what -/

namespace Tree
variable {t : Tree} {l k S D : Location} {e x : Entry}

theorem find?_put_cases (h : (t.put l e).find? k = some x) :
    t.find? k = some x ∨ k = l ∧ x = e := by
  by_cases can : t.CanHold l e
  · rw [find?_put can] at h
    by_cases hk : k = l
    · rw [if_pos hk] at h
      exact Or.inr ⟨hk, (Option.some.inj h).symm⟩
    · rw [if_neg hk] at h
      exact Or.inl h
  · rw [put, dif_neg can] at h
    exact Or.inl h

theorem find?_plant_cases {xs : List (Location × Entry)}
    (h : (t.plant l xs).find? k = some x) :
    t.find? k = some x ∨ ∃ y ∈ xs, k = l ++ y.1 ∧ x = y.2 := by
  induction xs generalizing t with
  | nil => exact Or.inl h
  | cons y xs ih =>
    rcases ih (t := t.put (l ++ y.1) y.2) h with before | ⟨z, hz, here⟩
    · rcases find?_put_cases before with before | here
      · exact Or.inl before
      · exact Or.inr ⟨y, .head _, here⟩
    · exact Or.inr ⟨z, .tail _ hz, here⟩

/-- **After a move there is nothing new**: what is found was there, or has come along. -/
theorem find?_move_cases (hS : S ≠ []) (hD : D ≠ []) (h : (t.move S D).find? l = some x) :
    t.find? l = some x ∨ ∃ k, l = D ++ k ∧ t.find? (S ++ k) = some x := by
  unfold move at h
  cases he : t.find? S with
  | none =>
    rw [he] at h
    exact Or.inl h
  | some e =>
    rw [he] at h
    rcases find?_plant_cases (l := D) h with before | ⟨y, hy, rfl, rfl⟩
    · rcases find?_put_cases before with before | ⟨rfl, rfl⟩
      · exact Or.inl (prune_le t hS _ _ (prune_le _ hD _ _ before))
      · refine Or.inr ⟨[], (List.append_nil _).symm, ?_⟩
        rw [List.append_nil]
        exact he
    · have hne : y.1 ≠ [] := (t.below S).rooted y hy
      refine Or.inr ⟨y.1, rfl, ?_⟩
      rw [← find?_below t S hne]
      exact (find?_eq_some_iff hne).mpr hy

/-- What is apart from both places is not moved. -/
theorem find?_move_apart (hS : S ≠ []) (hD : D ≠ []) (hl : S.within l = none)
    (hl' : D.within l = none) : (t.move S D).find? l = t.find? l := by
  unfold move
  cases he : t.find? S with
  | none => rfl
  | some e =>
    have ne := Location.within_eq_none_iff.mp hl'
    refine (find?_plant_apart fun y _ => ne y.1).trans ?_
    rw [find?_put_apart e (Location.ne_of_within hl'), find?_prune_apart _ hD hl',
      find?_prune_apart _ hS hl]

end Tree

namespace FileSystem

/-! ## Ways down -/

/-- The names of the location are the steps of the path, dots left out. -/
def Spells (k : Location) (path : List String) : Prop :=
  k.map Name.text = path.filter (· ≠ ".")

/-- **A way down along no links**: there is no link at a step that would be gone along, as each step
before the last would, and the last if links are followed. -/
def Straight (t : Tree) (follow : Bool) (here : Location) (path : List String) : Prop :=
  ∀ front back k, path = front ++ back → back ≠ [] ∨ follow = true → Spells k front →
    ∀ target, t.find? (here ++ k) ≠ some (.link target)

section Descent
variable {t : Tree} {follow : Bool} {links : Nat} {here k : Location}
  {path rest : List String} {n : Name} {x : Spot}

theorem spells_nil : Spells [] [] := rfl

theorem Spells.dot (h : Spells k path) : Spells k ("." :: path) := by
  unfold Spells at h ⊢
  rw [h, List.filter_cons_of_neg (by simp)]

theorem Spells.name (h : Spells k path) (n : Name) : Spells (n :: k) (n.text :: path) := by
  have other : n.text ≠ "." := n.text_ne.2.1
  unfold Spells at h ⊢
  rw [List.map_cons, h, List.filter_cons_of_pos (by simpa using other)]

theorem Spells.length (h : Spells k path) : k.length = (path.filter (· ≠ ".")).length := by
  rw [← h, List.length_map]

theorem Straight.of_dot (h : Straight t follow here ("." :: path)) :
    Straight t follow here path := by
  intro front back k hp hb hk
  exact h ("." :: front) back k (by rw [hp]; rfl) hb hk.dot

theorem Straight.of_name (h : Straight t follow here (n.text :: path)) :
    Straight t follow (here ++ [n]) path := by
  intro front back k hp hb hk target
  rw [List.append_assoc]
  exact h (n.text :: front) back (n :: k) (by rw [hp]; rfl) hb (hk.name n) target

/-- Each part of the way but the last is straight to its end. -/
theorem Straight.front (h : Straight t follow here (path ++ rest)) (hr : rest ≠ []) :
    Straight t true here path := by
  intro a b k hp _ hk
  refine h a (b ++ rest) k (by rw [hp, List.append_assoc]) (Or.inl fun he => hr ?_) hk
  exact (List.append_eq_nil_iff.mp he).2

theorem Straight.weaken (h : Straight t true here path) : Straight t follow here path :=
  fun front back k hp _ hk => h front back k hp (Or.inr rfl) hk

/-- **A way down along no links** ends where its names say. -/
theorem Walks.descends (h : Walks t follow links here path x)
    (straight : Straight t follow here path) (down : ".." ∉ path) :
    ∃ k, x.location = here ++ k ∧ Spells k path := by
  induction h with
  | here => exact ⟨[], (List.append_nil _).symm, spells_nil⟩
  | dot _ _ ih =>
    obtain ⟨k, hk, spelled⟩ := ih straight.of_dot (List.not_mem_of_not_mem_cons down)
    exact ⟨k, hk, spelled.dot⟩
  | up => exact absurd List.mem_cons_self down
  | @down _ _ n _ _ _ _ _ _ ih =>
    obtain ⟨k, hk, spelled⟩ := ih straight.of_name (List.not_mem_of_not_mem_cons down)
    refine ⟨n :: k, ?_, spelled.name n⟩
    rw [hk, List.append_assoc]
    rfl
  | @along _ _ n target rest _ he hf =>
    exact absurd he (straight [n.text] rest [n] rfl hf (spells_nil.name n) target)
  | @link _ _ n => exact ⟨[n], rfl, spells_nil.name n⟩
  | @absent _ _ n => exact ⟨[n], rfl, spells_nil.name n⟩

theorem walks_dots {dots : List String} (hdots : ∀ d ∈ dots, d = ".") (hr : rest ≠ [])
    (h : Walks t follow links here (path ++ rest) x) :
    Walks t follow links here (path ++ (dots ++ rest)) x := by
  obtain ⟨l, left, hl, hw⟩ := h.split hr
  obtain ⟨left, ha⟩ := hl.append
  have hd : t.find? l = some .directory := by
    cases rest with
    | nil => exact absurd rfl hr
    | cons step rest => exact directory_of_walk hw.walk
  refine walks_of_walk ?_
  rw [ha follow _ (by simp [hr]), walk_dots hdots hd, ← ha follow _ hr]
  exact h.walk

/-- **A way down along no links** is found in any tree that has the directories on it. -/
theorem Walks.again {s : Tree} {l : Location} (h : Walks t true links here path (.present l))
    (straight : Straight t true here path) (down : ".." ∉ path)
    (same : ∀ j, j <+: l → s.find? j = t.find? j) :
    Walks s true links here path (.present l) := by
  generalize hx : Spot.present l = x at h
  induction h with
  | here => exact .here
  | @dot _ here rest _ hd hw ih =>
    have later := List.not_mem_of_not_mem_cons down
    obtain ⟨k, hk, -⟩ := hw.descends straight.of_dot later
    have whole : l = here ++ k := by rw [← hk, ← hx]; rfl
    refine .dot ?_ (ih straight.of_dot later hx)
    rw [same here ⟨k, whole.symm⟩, hd]
  | up => exact absurd List.mem_cons_self down
  | @down _ here n _ rest _ he hn hw ih =>
    have later := List.not_mem_of_not_mem_cons down
    obtain ⟨k, hk, -⟩ := hw.descends straight.of_name later
    have whole : l = here ++ [n] ++ k := by rw [← hk, ← hx]; rfl
    refine .down ?_ hn (ih straight.of_name later hx)
    rw [same (here ++ [n]) ⟨k, whole.symm⟩, he]
  | @along _ _ n target rest _ he hf =>
    exact absurd he (straight [n.text] rest [n] rfl hf (spells_nil.name n) target)
  | link _ hf => exact absurd hf nofun
  | absent => exact absurd hx nofun

end Descent


/-! ## Changes below a directory -/

section Kept
variable {fs gs hs : FileSystem} {C l k S D : Location} {depth : Nat} {e : Entry}
  {follow : Bool} {path : List String} {p c : String}

/-- **A way that goes on from a directory** along no links ends below it. -/
theorem Leads.descends {x : Spot} (hC : gs.Leads c C) (straight : Straight gs.tree follow C path)
    (down : ".." ∉ path) (hne : path ≠ [] ∨ follow = true)
    (h : Walks gs.tree follow linkLimit (start gs.home c) (names c ++ path) x) :
    ∃ k, x.location = C ++ k ∧ Spells k path := by
  by_cases hp : path = []
  · obtain rfl : follow = true := hne.resolve_left (not_not_intro hp)
    subst hp
    rw [List.append_nil] at h
    have same := h.walk.symm.trans hC.walk
    rw [Except.ok.inj same]
    exact ⟨[], (List.append_nil _).symm, spells_nil⟩
  · obtain ⟨left, ha⟩ := hC.append
    have hw := h.walk
    rw [ha follow path hp] at hw
    exact (walks_of_walk hw).descends straight down

/-- More directories are no links. -/
theorem Straight.grow {s t : Tree} {here : Location} (h : Straight s follow here path)
    (grows : s.Grows t) : Straight t follow here path := by
  intro front back k hp hb hk target he
  rcases grows (here ++ k) with same | ⟨-, hd⟩
  · exact h front back k hp hb hk target (same.symm.trans he)
  · rw [hd] at he
    exact absurd he nofun

/-- The two states of the files differ only strictly below a directory. -/
structure Inside (C : Location) (fs gs : FileSystem) : Prop where
  home : gs.home = fs.home
  rest : ∀ l, (∀ k ≠ [], l ≠ C ++ k) → gs.tree.find? l = fs.tree.find? l

/-- **The way to a directory does not lead through what is below it**: whatever is there, the path
leads to the directory. -/
def Steady (fs : FileSystem) (p : String) (C : Location) : Prop :=
  ∀ gs, Inside C fs gs → gs.directoryAt p = .ok C

/-- A directory to which a path goes down along no links stays where it is. -/
theorem steady_of_straight (hC : fs.directoryAt p = .ok C)
    (straight : Straight fs.tree true (start fs.home p) (names p)) (down : ".." ∉ names p) :
    fs.Steady p C := by
  obtain ⟨text, leads, hd⟩ := directoryAt_eq_ok_iff.mp hC
  intro gs inside
  have same : ∀ j, j <+: C → gs.tree.find? j = fs.tree.find? j := by
    intro j hj
    refine inside.rest j fun k hk he => hk ?_
    have le := hj.length_le
    rw [he, List.length_append] at le
    rw [← List.length_eq_zero_iff]
    omega
  refine directoryAt_eq_ok_iff.mpr ⟨text, ?_, ?_⟩
  · unfold Leads
    rw [inside.home]
    exact Walks.again leads straight down same
  · rw [same C List.prefix_rfl]
    exact hd

/-- **Only what is below a directory has changed**, and no link has come to the first few
directories below it. -/
structure Kept (C : Location) (depth : Nat) (fs gs : FileSystem) : Prop extends
    Inside C fs gs where
  links : ∀ k target, k.length ≤ depth → gs.tree.find? (C ++ k) = some (.link target) →
    fs.tree.find? (C ++ k) = some (.link target)

namespace Kept

theorem refl (C : Location) (depth : Nat) (fs : FileSystem) : Kept C depth fs fs :=
  ⟨⟨rfl, fun _ _ => rfl⟩, fun _ _ _ h => h⟩

theorem trans (h : Kept C depth fs gs) (h' : Kept C depth gs hs) : Kept C depth fs hs := by
  refine ⟨⟨h'.home.trans h.home, fun l hl => ?_⟩, fun k target hk he => ?_⟩
  · exact (h'.rest l hl).trans (h.rest l hl)
  · exact h.links k target hk (h'.links k target hk he)

/-- A straight way stays one. -/
theorem straight (h : Kept C depth fs gs) (hs : Straight fs.tree follow C path)
    (short : (path.filter (· ≠ ".")).length ≤ depth) : Straight gs.tree follow C path := by
  intro front back k hp hb hk target he
  refine hs front back k hp hb hk target (h.links k target ?_ he)
  rw [hp, List.filter_append, List.length_append] at short
  rw [hk.length]
  exact Nat.le_trans (Nat.le_add_right ..) short

theorem put (gs : FileSystem) (hk : k ≠ []) (he : (∀ target, e ≠ .link target) ∨ depth < k.length) :
    Kept C depth gs { gs with tree := gs.tree.put (C ++ k) e } := by
  refine ⟨⟨rfl, fun l hl => Tree.find?_put_apart e (hl k hk)⟩, fun j target hj found => ?_⟩
  rcases Tree.find?_put_cases found with before | ⟨hjk, hl⟩
  · exact before
  · rcases he with other | deep
    · exact absurd hl.symm (other target)
    · rw [List.append_cancel_left_eq] at hjk
      rw [hjk] at hj
      exact absurd hj (Nat.not_le.mpr deep)

theorem without (gs : FileSystem) (hk : k ≠ []) : Kept C depth gs (gs.without (C ++ k)) := by
  have rooted : C ++ k ≠ [] := fun he => hk (List.append_eq_nil_iff.mp he).2
  refine ⟨⟨rfl, fun l hl => ?_⟩, fun j target _ found => without_le gs rooted _ _ found⟩
  refine find?_without_apart gs rooted (Location.within_eq_none_iff.mpr fun more he => ?_)
  refine hl (k ++ more) (fun hn => hk (List.append_eq_nil_iff.mp hn).1) ?_
  rw [he, List.append_assoc]

theorem move {j : Location} (gs : FileSystem) (hj : j ≠ []) (hk : k ≠ []) (deep : depth ≤ k.length)
    (plain : ∀ target, gs.tree.find? (C ++ j) ≠ some (.link target)) :
    Kept C depth gs { gs with tree := gs.tree.move (C ++ j) (C ++ k) } := by
  have rooted (i : Location) (hi : i ≠ []) : C ++ i ≠ [] :=
    fun he => hi (List.append_eq_nil_iff.mp he).2
  have apart (i : Location) (hi : i ≠ []) (l : Location) (hl : ∀ k ≠ [], l ≠ C ++ k) :
      Location.within (C ++ i) l = none := by
    refine Location.within_eq_none_iff.mpr fun more he => ?_
    refine hl (i ++ more) (fun hn => hi (List.append_eq_nil_iff.mp hn).1) ?_
    rw [he, List.append_assoc]
  refine ⟨⟨rfl, fun l hl => ?_⟩, fun i target hi found => ?_⟩
  · exact Tree.find?_move_apart (rooted j hj) (rooted k hk) (apart j hj l hl) (apart k hk l hl)
  · rcases Tree.find?_move_cases (rooted j hj) (rooted k hk) found with before | ⟨more, hm, moved⟩
    · exact before
    · -- So near, nothing has come but what was moved itself.
      rw [List.append_assoc, List.append_cancel_left_eq] at hm
      have whole : more = [] := by
        rw [hm, List.length_append] at hi
        rw [← List.length_eq_zero_iff]
        omega
      rw [whole, List.append_nil] at moved
      exact absurd moved (plain target)

end Kept

/-- **Making directories keeps inside**, if every new one is below. -/
theorem Made.kept {paths : List String} (made : Made paths gs hs)
    (hC : gs.tree.find? C = some .directory)
    (below : ∀ l, gs.tree.find? l = none → hs.tree.find? l = some .directory → ∃ k, l = C ++ k) :
    Kept C depth gs hs := by
  refine ⟨⟨made.home, fun l hl => ?_⟩, fun k target _ found => ?_⟩
  · refine (made.grows l).resolve_right fun ⟨hn, hd⟩ => ?_
    obtain ⟨k, rfl⟩ := below l hn hd
    by_cases hk : k = []
    · rw [hk, List.append_nil, hC] at hn
      exact absurd hn nofun
    · exact hl k hk rfl
  · rcases made.grows (C ++ k) with same | ⟨-, hd⟩
    · rw [← same]
      exact found
    · rw [hd] at found
      exact absurd found nofun

/-- **What a path names is below the directory**, so many names down, whatever has changed there. -/
structure Reaches (C : Location) (depth : Nat) (fs : FileSystem) (p : String) : Prop where
  spot : ∀ gs x, Kept C depth fs gs → gs.spot false p (names p) = .ok x →
    ∃ k, x.location = C ++ k ∧ k.length = depth
  locate : ∀ gs l, Kept C depth fs gs → gs.locate false p = .ok l →
    ∃ k, l = C ++ k ∧ k.length = depth

/-! ## Steps that keep inside -/

theorem ne_nil_of_length (hk : k.length = depth) (hd : 0 < depth) : k ≠ [] := by
  rintro rfl
  rw [← hk] at hd
  exact absurd hd (by decide)

/-- Removing what the path names keeps inside, whatever is asked of it before. -/
theorem removal_preserves {may : FileSystem → Location → Except Cause FileSystem}
    (h : Reaches C depth fs p) (hd : 0 < depth)
    (removes : ∀ gs l gs', may gs l = .ok gs' → gs' = gs.without l) :
    (FileStep.atOnce fun gs => do
      match ← gs.spot false p (names p) with
      | .absent _ => .error .notFound
      | .present l => may gs l).Preserves (Kept C depth fs) := by
  refine FileStep.preserves_atOnce fun gs gs' kept hr => ?_
  cases hx : gs.spot false p (names p) with
  | error e =>
    rw [hx] at hr
    exact absurd hr nofun
  | ok x =>
    obtain ⟨k, hl, hk⟩ := h.spot gs x kept hx
    rw [hx] at hr
    cases x with
    | absent l => exact absurd hr nofun
    | present l =>
      obtain rfl : l = C ++ k := hl
      rw [removes gs _ gs' hr]
      exact kept.trans (.without gs (ne_nil_of_length hk hd))

theorem removeFile_preserves (h : Reaches C depth fs p) (hd : 0 < depth) :
    (removeFile p).Preserves (Kept C depth fs) := by
  refine removal_preserves h hd fun gs l gs' hr => ?_
  obtain ⟨-, hr⟩ := ok_of_guard hr
  obtain ⟨-, hr⟩ := ok_of_guard hr
  obtain ⟨-, hr⟩ := ok_of_guard hr
  exact (Except.ok.inj hr).symm

theorem removeDirectory_preserves (h : Reaches C depth fs p) (hd : 0 < depth) :
    (removeDirectory p).Preserves (Kept C depth fs) := by
  refine removal_preserves h hd fun gs l gs' hr => ?_
  obtain ⟨-, hr⟩ := ok_of_guard hr
  obtain ⟨-, hr⟩ := ok_of_guard hr
  obtain ⟨-, hr⟩ := ok_of_guard hr
  obtain ⟨-, hr⟩ := ok_of_guard hr
  split at hr
  · exact (Except.ok.inj hr).symm
  · exact absurd hr nofun

theorem clearDirectory_preserves (hk : k ≠ []) :
    (clearDirectory (C ++ k)).Preserves (Kept C depth fs) := by
  refine FileStep.preserves_atOnce fun gs gs' kept hr => ?_
  rw [← Except.ok.inj hr]
  exact (kept.trans (.without gs hk)).trans (.put (gs.without (C ++ k)) hk (Or.inl fun _ => nofun))

/-- **Removing a directory with all below it keeps inside.** -/
theorem removeTree_preserves (h : Reaches C depth fs p) (hd : 0 < depth) :
    (removeTree p).Preserves (Kept C depth fs) := by
  refine .bind (FileStep.preserves_look _) fun e => ?_
  cases e with
  | link target => exact removeFile_preserves h hd
  | file bytes executable => exact FileStep.preserves_throw _
  | directory =>
    refine .bind_of (FileStep.preserves_look _) h.locate ?_
    rintro _ ⟨k, rfl, hk⟩
    refine .bind (clearDirectory_preserves (ne_nil_of_length hk hd)) fun _ => ?_
    refine .bind (removeDirectory_preserves h hd).attempt fun r => ?_
    split
    · exact FileStep.preserves_pure _
    · exact FileStep.preserves_pure _
    · exact FileStep.preserves_throw _

theorem removeAny_preserves (h : Reaches C depth fs p) (hd : 0 < depth) :
    (removeAny p).Preserves (Kept C depth fs) := by
  refine .bind (FileStep.preserves_look _) fun e => ?_
  cases e with
  | directory => exact removeTree_preserves h hd
  | file bytes executable => exact removeFile_preserves h hd
  | link target => exact removeFile_preserves h hd

/-- **A move takes what is in the one place to the other**, or leaves all as it is. -/
theorem rename_preserves {s : String} (hs : Reaches C depth fs s) (hp : Reaches C depth fs p)
    (hd : 0 < depth) (plain : ∀ gs S, Kept C depth fs gs →
      gs.spot false s (names s) = .ok (.present S) →
        ∀ target, gs.tree.find? S ≠ some (.link target)) :
    (FileSystem.rename s p).Preserves (Kept C depth fs) := by
  refine FileStep.preserves_atOnce fun gs gs' kept hr => ?_
  obtain ⟨-, -, hr⟩ := ok_of_bind hr
  obtain ⟨-, -, hr⟩ := ok_of_bind hr
  obtain ⟨-, hr⟩ := ok_of_guard hr
  obtain ⟨y, hy, hr⟩ := ok_of_bind hr
  cases y with
  | absent S => exact absurd hr nofun
  | present S =>
  obtain ⟨x, hx, hr⟩ := ok_of_bind hr
  obtain ⟨-, hr⟩ := ok_of_guard hr
  obtain ⟨j, hS, hj⟩ := hs.spot gs _ kept hy
  obtain rfl : S = C ++ j := hS
  obtain ⟨k, hl, hk⟩ := hp.spot gs x kept hx
  have moved : Kept C depth fs { gs with tree := gs.tree.move (C ++ j) (C ++ k) } :=
    kept.trans (.move gs (ne_nil_of_length hj hd) (ne_nil_of_length hk hd) (Nat.le_of_eq hk.symm)
      (plain gs _ kept hy))
  cases x with
  | absent place =>
    obtain rfl : place = C ++ k := hl
    obtain ⟨-, hr⟩ := ok_of_guard hr
    rw [← Except.ok.inj hr]
    exact moved
  | present place =>
    obtain rfl : place = C ++ k := hl
    dsimp only at hr
    split at hr
    · rw [← Except.ok.inj hr]
      exact kept
    obtain ⟨-, hr⟩ := ok_of_guard hr
    obtain ⟨-, hr⟩ := ok_of_guard hr
    split at hr
    · obtain ⟨-, hr⟩ := ok_of_guard hr
      split at hr
      · rw [← Except.ok.inj hr]
        exact moved
      · exact absurd hr nofun
    · obtain ⟨-, hr⟩ := ok_of_guard hr
      rw [← Except.ok.inj hr]
      exact moved

end Kept
end FileSystem
end GatedRelease
