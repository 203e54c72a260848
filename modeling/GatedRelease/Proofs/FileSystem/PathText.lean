import GatedRelease.FileSystem.Resolve

/-! # Paths taken apart

What joining, the parent and the ancestors of a path come to in terms of the names along which it is
walked.  A path that ends in a plain step is its parent and that step (`Under`), up to dots, which
lead nowhere; and the names of each ancestor are the first names of the path (`above_ancestors`).
-/
namespace GatedRelease.PathText

/-- A step that goes down by one name. -/
def IsStep (s : String) : Prop := s ≠ "" ∧ s ≠ "." ∧ s ≠ ".." ∧ '/' ∉ s.toList

instance (s : String) : Decidable (IsStep s) := inferInstanceAs (Decidable (_ ∧ _))

/-- **A plain path**: it goes down by one or more steps, with one slash between them. -/
def IsPlain (p : String) : Prop :=
  ∃ steps : List String, steps ≠ [] ∧ (∀ s ∈ steps, IsStep s) ∧ p = String.intercalate "/" steps

/-! ## Pieces -/

theorem splitSlashes_ne_nil (cs : List Char) : splitSlashes cs ≠ [] := by
  cases cs with
  | nil => exact nofun
  | cons c cs =>
    unfold splitSlashes
    split
    · exact nofun
    · split <;> exact nofun

theorem splitSlashes_append (xs ys : List Char) :
    splitSlashes (xs ++ '/' :: ys) = splitSlashes xs ++ splitSlashes ys := by
  induction xs with
  | nil => rfl
  | cons c xs ih =>
    rw [List.cons_append, splitSlashes, splitSlashes, ih]
    by_cases hc : c = '/'
    · rw [if_pos hc, if_pos hc, List.cons_append]
    · rw [if_neg hc, if_neg hc]
      cases hs : splitSlashes xs with
      | nil => exact absurd hs (splitSlashes_ne_nil xs)
      | cons piece more => rfl

theorem splitSlashes_of_free {cs : List Char} (h : '/' ∉ cs) : splitSlashes cs = [cs] := by
  induction cs with
  | nil => rfl
  | cons c cs ih =>
    rw [List.mem_cons, not_or] at h
    rw [splitSlashes, if_neg (Ne.symm h.1), ih h.2]

theorem free_of_mem_splitSlashes {cs piece : List Char} (h : piece ∈ splitSlashes cs) :
    '/' ∉ piece := by
  induction cs generalizing piece with
  | nil =>
    rw [List.mem_singleton.mp h]
    exact List.not_mem_nil
  | cons c cs ih =>
    rw [splitSlashes] at h
    by_cases hc : c = '/'
    · rw [if_pos hc] at h
      rcases List.mem_cons.mp h with rfl | h
      · exact List.not_mem_nil
      · exact ih h
    · rw [if_neg hc] at h
      cases hs : splitSlashes cs with
      | nil => exact absurd hs (splitSlashes_ne_nil cs)
      | cons first more =>
        rw [hs] at h ih
        rcases List.mem_cons.mp h with rfl | h
        · intro hm
          rcases List.mem_cons.mp hm with hm | hm
          · exact hc hm.symm
          · exact ih (.head _) hm
        · exact ih (.tail _ h)

theorem pieces_ne_nil (p : String) : pieces p ≠ [] := by
  unfold pieces
  rw [Ne, List.map_eq_nil_iff]
  exact splitSlashes_ne_nil _

theorem free_of_mem_pieces {p s : String} (h : s ∈ pieces p) : '/' ∉ s.toList := by
  obtain ⟨piece, hp, rfl⟩ := List.mem_map.mp h
  rw [String.toList_ofList]
  exact free_of_mem_splitSlashes hp

theorem pieces_slash (p q : String) : pieces (p ++ "/" ++ q) = pieces p ++ pieces q := by
  have chars : (p ++ "/" ++ q).toList = p.toList ++ '/' :: q.toList := by simp
  unfold pieces
  rw [chars, splitSlashes_append, List.map_append]

theorem pieces_of_free {s : String} (h : '/' ∉ s.toList) : pieces s = [s] := by
  unfold pieces
  rw [splitSlashes_of_free h, List.map_singleton, String.ofList_toList]

theorem pieces_empty : pieces "" = [""] := pieces_of_free (by simp)

/-- The empty path leads along no names. -/
theorem names_empty : FileSystem.names "" = [] := by
  unfold FileSystem.names
  rw [pieces_empty]
  rfl

theorem pieces_intercalate {ps : List String} (hne : ps ≠ [])
    (free : ∀ s ∈ ps, '/' ∉ s.toList) : pieces (String.intercalate "/" ps) = ps := by
  induction ps with
  | nil => exact absurd rfl hne
  | cons s ps ih =>
    obtain ⟨hs, hps⟩ := List.forall_mem_cons.mp free
    cases ps with
    | nil => rw [String.intercalate_singleton, pieces_of_free hs]
    | cons t ps =>
      rw [String.intercalate_cons_cons, pieces_slash, pieces_of_free hs, ih nofun hps]
      rfl

theorem pieces_concat_slash (p : String) : pieces (p ++ "/") = pieces p ++ [""] := by
  rw [← pieces_empty, ← pieces_slash, String.append_empty]

/-- What the first piece tells of the whole path. -/
theorem isAbsolute_iff (p : String) :
    isAbsolute p = true ↔ p ≠ "" ∧ (pieces p).head? = some "" := by
  unfold isAbsolute pieces
  rw [beq_iff_eq]
  cases hp : p.toList with
  | nil =>
    have : p = "" := String.toList_eq_nil_iff.mp hp
    simp [this]
  | cons c cs =>
    have hne : p ≠ "" := fun he => by rw [he] at hp; exact absurd hp nofun
    rw [splitSlashes]
    by_cases hc : c = '/'
    · simp [hc, hne]
    · rw [if_neg hc]
      cases hs : splitSlashes cs with
      | nil => exact absurd hs (splitSlashes_ne_nil cs)
      | cons piece more =>
        simp [hc]

/-- A path without names is the empty one or the root. -/
theorem isAbsolute_of_names {p : String} (hp : p ≠ "") (hn : FileSystem.names p = []) :
    isAbsolute p = true := by
  refine (isAbsolute_iff p).mpr ⟨hp, ?_⟩
  unfold FileSystem.names at hn
  cases hs : pieces p with
  | nil => exact absurd hs (pieces_ne_nil p)
  | cons first rest =>
    rw [hs, List.filter_eq_nil_iff] at hn
    have := hn first (.head _)
    simpa using this

/-! ## Joining -/

theorem isAbsolute_append (p q : String) (hp : p ≠ "") : isAbsolute (p ++ q) = isAbsolute p := by
  unfold isAbsolute
  rw [String.toList_append, List.head?_append]
  cases hl : p.toList with
  | nil => exact absurd (String.toList_eq_nil_iff.mp hl) hp
  | cons c cs => rfl

/-- A path that ends in a slash is one before it. -/
theorem eq_append_of_endsInSlash {p : String} (h : endsInSlash p = true) : ∃ r, p = r ++ "/" := by
  unfold endsInSlash at h
  rw [beq_iff_eq] at h
  have hne : p.toList ≠ [] := fun he => by rw [he] at h; exact absurd h nofun
  refine ⟨String.ofList p.toList.dropLast, String.toList_injective ?_⟩
  rw [String.toList_append, String.toList_ofList]
  have last : p.toList.getLast hne = '/' := by
    rw [List.getLast?_eq_some_getLast hne] at h
    exact Option.some.inj h
  have slash : "/".toList = [p.toList.getLast hne] := by rw [last]; rfl
  rw [slash, List.dropLast_concat_getLast]

/-- **A relative path joined to another**: its pieces come after some of the other's, and what is
left out of those is empty. -/
theorem pieces_join (c : String) {d : String} (hd : isAbsolute d = false) :
    ∃ front, pieces (join c d) = front ++ pieces d ∧
      front.filter (· != "") = (pieces c).filter (· != "") ∧
      isAbsolute (join c d) = isAbsolute c := by
  unfold join
  rw [if_neg (by rw [hd]; decide)]
  by_cases hc : c = ""
  · rw [hc, if_pos (by decide), String.empty_append]
    exact ⟨[], rfl, by decide +kernel, by rw [hd]; rfl⟩
  · by_cases hs : endsInSlash c = true
    · obtain ⟨r, rfl⟩ := eq_append_of_endsInSlash hs
      rw [if_pos (by simp [hs]), pieces_slash, isAbsolute_append _ _ hc, pieces_concat_slash]
      exact ⟨pieces r, rfl, by simp, rfl⟩
    · rw [if_neg (by simp [hc, hs]), pieces_slash, String.append_assoc, isAbsolute_append _ _ hc]
      exact ⟨pieces c, rfl, rfl, rfl⟩

theorem isAbsolute_join (c : String) {d : String} (hd : isAbsolute d = false) :
    isAbsolute (join c d) = isAbsolute c := (pieces_join c hd).choose_spec.2.2

theorem names_join (c : String) {d : String} (hd : isAbsolute d = false) :
    FileSystem.names (join c d) = FileSystem.names c ++ FileSystem.names d := by
  obtain ⟨front, hp, hf, -⟩ := pieces_join c hd
  unfold FileSystem.names
  rw [hp, List.filter_append, hf]

theorem endsInSlash_join (c : String) {d : String} (hne : d ≠ "") :
    endsInSlash (join c d) = endsInSlash d := by
  have after (p : String) : endsInSlash (p ++ d) = endsInSlash d := by
    unfold endsInSlash
    rw [String.toList_append, List.getLast?_append]
    cases hl : d.toList.getLast? with
    | some last => rfl
    | none => exact absurd (String.toList_eq_nil_iff.mp (List.getLast?_eq_none_iff.mp hl)) hne
  unfold join
  split
  · rfl
  · split
    · exact after c
    · exact after (c ++ "/")

/-- The walk of a relative path goes on from where the other leads. -/
theorem steps_join (c : String) {d : String} (hd : isAbsolute d = false) (hne : d ≠ "") :
    FileSystem.steps (join c d) = FileSystem.names c ++ FileSystem.steps d := by
  unfold FileSystem.steps
  rw [endsInSlash_join c hne, names_join c hd]
  split
  · rw [List.append_assoc]
  · rfl

/-! ## What counts for nothing -/

theorem dropIdle_append (ps : List String) :
    ∃ idle, ps = dropIdle ps ++ idle ∧ ∀ s ∈ idle, s = "" ∨ s = "." := by
  cases ps with
  | nil => exact ⟨[], rfl, by simp⟩
  | cons first rest =>
    let p := fun piece : String => piece == "" || piece == "."
    refine ⟨(rest.reverse.takeWhile p).reverse, ?_, fun s hs => ?_⟩
    · have whole := List.takeWhile_append_dropWhile (p := p) (l := rest.reverse)
      have := congrArg List.reverse whole
      rw [List.reverse_append, List.reverse_reverse] at this
      show first :: rest = first :: (rest.reverse.dropWhile p).reverse ++ _
      rw [List.cons_append, this]
    · have hall := List.all_takeWhile (p := p) (l := rest.reverse)
      have := List.all_eq_true.mp hall s (List.mem_reverse.mp hs)
      simpa [p] using this

theorem prefix_dropIdle (ps : List String) : dropIdle ps <+: ps := by
  obtain ⟨idle, h, -⟩ := dropIdle_append ps
  exact ⟨idle, h.symm⟩

theorem head?_dropIdle (ps : List String) : (dropIdle ps).head? = ps.head? := by
  cases ps <;> rfl

theorem dropIdle_ne_nil {ps : List String} (h : ps ≠ []) : dropIdle ps ≠ [] := by
  cases ps with
  | nil => exact absurd rfl h
  | cons => exact nofun

/-- After the last step, nothing counts. -/
theorem dropIdle_step {init idle : List String} {n : String} (hn : IsStep n)
    (hi : ∀ s ∈ idle, s = "" ∨ s = ".") : dropIdle (init ++ n :: idle) = init ++ [n] := by
  obtain ⟨h₁, h₂, -, -⟩ := hn
  let p := fun piece : String => piece == "" || piece == "."
  have gone : ∀ s ∈ idle.reverse, p s = true := by
    intro s hs
    simpa [p] using hi s (List.mem_reverse.mp hs)
  cases init with
  | nil =>
    show n :: (idle.reverse.dropWhile p).reverse = [n]
    rw [← List.append_nil idle.reverse, List.dropWhile_append_of_pos gone]
    rfl
  | cons first rest =>
    show first :: ((rest ++ n :: idle).reverse.dropWhile p).reverse = _
    rw [List.reverse_append, List.reverse_cons, List.append_assoc, 
      List.dropWhile_append_of_pos gone, List.singleton_append,
      List.dropWhile_cons_of_neg (by simp [p, h₁, h₂])]
    simp

/-- A step at the end stays, and all before it. -/
theorem dropIdle_concat {init : List String} {n : String} (hn : IsStep n) :
    dropIdle (init ++ [n]) = init ++ [n] := dropIdle_step hn (by simp)

/-! ## Parents and ancestors -/

/-- Pieces that a path can have: none holds a slash, and only a path from the root has an empty
piece first. -/
structure Proper (absolute : Bool) (ps : List String) : Prop where
  free : ∀ s ∈ ps, '/' ∉ s.toList
  first : absolute = true ↔ ps.head? = some ""

theorem Proper.shorter {absolute : Bool} {ps qs : List String} (h : Proper absolute ps)
    (hq : qs <+: ps) (hne : qs ≠ []) : Proper absolute qs := by
  obtain ⟨more, rfl⟩ := hq
  refine ⟨fun s hs => h.free s (List.mem_append_left _ hs), ?_⟩
  rw [h.first, List.head?_append]
  cases qs with
  | nil => exact absurd rfl hne
  | cons => rfl

theorem proper_pieces {p : String} (hp : p ≠ "") : Proper (isAbsolute p) (pieces p) :=
  ⟨fun _ hs => free_of_mem_pieces hs, by rw [isAbsolute_iff]; simp [hp]⟩

/-- The root is the one path whose pieces are not those that it is put together from. -/
theorem pieces_ofPieces {absolute : Bool} {ps : List String} (h : Proper absolute ps)
    (hne : ps ≠ []) : pieces (ofPieces absolute ps) = ps ∨
      absolute = true ∧ ps = [""] ∧ ofPieces absolute ps = "/" := by
  unfold ofPieces
  by_cases hr : (absolute && decide (ps.length ≤ 1)) = true
  · rw [if_pos hr]
    obtain ⟨ha, hl⟩ := Bool.and_eq_true_iff.mp hr
    have first := h.first.mp ha
    refine Or.inr ⟨ha, ?_, rfl⟩
    cases ps with
    | nil => exact absurd rfl hne
    | cons s ps =>
      have : ps = [] := by
        rw [← List.length_eq_zero_iff]
        simpa using of_decide_eq_true hl
      rw [this, Option.some.inj first]
  · rw [if_neg hr]
    exact Or.inl (pieces_intercalate hne h.free)

theorem names_ofPieces {absolute : Bool} {ps : List String} (h : Proper absolute ps)
    (hne : ps ≠ []) : FileSystem.names (ofPieces absolute ps) = ps.filter (· != "") := by
  unfold FileSystem.names
  rcases pieces_ofPieces h hne with hp | ⟨-, rfl, hp⟩
  · rw [hp]
  · rw [hp]
    decide +kernel

theorem isAbsolute_ofPieces {absolute : Bool} {ps : List String} (h : Proper absolute ps)
    (hne : ps ≠ []) : isAbsolute (ofPieces absolute ps) = absolute := by
  rcases pieces_ofPieces h hne with hp | ⟨ha, -, hp⟩
  · rw [Bool.eq_iff_iff, isAbsolute_iff, hp, h.first]
    refine and_iff_right_of_imp fun first he => ?_
    -- The empty path has one piece, and a single empty piece is put together to the root.
    have single : ps = [""] := by
      rw [← hp, he]
      rfl
    rw [single] at he
    unfold ofPieces at he
    rw [h.first.mpr first, if_pos (by decide)] at he
    exact absurd he (by decide)
  · rw [hp, ha]
    rfl

theorem ancestors_ofPieces {absolute : Bool} {ps : List String} (h : Proper absolute ps)
    (hne : ps ≠ []) : ancestors (ofPieces absolute ps) = ancestorsOf absolute ps := by
  unfold ancestors
  rw [isAbsolute_ofPieces h hne]
  rcases pieces_ofPieces h hne with hp | ⟨ha, rfl, hp⟩
  · rw [hp]
  · rw [hp, ha]
    have root : pieces "/" = ["", ""] := by decide +kernel
    rw [root, ancestorsOf, ancestorsOf]
    rfl

theorem ancestorsOf_single {absolute : Bool} {ps : List String} {only : String}
    (h : dropIdle ps = [only]) : ancestorsOf absolute ps = if only = "" then [] else [""] := by
  fun_cases ancestorsOf absolute ps with
  | case1 he => exact absurd (h.symm.trans he) nofun
  | case2 left he hs =>
    obtain rfl := (List.cons.inj (h.symm.trans he)).1
    rw [if_pos (by simpa using hs)]
  | case3 left he hs =>
    obtain rfl := (List.cons.inj (h.symm.trans he)).1
    rw [if_neg (by simpa using hs)]
  | case4 first second rest he => exact absurd (h.symm.trans he) nofun

theorem ancestorsOf_concat {absolute : Bool} {ps init : List String} {n : String}
    (h : dropIdle ps = init ++ [n]) (hi : init ≠ []) : ancestorsOf absolute ps =
      ofPieces absolute (dropIdle init) :: ancestorsOf absolute (dropIdle init) := by
  fun_cases ancestorsOf absolute ps with
  | case1 he => exact absurd (h.symm.trans he) (by simp)
  | case2 left he | case3 left he =>
    exact absurd (List.append_eq_singleton_iff.mp (h.symm.trans he)) (by simp [hi])
  | case4 first second rest he shorter =>
    have short : shorter = dropIdle init := by
      show dropIdle (first :: second :: rest).dropLast = _
      rw [← he, h, List.dropLast_concat]
    rw [short]

theorem ancestors_empty : ancestors "" = [] := by
  unfold ancestors
  rw [pieces_empty, ancestorsOf_single rfl, if_pos rfl]

/-- **A path is another one and a step down from there.** Dots may stand between. -/
structure Under (p q n : String) : Prop where
  absolute : isAbsolute p = isAbsolute q
  names : ∃ dots, (∀ d ∈ dots, d = ".") ∧
    FileSystem.names p = FileSystem.names q ++ (dots ++ [n])
  slash : endsInSlash p = false
  step : IsStep n

theorem Under.ne_empty {p q n : String} (h : Under p q n) : p ≠ "" := by
  rintro rfl
  obtain ⟨dots, -, names⟩ := h.names
  rw [names_empty] at names
  simp at names

theorem join_under {p q n : String} (h : Under p q n) (r : String) :
    join p r = if isAbsolute r = true then r else p ++ "/" ++ r := by
  unfold join
  rw [if_neg (c := (p == "" || endsInSlash p) = true) (by simp [h.ne_empty, h.slash])]

/-- **A path that ends in a step** is its parent and that step, and its ancestors are its parent
and the ancestors of its parent. -/
theorem under_parent {p n : String} {init : List String} (hp : pieces p = init ++ [n])
    (hn : IsStep n) (slash : endsInSlash p = false) :
    ∃ q, parent? p = some q ∧ fileName? p = some n ∧ Under p q n ∧
      ancestors p = q :: ancestors q := by
  have hd : dropIdle (init ++ [n]) = init ++ [n] := dropIdle_concat hn
  have hne : p ≠ "" := by
    rintro rfl
    have := congrArg List.getLast? (pieces_empty.symm.trans hp)
    rw [List.getLast?_concat] at this
    exact hn.1 (Option.some.inj this).symm
  have file : fileName? p = some n := by
    unfold fileName?
    rw [hp, hd, List.getLast?_concat]
    simp [hn.1, hn.2.1, hn.2.2.1]
  have names : FileSystem.names p = init.filter (· != "") ++ [n] := by
    unfold FileSystem.names
    rw [hp, List.filter_append]
    simp [hn.1]
  have proper := proper_pieces hne
  by_cases hi : init = []
  · subst hi
    refine ⟨"", ?_, file, ⟨?_, ⟨[], by simp, ?_⟩, slash, hn⟩, ?_⟩
    · unfold parent?
      rw [hp, hd]
      simp [hn.1]
    · have relative : isAbsolute p = false := by
        rw [Bool.eq_false_iff, Ne, isAbsolute_iff, hp]
        simp [hn.1]
      rw [relative]
      rfl
    · rw [names, names_empty]
      rfl
    · rw [ancestors_empty]
      unfold ancestors
      rw [hp, ancestorsOf_single hd, if_neg hn.1]
  · have front : dropIdle init <+: pieces p := by
      rw [hp]
      exact (prefix_dropIdle init).trans (List.prefix_append _ _)
    have properFront := proper.shorter front (dropIdle_ne_nil hi)
    obtain ⟨idle, hidle, hi'⟩ := dropIdle_append init
    refine ⟨ofPieces (isAbsolute p) (dropIdle init), ?_, file,
      ⟨(isAbsolute_ofPieces properFront (dropIdle_ne_nil hi)).symm,
        ⟨idle.filter (· != ""), ?_, ?_⟩, slash, hn⟩, ?_⟩
    · unfold parent?
      rw [hp, hd]
      split
      · next he => exact absurd he (by simp)
      · next he => exact absurd (List.append_eq_singleton_iff.mp he) (by simp [hi])
      · rw [List.dropLast_concat]
    · intro d hd
      obtain ⟨hm, hne⟩ := List.mem_filter.mp hd
      exact (hi' d hm).resolve_left (by simpa using hne)
    · rw [names, names_ofPieces properFront (dropIdle_ne_nil hi), ← List.append_assoc,
        ← List.filter_append, ← hidle]
    · rw [ancestors_ofPieces properFront (dropIdle_ne_nil hi)]
      unfold ancestors
      rw [hp, ancestorsOf_concat hd hi]

/-- **The ancestors of a path** are written before it: the path goes on from each of them. -/
theorem above_ancestors {p a : String} (ha : a ∈ ancestors p) :
    isAbsolute a = isAbsolute p ∧ FileSystem.names a <+: FileSystem.names p := by
  have above (absolute : Bool) (ps : List String) (hps : ps ≠ []) (h : Proper absolute ps) :
      ∀ a ∈ ancestorsOf absolute ps,
        isAbsolute a = absolute ∧ FileSystem.names a <+: ps.filter (· != "") := by
    fun_induction ancestorsOf absolute ps with
    | case1 => simp
    | case2 => simp
    | case3 ps only he hne =>
      intro a ha
      rw [List.mem_singleton.mp ha]
      have relative : absolute = false := by
        rw [Bool.eq_false_iff, Ne, h.first, ← head?_dropIdle, he]
        simpa using hne
      rw [names_empty, relative]
      exact ⟨rfl, List.nil_prefix⟩
    | case4 ps first second rest he shorter ih =>
      have hs : shorter <+: ps := by
        have : shorter <+: dropIdle ps := by
          rw [he]
          have short := List.dropLast_prefix (first :: second :: rest)
          exact (prefix_dropIdle _).trans short
        exact this.trans (prefix_dropIdle ps)
      have hne : shorter ≠ [] := dropIdle_ne_nil (by simp)
      have proper := h.shorter hs hne
      intro a ha
      rcases List.mem_cons.mp ha with rfl | ha
      · rw [isAbsolute_ofPieces proper hne, names_ofPieces proper hne]
        exact ⟨rfl, hs.filter _⟩
      · obtain ⟨h₁, h₂⟩ := ih hne proper a ha
        exact ⟨h₁, h₂.trans (hs.filter _)⟩
  have hp : p ≠ "" := by
    rintro rfl
    rw [ancestors_empty] at ha
    exact absurd ha List.not_mem_nil
  exact above _ _ (pieces_ne_nil p) (proper_pieces hp) a ha

/-! ## Plain paths -/

/-- A path with a step as its last piece does not end in a slash. -/
theorem endsInSlash_of_step {p n : String} {init : List String} (hp : pieces p = init ++ [n])
    (hn : IsStep n) : endsInSlash p = false := by
  rw [Bool.eq_false_iff]
  intro h
  obtain ⟨r, rfl⟩ := eq_append_of_endsInSlash h
  have := congrArg List.getLast? (hp.symm.trans (pieces_concat_slash r))
  rw [List.getLast?_concat, List.getLast?_concat] at this
  exact hn.1 (Option.some.inj this)

/-- **The parent of a path** leads along the steps before the last, up to dots. What counts for
nothing at the end makes no difference. -/
theorem parent_of_step {p n : String} {init idle : List String} (hp : pieces p = init ++ n :: idle)
    (hn : IsStep n) (hi : ∀ s ∈ idle, s = "" ∨ s = ".") :
    ∃ q dots, parent? p = some q ∧ fileName? p = some n ∧ isAbsolute q = isAbsolute p ∧
      (∀ d ∈ dots, d = ".") ∧ FileSystem.names q ++ dots = init.filter (· != "") := by
  have hd : dropIdle (pieces p) = init ++ [n] := by rw [hp, dropIdle_step hn hi]
  have hne : p ≠ "" := by
    rintro rfl
    have last := hd
    rw [pieces_empty] at last
    have := congrArg List.getLast? (show [""] = init ++ [n] from last)
    rw [List.getLast?_concat] at this
    exact hn.1 (Option.some.inj this).symm
  have proper : Proper (isAbsolute p) (init ++ [n]) :=
    (proper_pieces hne).shorter (hd ▸ prefix_dropIdle _) (by simp)
  -- The path without what counts for nothing.
  let r := ofPieces (isAbsolute p) (init ++ [n])
  have hr : pieces r = init ++ [n] := by
    refine (pieces_ofPieces proper (by simp)).resolve_right fun ⟨_, he, _⟩ => ?_
    have := congrArg List.getLast? he
    rw [List.getLast?_concat] at this
    exact hn.1 (Option.some.inj this)
  have ha : isAbsolute r = isAbsolute p := isAbsolute_ofPieces proper (by simp)
  have same : dropIdle (pieces p) = dropIdle (pieces r) := by
    rw [hd, hr, dropIdle_concat hn]
  obtain ⟨q, parent, file, under, -⟩ := under_parent hr hn (endsInSlash_of_step hr hn)
  obtain ⟨dots, hdots, names⟩ := under.names
  refine ⟨q, dots, ?_, ?_, under.absolute.symm.trans ha, hdots, ?_⟩
  · rw [← parent]
    unfold parent?
    rw [same, ha]
  · rw [← file]
    unfold fileName?
    rw [same]
  · have whole : FileSystem.names r = init.filter (· != "") ++ [n] := by
      unfold FileSystem.names
      rw [hr, List.filter_append]
      simp [hn.1]
    rw [whole, ← List.append_assoc] at names
    exact (List.append_inj_left' names rfl).symm

theorem pieces_of_isPlain {d : String} (h : IsPlain d) :
    pieces d ≠ [] ∧ ∀ s ∈ pieces d, IsStep s := by
  obtain ⟨steps, hne, hs, rfl⟩ := h
  rw [pieces_intercalate hne fun s hm => (hs s hm).2.2.2]
  exact ⟨hne, hs⟩

theorem isAbsolute_of_isPlain {d : String} (h : IsPlain d) : isAbsolute d = false := by
  obtain ⟨hne, hs⟩ := pieces_of_isPlain h
  rw [Bool.eq_false_iff, Ne, isAbsolute_iff]
  rintro ⟨-, first⟩
  exact (hs "" (List.mem_of_mem_head? first)).1 rfl

/-- **The path ends in a step**: neither in a slash nor in dots that lead nowhere or back. -/
def EndsInStep (p : String) : Prop := ∃ init n, pieces p = init ++ [n] ∧ IsStep n

theorem IsPlain.endsInStep {d : String} (h : IsPlain d) : EndsInStep d := by
  obtain ⟨hne, hs⟩ := pieces_of_isPlain h
  exact ⟨_, _, (List.dropLast_concat_getLast hne).symm, hs _ (List.getLast_mem hne)⟩

/-- It is enough that the last character is no slash and no dot. -/
theorem endsInStep_of_last {p : String} {c : Char} (hc : p.toList.getLast? = some c)
    (slash : c ≠ '/') (dot : c ≠ '.') : EndsInStep p := by
  have last : ∃ init piece, pieces p = init ++ [String.ofList piece] ∧ '/' ∉ piece ∧
      piece.getLast? = some c := by
    by_cases hm : '/' ∈ p.toList
    · obtain ⟨after, before, he, free⟩ := List.eq_append_cons_of_mem (List.mem_reverse.mpr hm)
      have whole : p.toList = before.reverse ++ '/' :: after.reverse := by
        rw [← List.reverse_reverse p.toList, he]
        simp
      have free : '/' ∉ after.reverse := fun h => free (List.mem_reverse.mp h)
      refine ⟨(splitSlashes before.reverse).map String.ofList, after.reverse, ?_, free, ?_⟩
      · unfold pieces
        rw [whole, splitSlashes_append, splitSlashes_of_free free, List.map_append,
          List.map_singleton]
      · rw [whole, List.getLast?_append, List.getLast?_cons] at hc
        cases hl : after.reverse.getLast? with
        | some d =>
          rw [hl] at hc
          exact hc
        | none =>
          rw [hl] at hc
          exact absurd (Option.some.inj hc).symm slash
    · exact ⟨[], p.toList, by rw [pieces_of_free hm, String.ofList_toList]; rfl, hm, hc⟩
  obtain ⟨init, piece, hp, free, hl⟩ := last
  have other (s : String) (hs : s.toList.getLast? ≠ some c) : String.ofList piece ≠ s := by
    rintro rfl
    rw [String.toList_ofList] at hs
    exact hs hl
  have noDot : some '.' ≠ some c := fun h => dot (Option.some.inj h).symm
  exact ⟨init, String.ofList piece, hp, other "" nofun, other "." noDot, other ".." noDot,
    by rwa [String.toList_ofList]⟩

/-- What is joined to a path ends as it does itself. -/
theorem endsInStep_join (c : String) {d : String} (h : EndsInStep d) : EndsInStep (join c d) := by
  by_cases ha : isAbsolute d = true
  · unfold join
    rw [if_pos ha]
    exact h
  · obtain ⟨init, n, hd, hn⟩ := h
    obtain ⟨front, hp, -, -⟩ := pieces_join c (Bool.eq_false_iff.mpr ha)
    exact ⟨front ++ init, n, by rw [hp, hd, List.append_assoc], hn⟩

theorem EndsInStep.under {p : String} (h : EndsInStep p) : ∃ q n, Under p q n := by
  obtain ⟨init, n, hp, hn⟩ := h
  obtain ⟨q, -, -, under, -⟩ := under_parent hp hn (endsInSlash_of_step hp hn)
  exact ⟨q, n, under⟩

/-- What a plain path is joined to ends in a step of the plain path. -/
theorem pieces_join_plain (c : String) {d : String} (h : IsPlain d) :
    ∃ init n, pieces (join c d) = init ++ [n] ∧ IsStep n := endsInStep_join c h.endsInStep

theorem isAbsolute_step {n : String} (hn : IsStep n) : isAbsolute n = false := by
  rw [Bool.eq_false_iff, Ne, isAbsolute_iff, pieces_of_free hn.2.2.2]
  simp [hn.1]

theorem names_join_step (q : String) {n : String} (hn : IsStep n) :
    FileSystem.names (join q n) = FileSystem.names q ++ [n] := by
  have single : FileSystem.names n = [n] := by
    unfold FileSystem.names
    rw [pieces_of_free hn.2.2.2]
    simp [hn.1]
  rw [names_join q (isAbsolute_step hn), single]

/-- A path with one more step. -/
theorem under_join (q : String) {n : String} (hn : IsStep n) : Under (join q n) q n := by
  obtain ⟨front, hp, -, ha⟩ := pieces_join q (isAbsolute_step hn)
  rw [pieces_of_free hn.2.2.2] at hp
  exact ⟨ha, ⟨[], by simp, names_join_step q hn⟩, endsInSlash_of_step hp hn, hn⟩

/-! ## Components -/

section Components
variable {d s : String} {c : Component}

/-- The steps of a relative path are its pieces, but for a dot at the start. -/
theorem components_of_relative (h : isAbsolute d = false) :
    components d = (pieces d).filterMap Component.ofPiece? ∨
      components d = .current :: (pieces d).filterMap Component.ofPiece? := by
  unfold components
  cases pieces d with
  | nil => exact Or.inl rfl
  | cons first rest =>
    dsimp only
    rw [h, if_neg nofun]
    by_cases hd : (first == ".") = true
    · rw [if_pos hd, beq_iff_eq.mp hd]
      exact Or.inr rfl
    · rw [if_neg hd]
      exact Or.inl rfl

/-- But for a dot, what is a step of a relative path is what a piece of it stands for. -/
theorem mem_components_iff (h : isAbsolute d = false) (other : c ≠ .current) :
    c ∈ components d ↔ ∃ s ∈ pieces d, Component.ofPiece? s = some c := by
  rw [← List.mem_filterMap]
  rcases components_of_relative h with hd | hd
  · rw [hd]
  · rw [hd, List.mem_cons, or_iff_right other]

theorem ofPiece?_ne_root (s : String) : Component.ofPiece? s ≠ some .root := by
  unfold Component.ofPiece?
  split
  · exact nofun
  · split <;> exact nofun

theorem ofPiece?_eq_parent_iff : Component.ofPiece? s = some .parent ↔ s = ".." := by
  unfold Component.ofPiece?
  by_cases idle : (s == "" || s == ".") = true
  · rw [if_pos idle]
    refine ⟨nofun, ?_⟩
    rintro rfl
    exact absurd idle (by decide)
  · rw [if_neg idle]
    by_cases up : (s == "..") = true
    · rw [if_pos up]
      exact ⟨fun _ => beq_iff_eq.mp up, fun _ => rfl⟩
    · rw [if_neg up]
      exact ⟨nofun, fun hs => absurd (beq_iff_eq.mpr hs) up⟩

/-- A piece is a name unless it counts for nothing or leads up. -/
theorem ofPiece?_name_iff :
    (∃ t, Component.ofPiece? s = some (.name t)) ↔ ¬(s = "" ∨ s = ".") ∧ s ≠ ".." := by
  constructor
  · rintro ⟨t, h⟩
    refine ⟨?_, ?_⟩
    · rintro (rfl | rfl) <;> simp [Component.ofPiece?] at h
    · rintro rfl
      simp [Component.ofPiece?] at h
  · rintro ⟨idle, up⟩
    rw [not_or] at idle
    exact ⟨s, by simp [Component.ofPiece?, idle, up]⟩

theorem root_mem_components_iff : .root ∈ components d ↔ isAbsolute d = true := by
  constructor
  · intro hc
    cases relative : isAbsolute d with
    | true => rfl
    | false =>
      obtain ⟨s, -, hs⟩ := (mem_components_iff (c := .root) relative nofun).mp hc
      exact absurd hs (ofPiece?_ne_root s)
  · intro absolute
    unfold components
    cases hp : pieces d with
    | nil => exact absurd hp (pieces_ne_nil d)
    | cons first rest =>
      dsimp only
      rw [if_pos absolute]
      exact List.mem_cons_self

theorem parent_mem_components_iff (h : isAbsolute d = false) :
    .parent ∈ components d ↔ ".." ∈ pieces d := by
  rw [mem_components_iff (c := .parent) h nofun]
  constructor
  · rintro ⟨s, hs, up⟩
    exact ofPiece?_eq_parent_iff.mp up ▸ hs
  · intro hs
    exact ⟨_, hs, ofPiece?_eq_parent_iff.mpr rfl⟩

theorem name_mem_components_iff (h : isAbsolute d = false) :
    (∃ t, .name t ∈ components d) ↔ ∃ s ∈ pieces d, ¬(s = "" ∨ s = ".") ∧ s ≠ ".." := by
  constructor
  · rintro ⟨t, ht⟩
    obtain ⟨s, hs, named⟩ := (mem_components_iff (c := .name t) h nofun).mp ht
    exact ⟨s, hs, ofPiece?_name_iff.mp ⟨t, named⟩⟩
  · rintro ⟨s, hs, counts⟩
    obtain ⟨t, named⟩ := ofPiece?_name_iff.mpr counts
    exact ⟨t, (mem_components_iff (c := .name t) h nofun).mpr ⟨s, hs, named⟩⟩

end Components

end GatedRelease.PathText
