import GatedRelease.Proofs.Digest.Records
import GatedRelease.Proofs.FileSystem.Growth

/-! # The digest identifies the tree

Two trees are written in the same bytes if and only if they hold the same at every location, but for
executable bits (`encoding_eq_iff`).  Trees know no order but that of their locations; a file system
does, and lists a directory as it likes.  A walk that sorts what each directory lists comes upon the
entries in the order of their locations, whatever the listings are (`Enumeration.walk_eq`).  So the
bytes of which a digest is taken are those of the entries below its root, wherever the root is and
however its path is written (`treeBytes_identify`).
-/
namespace GatedRelease
namespace Tree
variable {s t : Tree} {l : Location}

/-! ## The bytes and the tree -/

/-- A file system can hold all of the tree. -/
def Storable (t : Tree) : Prop := ∀ x ∈ t.entries, x.2.Storable

instance : DecidablePred Storable := fun t => inferInstanceAs (Decidable (∀ x ∈ t.entries, _))

/-- The entries as a digest shows them. -/
def shown (t : Tree) : List (Location × Entry) := t.entries.map (Prod.map id Entry.shown)

theorem mem_shown_iff (hl : l ≠ []) {e : Entry} :
    (l, e) ∈ t.shown ↔ (t.find? l).map Entry.shown = some e := by
  rw [shown, List.mem_map, Option.map_eq_some_iff]
  constructor
  · rintro ⟨⟨k, f⟩, hm, he⟩
    obtain ⟨rfl, rfl⟩ := Prod.mk.inj he
    exact ⟨f, (find?_eq_some_iff hl).mpr hm, rfl⟩
  · rintro ⟨f, hf, rfl⟩
    exact ⟨(l, f), (find?_eq_some_iff hl).mp hf, rfl⟩

theorem ordered_shown (t : Tree) : t.shown.Pairwise (fun a b => a.1 < b.1) :=
  t.ordered.map _ fun _ _ h => h

theorem shown_eq_iff : s.shown = t.shown ↔
    ∀ l ≠ [], (s.find? l).map Entry.shown = (t.find? l).map Entry.shown := by
  constructor
  · intro h l hl
    refine Option.ext fun e => ?_
    rw [← mem_shown_iff hl, ← mem_shown_iff hl, h]
  · intro h
    refine eq_of_mem_iff s.ordered_shown t.ordered_shown fun ⟨l, e⟩ => ?_
    by_cases hl : l = []
    · have rooted (t : Tree) : (l, e) ∉ t.shown := by
        intro hm
        obtain ⟨x, hx, he⟩ := List.mem_map.mp hm
        exact t.rooted x hx ((Prod.mk.inj he).1.trans hl)
      exact iff_of_false (rooted s) (rooted t)
    · rw [mem_shown_iff hl, mem_shown_iff hl, h l hl]

/-- **The bytes of a tree tell all of it** but which files are executable. -/
theorem encoding_eq_iff (hs : s.Storable) (ht : t.Storable) : s.encoding = t.encoding ↔
    ∀ l ≠ [], (s.find? l).map Entry.shown = (t.find? l).map Entry.shown := by
  rw [← shown_eq_iff]
  constructor
  · exact shown_eq_of_records hs ht
  · intro h
    unfold encoding
    rw [← records_shown, ← records_shown t.entries]
    exact congrArg (List.flatMap record) h

/-! ## The order of the listings -/

/-- **How directories list what they hold**: each every entry once, in any order. -/
structure Enumeration (t : Tree) where
  listing : Location → List (Name × Entry)
  once : ∀ l, ((listing l).map (·.1)).Nodup
  complete : ∀ l n e, (n, e) ∈ listing l ↔ t.find? (l ++ [n]) = some e

namespace Enumeration
variable (d : t.Enumeration)

/-- The entries of a directory, sorted by name. -/
def sorted (l : Location) : List (Name × Entry) :=
  (d.listing l).mergeSort fun a b => decide (a.1.text ≤ b.1.text)

theorem perm_sorted (l : Location) : (d.sorted l).Perm (d.listing l) :=
  List.mergeSort_perm (d.listing l) _

/-- The walk through all that is below a directory, so many levels down: its entries sorted by name,
and after each of them what is below it. -/
def walk : Nat → Location → List (Location × Entry)
  | 0, _ => []
  | depth + 1, l => (d.sorted l).flatMap fun x => (l ++ [x.1], x.2) :: walk depth (l ++ [x.1])

theorem mem_sorted_iff {n : Name} {e : Entry} :
    (n, e) ∈ d.sorted l ↔ t.find? (l ++ [n]) = some e := by
  rw [(d.perm_sorted l).mem_iff]
  exact d.complete l n e

theorem ordered_sorted (l : Location) : (d.sorted l).Pairwise (fun a b => a.1 < b.1) := by
  have sorted : (d.sorted l).Pairwise (fun a b => a.1.text ≤ b.1.text) := by
    refine (List.pairwise_mergeSort ?_ ?_ (d.listing l)).imp of_decide_eq_true
    · intro a b c hab hbc
      exact decide_eq_true (String.le_trans (of_decide_eq_true hab) (of_decide_eq_true hbc))
    · intro a b
      rw [Bool.or_eq_true, decide_eq_true_eq, decide_eq_true_eq]
      exact String.le_total _ _
  have distinct : (d.sorted l).Pairwise (fun a b => a.1 ≠ b.1) :=
    List.pairwise_map.mp (((d.perm_sorted l).map Prod.fst).nodup_iff.mpr (d.once l))
  refine (sorted.and distinct).imp fun {a b} h => ?_
  obtain ⟨le, ne⟩ := h
  by_contra hn
  exact ne (Std.Trichotomous.trichotomous (r := (· < ·)) a.1 b.1 hn (String.not_lt.mpr le))

/-- The walk comes upon all that is below, so many levels down. -/
theorem mem_walk_iff {depth : Nat} {k : Location} {e : Entry} : (k, e) ∈ d.walk depth l ↔
    ∃ r, r ≠ [] ∧ r.length ≤ depth ∧ k = l ++ r ∧ t.find? (l ++ r) = some e := by
  induction depth generalizing l with
  | zero =>
    constructor
    · exact nofun
    · rintro ⟨r, hr, hd, -⟩
      exact absurd (List.length_eq_zero_iff.mp (Nat.le_zero.mp hd)) hr
  | succ depth ih =>
    rw [walk, List.mem_flatMap]
    constructor
    · rintro ⟨⟨n, f⟩, hn, h⟩
      have here := d.mem_sorted_iff.mp hn
      rcases List.mem_cons.mp h with h | h
      · obtain ⟨rfl, rfl⟩ := Prod.mk.inj h
        exact ⟨[n], nofun, Nat.le_add_left 1 depth, rfl, here⟩
      · obtain ⟨r, -, hd, rfl, hf⟩ := ih.mp h
        rw [List.append_assoc] at hf
        exact ⟨n :: r, nofun, Nat.succ_le_succ hd, List.append_assoc l [n] r, hf⟩
    · rintro ⟨r, hr, hd, rfl, hf⟩
      obtain ⟨n, r, rfl⟩ := List.exists_cons_of_ne_nil hr
      by_cases hrest : r = []
      · subst hrest
        exact ⟨(n, e), d.mem_sorted_iff.mpr hf, .head _⟩
      · have here : l ++ n :: r = l ++ [n] ++ r := (List.append_assoc l [n] r).symm
        rw [here] at hf
        refine ⟨(n, .directory), d.mem_sorted_iff.mpr (find?_above hf hrest), .tail _ ?_⟩
        exact ih.mpr ⟨r, hrest, Nat.le_of_succ_le_succ hd, here, hf⟩

/-- The walk comes upon locations in their order. -/
theorem ordered_walk (depth : Nat) (l : Location) :
    (d.walk depth l).Pairwise (fun a b => a.1 < b.1) := by
  induction depth generalizing l with
  | zero => exact .nil
  | succ depth ih =>
    rw [walk, List.pairwise_flatMap]
    constructor
    · rintro ⟨n, f⟩ -
      refine List.pairwise_cons.mpr ⟨?_, ih _⟩
      rintro ⟨k, e⟩ hk
      obtain ⟨r, hr, -, rfl, -⟩ := d.mem_walk_iff.mp hk
      obtain ⟨m, r, rfl⟩ := List.exists_cons_of_ne_nil hr
      have := (Location.append_lt_append_iff (l ++ [n]) (a := [])).mpr (List.nil_lt_cons m r)
      rwa [List.append_nil] at this
    · refine (d.ordered_sorted l).imp fun {a b} hab => ?_
      have shape (a : Name × Entry) {x} (h : x ∈ (l ++ [a.1], a.2) :: d.walk depth (l ++ [a.1])) :
          ∃ r, x.1 = l ++ a.1 :: r := by
        rcases List.mem_cons.mp h with rfl | h
        · exact ⟨[], rfl⟩
        · obtain ⟨r, -, -, hk, -⟩ := d.mem_walk_iff.mp h
          exact ⟨r, by rw [hk, List.append_assoc, List.singleton_append]⟩
      intro x hx y hy
      obtain ⟨r, hr⟩ := shape a hx
      obtain ⟨q, hq⟩ := shape b hy
      rw [hr, hq]
      exact (Location.append_lt_append_iff l).mpr (List.cons_lt_cons_iff.mpr (.inl hab))

/-- **Whatever order directories list their entries in**, the walk comes upon the entries of the
tree in the order of their locations. -/
theorem walk_eq {depth : Nat} (deep : ∀ x ∈ (t.below l).entries, x.1.length ≤ depth) :
    d.walk depth l = (t.below l).entries.map fun x => (l ++ x.1, x.2) := by
  refine eq_of_mem_iff (d.ordered_walk depth l) ?_ fun ⟨k, e⟩ => ?_
  · exact (t.below l).ordered.map _ fun a b h => (Location.append_lt_append_iff l).mpr h
  · rw [d.mem_walk_iff, List.mem_map]
    constructor
    · rintro ⟨r, hr, -, rfl, hf⟩
      rw [← find?_below _ _ hr] at hf
      exact ⟨(r, e), (find?_eq_some_iff hr).mp hf, rfl⟩
    · rintro ⟨⟨r, f⟩, hm, h⟩
      obtain ⟨rfl, rfl⟩ := Prod.mk.inj h
      have hr := (t.below l).rooted _ hm
      refine ⟨r, hr, deep _ hm, rfl, ?_⟩
      rw [← find?_below _ _ hr]
      exact (find?_eq_some_iff hr).mpr hm

/-- The bytes that the walk gives, each location taken from where the walk began. -/
def bytes (depth : Nat) (l : Location) : Bytes :=
  (d.walk depth l).flatMap fun x => record (x.1.drop l.length, x.2)

theorem bytes_eq {depth : Nat} (deep : ∀ x ∈ (t.below l).entries, x.1.length ≤ depth) :
    d.bytes depth l = (t.below l).encoding := by
  unfold bytes encoding
  rw [d.walk_eq deep, List.flatMap_map]
  refine List.flatMap_congr fun x _ => ?_
  rw [List.drop_left]

end Enumeration

/-- What stands right below the root. -/
def atTop : Location × Entry → Option (Name × Entry)
  | ([n], e) => some (n, e)
  | _ => none

theorem eq_of_atTop {x : Location × Entry} {y : Name × Entry} (h : atTop x = some y) :
    x = ([y.1], y.2) := by
  unfold atTop at h
  split at h
  · rw [← Option.some.inj h]
  · exact absurd h nofun

/-- The listings in the order of the names. -/
def byName (t : Tree) : t.Enumeration where
  listing l := (t.below l).entries.filterMap atTop
  once l := by
    refine List.pairwise_map.mpr ((t.below l).ordered.filterMap atTop ?_)
    intro a b hab x hx y hy hxy
    rw [eq_of_atTop hx, eq_of_atTop hy, hxy] at hab
    exact Std.Irrefl.irrefl _ hab
  complete l n e := by
    have hn : [n] ≠ [] := nofun
    rw [List.mem_filterMap, ← find?_below t l hn, find?_eq_some_iff hn]
    constructor
    · rintro ⟨x, hm, hx⟩
      rw [eq_of_atTop hx] at hm
      exact hm
    · exact fun hm => ⟨_, hm, rfl⟩

instance (t : Tree) : Inhabited t.Enumeration := ⟨t.byName⟩

end Tree

/-! ## The digest of a path -/

namespace FileSystem
variable {fs gs : FileSystem} {root top : String} {l k : Location}

/-- The bytes of which the digest of a path is the hash. -/
def treeBytes (fs : FileSystem) (root : String) : Except DigestFailure Bytes :=
  (fs.readTree root).map (·.encoding)

theorem treeDigest_eq (fs : FileSystem) (root : String) :
    fs.treeDigest root = (fs.treeBytes root).map Sha256.hexDigest := by
  unfold treeDigest treeBytes
  cases fs.readTree root <;> rfl

/-- **A path by which a directory can be digested**: it leads there, no entry is too far from it, and
everything is as a file system can hold it. -/
structure Digestible (fs : FileSystem) (root : String) (l : Location) : Prop where
  directory : fs.directoryAt root = .ok l
  reach : (fs.tree.below l).withinReach root = true
  storable : (fs.tree.below l).Storable

theorem Digestible.treeBytes (h : fs.Digestible root l) :
    fs.treeBytes root = .ok (fs.tree.below l).encoding := by
  unfold FileSystem.treeBytes readTree
  rw [h.directory]
  simp only [h.reach, if_true]
  rfl

/-- **The bytes of a digest are those of the tree and of nothing else.**  For any two directories, by
whatever paths: the bytes are the same if and only if the directories hold the same below them, but
for executable bits; and they are those of a sorted walk, however directories list their entries. -/
theorem treeBytes_identify (first : fs.Digestible root l) (second : gs.Digestible top k) :
    fs.treeDigest root = (fs.treeBytes root).map Sha256.hexDigest ∧
    (∀ (d : fs.tree.Enumeration) (depth : Nat),
      (∀ x ∈ (fs.tree.below l).entries, x.1.length ≤ depth) →
      fs.treeBytes root = .ok (d.bytes depth l)) ∧
    (fs.treeBytes root = gs.treeBytes top ↔ ∀ r ≠ [],
      (fs.tree.find? (l ++ r)).map Entry.shown = (gs.tree.find? (k ++ r)).map Entry.shown) := by
  refine ⟨fs.treeDigest_eq root, fun d depth deep => ?_, ?_⟩
  · rw [first.treeBytes, d.bytes_eq deep]
  · rw [first.treeBytes, second.treeBytes, Except.ok.injEq,
      Tree.encoding_eq_iff first.storable second.storable]
    refine forall₂_congr fun r hr => ?_
    rw [Tree.find?_below _ _ hr, Tree.find?_below _ _ hr]

section Sample

/-- A tree with a directory of its own at a location: a file whose bytes look like a record, and a
link whose target does. -/
def sampleTree (t : Tree) (l : Location) (executable : Bool) : Tree :=
  let d : Name := ⟨"d", by decide +kernel⟩
  let f : Name := ⟨"f", by decide +kernel⟩
  (((t.put l .directory).put (l ++ [d]) .directory).put (l ++ [d, f])
    (.file [0, 100, 58, 103, 0] executable)).put (l ++ [f]) (.link "d:f")

def sampleName : Name := ⟨"s", by decide +kernel⟩

/-- A directory below the root. -/
def sampleFiles : FileSystem := ⟨sampleTree .empty [sampleName] true, []⟩

/-- The same directory one level further down, with nothing executable in it. -/
def sampleElsewhere : FileSystem :=
  ⟨sampleTree (Tree.empty.put [sampleName] .directory) [sampleName, sampleName] false, [sampleName]⟩

theorem treeBytes_identify_sample :
    sampleFiles.Digestible "s" [sampleName] ∧
    sampleElsewhere.Digestible "./s//../s/" [sampleName, sampleName] ∧
    ∀ r ≠ [], (sampleFiles.tree.find? ([sampleName] ++ r)).map Entry.shown =
      (sampleElsewhere.tree.find? ([sampleName, sampleName] ++ r)).map Entry.shown := by
  have first : sampleFiles.Digestible "s" [sampleName] :=
    ⟨by decide +kernel, by decide +kernel, by decide +kernel⟩
  have second : sampleElsewhere.Digestible "./s//../s/" [sampleName, sampleName] :=
    ⟨by decide +kernel, by decide +kernel, by decide +kernel⟩
  have same : sampleFiles.treeBytes "s" = sampleElsewhere.treeBytes "./s//../s/" := by
    rw [first.treeBytes, second.treeBytes]
    exact congrArg _ (by decide +kernel)
  exact ⟨first, second, (treeBytes_identify first second).2.2.mp same⟩

end Sample

end FileSystem
end GatedRelease
