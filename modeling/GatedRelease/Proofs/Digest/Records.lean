import GatedRelease.Digest
import GatedRelease.Proofs.FileSystem.PathText
import GatedRelease.Proofs.FileSystem.Walk
import GatedRelease.Proofs.Text.Utf8

/-! # No record imitates another

A digest is taken of records that stand one after the other with nothing between them.  They can be
told apart all the same: a location and the target of a link hold no NUL and end at the first one,
and the bytes of a file are counted before they come.  So bytes begin with one record at most
(`record_append_inj`), and they are one list of records at most (`shown_eq_of_records`).  All that a
record leaves out is whether a file is executable.
-/
namespace GatedRelease

/-! ## Texts in bytes -/

namespace Text

/-- Only NUL has a zero among its bytes. -/
theorem zero_not_mem_utf8EncodeChar {c : Char} (hc : c ≠ Char.ofNat 0) :
    0 ∉ String.utf8EncodeChar c := by
  have value : c.val.toNat ≠ 0 := fun h => hc (Char.ext (UInt32.toNat_inj.mp h))
  have byte (n : Nat) (h : (0 : UInt8) = UInt8.ofNat n) : n % 256 = 0 :=
    (UInt8.toNat_ofNat'.symm.trans (congrArg UInt8.toNat h.symm) : n % 256 = 0)
  intro h0
  unfold String.utf8EncodeChar at h0
  simp only at h0
  -- The first byte of several is at least 192, and each after it at least 128.
  split_ifs at h0 <;> simp only [List.mem_cons, List.not_mem_nil, or_false] at h0
  · have := byte _ h0
    omega
  · rcases h0 with h | h <;> have := byte _ h <;> omega
  · rcases h0 with h | h | h <;> have := byte _ h <;> omega
  · rcases h0 with h | h | h | h <;> have := byte _ h <;> omega

/-- A text without NUL has no zero byte. -/
theorem zero_not_mem_utf8 {s : String} (h : Char.ofNat 0 ∉ s.toList) : 0 ∉ utf8 s := by
  rw [utf8_eq_flatMap, List.mem_flatMap]
  rintro ⟨c, hc, h0⟩
  exact zero_not_mem_utf8EncodeChar (fun he => h (he ▸ hc)) h0

/-- What stands before the first zero can be told from what follows it. -/
theorem append_zero_inj {a b x y : Bytes} (ha : 0 ∉ a) (hb : 0 ∉ b)
    (h : a ++ 0 :: x = b ++ 0 :: y) : a = b ∧ x = y := by
  induction a generalizing b with
  | nil =>
    cases b with
    | nil => exact ⟨rfl, (List.cons.inj h).2⟩
    | cons c b => exact absurd ((List.cons.inj h).1 ▸ List.mem_cons_self) hb
  | cons d a ih =>
    cases b with
    | nil => exact absurd ((List.cons.inj h).1 ▸ List.mem_cons_self) ha
    | cons c b =>
      obtain ⟨rfl, tail⟩ := List.cons.inj h
      rw [List.mem_cons, not_or] at ha hb
      obtain ⟨rfl, rest⟩ := ih ha.2 hb.2 tail
      exact ⟨rfl, rest⟩

end Text

/-! ## Locations and lengths in bytes -/

theorem Name.not_mem_text {c : Char} (hc : c = '/' ∨ c = Char.ofNat 0) (n : Name) :
    c ∉ n.text.toList := by
  have h := n.valid
  simp only [Name.isValid, Bool.and_eq_true, Bool.not_eq_true', List.contains_eq_mem,
    decide_eq_false_iff_not] at h
  rcases hc with rfl | rfl
  · exact h.1.1.2
  · exact h.1.2

namespace Location

/-- The names can be read off a location in one text. -/
theorem names_render (l : Location) : FileSystem.names l.render = l.map (·.text) := by
  cases l with
  | nil => exact PathText.names_empty
  | cons n l =>
    have pieces : PathText.pieces (render (n :: l)) = (n :: l).map (·.text) := by
      refine PathText.pieces_intercalate nofun fun s hs => ?_
      obtain ⟨m, _, rfl⟩ := List.mem_map.mp hs
      exact m.not_mem_text (.inl rfl)
    unfold FileSystem.names
    rw [pieces]
    refine List.filter_eq_self.mpr fun s hs => ?_
    obtain ⟨m, _, rfl⟩ := List.mem_map.mp hs
    exact bne_iff_ne.mpr m.text_ne.1

theorem render_injective {l k : Location} (h : l.render = k.render) : l = k := by
  have text : Function.Injective Name.text := fun _ _ => Name.ext
  have names := congrArg FileSystem.names h
  rw [names_render, names_render] at names
  exact List.map_injective_iff.mpr text names

theorem zero_not_mem_render (l : Location) : 0 ∉ Text.utf8 l.render := by
  refine Text.zero_not_mem_utf8 ?_
  unfold render
  induction l with
  | nil => exact List.not_mem_nil
  | cons n l ih =>
    have head : Char.ofNat 0 ∉ n.text.toList := n.not_mem_text (.inr rfl)
    cases l with
    | nil => exact head
    | cons m l =>
      rw [List.map_cons, List.map_cons, String.intercalate_cons_cons, String.toList_append,
        String.toList_append, List.mem_append, List.mem_append]
      rintro ((h | h) | h)
      · exact head h
      · exact absurd h (by decide)
      · exact ih h

end Location

namespace Sha256

theorem length_bigEndian (width n : Nat) : (bigEndian width n).length = width := by
  unfold bigEndian
  rw [List.length_map, List.length_range]

theorem bigEndian_succ (width n : Nat) :
    bigEndian (width + 1) n = UInt8.ofNat (n / Nat.pow 256 width) :: bigEndian width n := by
  unfold bigEndian
  rw [List.range_succ_eq_map, List.map_cons, List.map_map]
  refine congrArg _ (List.map_congr_left fun i _ => ?_)
  simp only [Function.comp_apply]
  rw [Nat.add_sub_cancel, Nat.succ_eq_add_one, Nat.add_comm i 1, Nat.sub_add_eq]

/-- As many bytes tell numbers apart up to a multiple of what they can count. -/
theorem mod_eq_of_bigEndian {width n m : Nat} (h : bigEndian width n = bigEndian width m) :
    n % Nat.pow 256 width = m % Nat.pow 256 width := by
  induction width with
  | zero => exact (Nat.mod_one n).trans (Nat.mod_one m).symm
  | succ width ih =>
    rw [bigEndian_succ, bigEndian_succ] at h
    obtain ⟨first, rest⟩ := List.cons.inj h
    have byte : n / Nat.pow 256 width % 256 = m / Nat.pow 256 width % 256 :=
      (UInt8.toNat_ofNat'.symm.trans (congrArg UInt8.toNat first)).trans UInt8.toNat_ofNat'
    have parts (x : Nat) : x % Nat.pow 256 (width + 1) =
        x % Nat.pow 256 width + Nat.pow 256 width * (x / Nat.pow 256 width % 256) :=
      Nat.mod_pow_succ
    rw [parts, parts, ih rest, byte]

end Sha256

/-! ## Records -/

/-- What a digest shows of an entry: all but whether a file is executable. -/
def Entry.shown : Entry → Entry
  | .file bytes _ => .file bytes false
  | e => e

/-- **What a file system can hold**: the length of a file is a number of 64 bits, and the target of
a link holds no NUL. -/
def Entry.Storable : Entry → Prop
  | .directory => True
  | .file bytes _ => bytes.length < UInt64.size
  | .link target => Char.ofNat 0 ∉ target.toList

instance : DecidablePred Entry.Storable
  | .directory => inferInstanceAs (Decidable True)
  | .file bytes _ => inferInstanceAs (Decidable (bytes.length < UInt64.size))
  | .link target => inferInstanceAs (Decidable (_ ∉ target.toList))

namespace Tree

theorem length_lengthBytes (n : Nat) : (lengthBytes n).length = 8 := by
  unfold lengthBytes
  rw [List.length_reverse, Sha256.length_bigEndian]

theorem lengthBytes_injective {n m : Nat} (hn : n < UInt64.size) (hm : m < UInt64.size)
    (h : lengthBytes n = lengthBytes m) : n = m := by
  have same : n % UInt64.size = m % UInt64.size :=
    Sha256.mod_eq_of_bigEndian (List.reverse_injective h)
  rw [Nat.mod_eq_of_lt hn, Nat.mod_eq_of_lt hm] at same
  exact same

/-- The letter for the kind of an entry. -/
def kind : Entry → UInt8
  | .directory => 100
  | .file .. => 102
  | .link _ => 108

/-- What a record tells of an entry after its kind and its location. -/
def content : Entry → Bytes
  | .directory => []
  | .file bytes _ => lengthBytes bytes.length ++ bytes ++ [0]
  | .link target => Text.utf8 target ++ [0]

theorem record_eq (l : Location) (e : Entry) :
    record (l, e) = kind e :: 58 :: (Text.utf8 l.render ++ 0 :: content e) := by
  have d : Text.utf8 "d:" = [100, 58] := by decide +kernel
  have f : Text.utf8 "f:" = [102, 58] := by decide +kernel
  have l : Text.utf8 "l:" = [108, 58] := by decide +kernel
  cases e <;> simp only [record, kind, content, d, f, l, List.cons_append, List.nil_append,
    List.append_assoc]

theorem record_shown (l : Location) (e : Entry) : record (l, e.shown) = record (l, e) := by
  cases e <;> rfl

/-- What is told of entries of one kind can be told apart, whatever follows. -/
theorem content_append_inj {e f : Entry} {x y : Bytes} (he : e.Storable) (hf : f.Storable)
    (hk : kind e = kind f) (h : content e ++ x = content f ++ y) :
    e.shown = f.shown ∧ x = y := by
  have kinds : (100 : UInt8) ≠ 102 ∧ (100 : UInt8) ≠ 108 ∧ (102 : UInt8) ≠ 108 := by decide
  cases e with
  | directory =>
    cases f with
    | directory => exact ⟨rfl, h⟩
    | file => exact absurd hk kinds.1
    | link => exact absurd hk kinds.2.1
  | file bytes _ =>
    cases f with
    | directory => exact absurd hk.symm kinds.1
    | link => exact absurd hk kinds.2.2
    | file bytes' _ =>
      simp only [content, List.append_assoc] at h
      obtain ⟨counted, h⟩ := List.append_inj h
        ((length_lengthBytes _).trans (length_lengthBytes _).symm)
      obtain ⟨rfl, h⟩ := List.append_inj h (lengthBytes_injective he hf counted)
      exact ⟨rfl, List.append_cancel_left (List.append_cancel_left h)⟩
  | link target =>
    cases f with
    | directory => exact absurd hk.symm kinds.2.1
    | file => exact absurd hk.symm kinds.2.2
    | link target' =>
      simp only [content, List.append_assoc, List.singleton_append] at h
      obtain ⟨same, rest⟩ :=
        Text.append_zero_inj (Text.zero_not_mem_utf8 he) (Text.zero_not_mem_utf8 hf) h
      rw [Text.utf8_injective same]
      exact ⟨rfl, rest⟩

/-- **Bytes begin with one record at most.** -/
theorem record_append_inj {l k : Location} {e f : Entry} {x y : Bytes} (he : e.Storable)
    (hf : f.Storable) (h : record (l, e) ++ x = record (k, f) ++ y) :
    (l, e.shown) = (k, f.shown) ∧ x = y := by
  rw [record_eq, record_eq, List.cons_append, List.cons_append, List.cons_append,
    List.cons_append, List.append_assoc, List.append_assoc] at h
  obtain ⟨hk, h⟩ := List.cons.inj h
  obtain ⟨name, h⟩ := Text.append_zero_inj l.zero_not_mem_render k.zero_not_mem_render
    (List.cons.inj h).2
  obtain ⟨shown, rest⟩ := content_append_inj he hf hk h
  rw [Location.render_injective (Text.utf8_injective name), shown]
  exact ⟨rfl, rest⟩

/-- **Bytes are one list of records at most.** -/
theorem shown_eq_of_records {xs ys : List (Location × Entry)} (hx : ∀ x ∈ xs, x.2.Storable)
    (hy : ∀ y ∈ ys, y.2.Storable) (h : xs.flatMap record = ys.flatMap record) :
    xs.map (Prod.map id Entry.shown) = ys.map (Prod.map id Entry.shown) := by
  have some (x : Location × Entry) (rest : Bytes) : record x ++ rest ≠ [] := by
    rw [record_eq x.1 x.2]
    exact nofun
  induction xs generalizing ys with
  | nil =>
    cases ys with
    | nil => rfl
    | cons y ys => exact absurd h.symm (some y _)
  | cons x xs ih =>
    cases ys with
    | nil => exact absurd h (some x _)
    | cons y ys =>
      obtain ⟨hx, hxs⟩ := List.forall_mem_cons.mp hx
      obtain ⟨hy, hys⟩ := List.forall_mem_cons.mp hy
      obtain ⟨first, rest⟩ := record_append_inj hx hy h
      rw [List.map_cons, List.map_cons, ih hxs hys rest]
      exact congrArg (· :: _) first

theorem records_shown (xs : List (Location × Entry)) :
    (xs.map (Prod.map id Entry.shown)).flatMap record = xs.flatMap record := by
  rw [List.flatMap_map]
  exact List.flatMap_congr fun x _ => record_shown x.1 x.2

end Tree
end GatedRelease
