import GatedRelease.Text.Utf8
import Mathlib.Data.List.Basic
import Mathlib.Tactic.SplitIfs

/-! # Texts and their bytes

Each text has bytes of its own, those of its characters one after the other (`utf8_eq_flatMap`,
`utf8_injective`).  Reading bytes goes the other way.  Which bytes stand for a character is said by
`Spelled`, once for both ways: what a character is written as spells it (`spelled_encode`), and what
spells a character is scanned as it (`Spelled.scan`), and nothing else is (`spelled_of_scanOne`).
So bytes are read as a text exactly if they are its bytes (`ofUtf8?_eq_some`).
-/
namespace GatedRelease.Text

/-! ## Writing -/

theorem byteArray_toList_loop (bytes : ByteArray) (i : Nat) (r : List UInt8) :
    ByteArray.toList.loop bytes i r = r.reverse ++ bytes.data.toList.drop i := by
  fun_induction ByteArray.toList.loop bytes i r with
  | case1 i r hi ih =>
    have inside : i < bytes.data.toList.length := hi
    have here : bytes.get! i = bytes.data.toList[i] := getElem!_pos bytes.data i hi
    rw [ih, List.drop_eq_getElem_cons inside, List.reverse_cons, List.append_assoc, here]
    rfl
  | case2 i r hi =>
    have past : bytes.data.toList.length ≤ i := Nat.le_of_not_lt hi
    rw [List.drop_eq_nil_of_le past, List.append_nil]

theorem utf8_eq_data (s : String) : utf8 s = s.toByteArray.data.toList :=
  byteArray_toList_loop s.toByteArray 0 []

/-- The bytes of a text are those of its characters. -/
theorem utf8_eq_flatMap (s : String) : utf8 s = s.toList.flatMap String.utf8EncodeChar := by
  rw [utf8_eq_data, ← String.utf8Encode_toList, List.utf8Encode, List.toList_data_toByteArray]

theorem utf8_injective {s t : String} (h : utf8 s = utf8 t) : s = t := by
  rw [utf8_eq_data, utf8_eq_data] at h
  exact String.toByteArray_inj.mp (ByteArray.ext (Array.toList_inj.mp h))

/-! ## Characters -/

/-- **A number that bytes spell** as the number of a character. -/
inductive Spelled (v : Nat) : Bytes → Prop
  | one {a : UInt8} : a.toNat < 0x80 → v = a.toNat → Spelled v [a]
  | two {a b : UInt8} : inRange 0xC2 0xDF a = true → isContinuation b = true →
      v = (a.toNat - 0xC0) * 64 + payload b → Spelled v [a, b]
  | three {a b c : UInt8} : inRange 0xE0 0xEF a = true →
      inRange (secondRange a).1 (secondRange a).2 b = true → isContinuation c = true →
      v = ((a.toNat - 0xE0) * 64 + payload b) * 64 + payload c → Spelled v [a, b, c]
  | four {a b c d : UInt8} : inRange 0xF0 0xF4 a = true →
      inRange (secondRange a).1 (secondRange a).2 b = true → isContinuation c = true →
      isContinuation d = true →
      v = (((a.toNat - 0xF0) * 64 + payload b) * 64 + payload c) * 64 + payload d →
      Spelled v [a, b, c, d]

variable {a b : UInt8} {v : Nat} {bytes rest : Bytes}

theorem inRange_iff {low high : Nat} :
    inRange low high b = true ↔ low ≤ b.toNat ∧ b.toNat ≤ high := by
  simp [inRange]

theorem isContinuation_iff : isContinuation b = true ↔ 0x80 ≤ b.toNat ∧ b.toNat ≤ 0xBF :=
  inRange_iff

theorem secondRange_iff : inRange (secondRange a).1 (secondRange a).2 b = true ↔
    0x80 ≤ b.toNat ∧ b.toNat ≤ 0xBF ∧ (a.toNat = 0xE0 → 0xA0 ≤ b.toNat) ∧
      (a.toNat = 0xED → b.toNat ≤ 0x9F) ∧ (a.toNat = 0xF0 → 0x90 ≤ b.toNat) ∧
      (a.toNat = 0xF4 → b.toNat ≤ 0x8F) := by
  have number (n : UInt8) : (a == n) = true ↔ a.toNat = n.toNat := by
    rw [beq_iff_eq, UInt8.toNat_inj]
  rw [inRange_iff]
  unfold secondRange
  simp only [number]
  split_ifs <;> simp_all <;> omega

theorem toNat_ofNat {n : Nat} (h : n < 256) : (UInt8.ofNat n).toNat = n := by
  rw [UInt8.toNat_ofNat']
  exact Nat.mod_eq_of_lt h

/-- The bytes of a character spell its number. -/
theorem spelled_encode (x : Char) : Spelled x.val.toNat (String.utf8EncodeChar x) := by
  have valid : x.val.toNat < 0xD800 ∨ 0xDFFF < x.val.toNat ∧ x.val.toNat < 0x110000 := x.valid
  unfold String.utf8EncodeChar
  dsimp only
  generalize x.val.toNat = v at valid ⊢
  have tail (n : Nat) : (UInt8.ofNat (n % 64 + 0x80)).toNat = n % 64 + 0x80 :=
    toNat_ofNat (by omega)
  have follows (n : Nat) : isContinuation (UInt8.ofNat (n % 64 + 0x80)) = true := by
    rw [isContinuation_iff, tail]
    omega
  split
  · have lead : (UInt8.ofNat v).toNat = v := toNat_ofNat (by omega)
    exact .one (by omega) lead.symm
  split
  · have lead : (UInt8.ofNat (v / 64 % 0x20 + 0xc0)).toNat = v / 64 + 0xc0 := by
      rw [toNat_ofNat (by omega)]
      omega
    refine .two ?_ (follows v) ?_
    · rw [inRange_iff, lead]
      omega
    · rw [payload, lead, tail]
      omega
  split
  · have lead : (UInt8.ofNat (v / 4096 % 0x10 + 0xe0)).toNat = v / 4096 + 0xe0 := by
      rw [toNat_ofNat (by omega)]
      omega
    refine .three ?_ ?_ (follows v) ?_
    · rw [inRange_iff, lead]
      omega
    · rw [secondRange_iff, lead, tail]
      omega
    · rw [payload, payload, lead, tail, tail]
      omega
  · have lead : (UInt8.ofNat (v / 262144 % 0x08 + 0xf0)).toNat = v / 262144 + 0xf0 := by
      rw [toNat_ofNat (by omega)]
      omega
    refine .four ?_ ?_ (follows (v / 64)) (follows v) ?_
    · rw [inRange_iff, lead]
      omega
    · rw [secondRange_iff, lead, tail]
      omega
    · rw [payload, payload, payload, lead, tail, tail, tail]
      omega

/-- What spells the number of a character is what the character is written as. -/
theorem Spelled.encode (h : Spelled v bytes) : String.utf8EncodeChar (Char.ofNat v) = bytes := by
  have number (valid : v.isValidChar) : (Char.ofNat v).val.toNat = v := by
    rw [Char.ofNat, dif_pos valid]
    rfl
  have byte (n : Nat) (x : UInt8) (h : n = x.toNat) : UInt8.ofNat n = x := by
    rw [h, UInt8.ofNat_toNat]
  have valid_of (h : v < 0xD800 ∨ 0xDFFF < v ∧ v < 0x110000) : v.isValidChar := h
  unfold String.utf8EncodeChar
  dsimp only
  cases h with
  | @one a h e =>
    rw [number (valid_of (by omega)), if_pos (by omega), byte v a e]
  | @two a b first second e =>
    rw [inRange_iff] at first
    rw [isContinuation_iff] at second
    rw [payload] at e
    rw [number (valid_of (by omega)), if_neg (by omega), if_pos (by omega), byte _ a (by omega),
      byte _ b (by omega)]
  | @three a b c first second third e =>
    rw [inRange_iff] at first
    rw [secondRange_iff] at second
    rw [isContinuation_iff] at third
    rw [payload, payload] at e
    rw [number (valid_of (by omega)), if_neg (by omega), if_neg (by omega), if_pos (by omega),
      byte _ a (by omega), byte _ b (by omega), byte _ c (by omega)]
  | @four a b c d first second third fourth e =>
    rw [inRange_iff] at first
    rw [secondRange_iff] at second
    rw [isContinuation_iff] at third fourth
    rw [payload, payload, payload] at e
    rw [number (valid_of (by omega)), if_neg (by omega), if_neg (by omega), if_neg (by omega),
      byte _ a (by omega), byte _ b (by omega), byte _ c (by omega), byte _ d (by omega)]

/-- What spells a character is scanned as it. -/
theorem Spelled.scan (h : Spelled v bytes) (rest : Bytes) :
    scan (bytes ++ rest) = some (Char.ofNat v) :: scan rest := by
  have outside {low high : Nat} {a : UInt8} (h : ¬ (low ≤ a.toNat ∧ a.toNat ≤ high)) :
      inRange low high a = false := by
    rw [← Bool.not_eq_true, inRange_iff]
    exact h
  cases h with
  | @one a h e =>
    rw [List.cons_append, Text.scan]
    simp [scanOne, h, e]
  | @two a b first second e =>
    have lead := inRange_iff.mp first
    have high : ¬ a.toNat < 0x80 := by omega
    rw [List.cons_append, Text.scan]
    simp [scanOne, high, first, second, e]
  | @three a b c first second third e =>
    have lead := inRange_iff.mp first
    have high : ¬ a.toNat < 0x80 := by omega
    have higher : inRange 0xC2 0xDF a = false := outside (by omega)
    rw [List.cons_append, Text.scan]
    simp [scanOne, high, higher, first, second, third, e]
  | @four a b c d first second third fourth e =>
    have lead := inRange_iff.mp first
    have high : ¬ a.toNat < 0x80 := by omega
    have higher : inRange 0xC2 0xDF a = false := outside (by omega)
    have highest : inRange 0xE0 0xEF a = false := outside (by omega)
    rw [List.cons_append, Text.scan]
    simp [scanOne, high, higher, highest, first, second, third, fourth, e]

/-- What is scanned as a character spells it. -/
theorem spelled_of_scanOne {x : Char} (h : (scanOne a rest).1 = some x) :
    ∃ v, x = Char.ofNat v ∧ Spelled v (a :: rest.take (scanOne a rest).2) := by
  revert h
  fun_cases scanOne a rest <;> rintro ⟨⟩
  · exact ⟨_, rfl, .one ‹_› rfl⟩
  · exact ⟨_, rfl, .two ‹_› ‹_› rfl⟩
  · exact ⟨_, rfl, .three ‹_› ‹_› ‹_› rfl⟩
  · exact ⟨_, rfl, .four ‹_› ‹_› ‹_› ‹_› rfl⟩

/-! ## Reading -/

theorem scan_flatMap (cs : List Char) :
    scan (cs.flatMap String.utf8EncodeChar) = cs.map some := by
  induction cs with
  | nil => rw [List.flatMap_nil, scan, List.map_nil]
  | cons c cs ih =>
    rw [List.flatMap_cons, (spelled_encode c).scan, ih, List.map_cons]
    exact congrArg (some · :: _) (Char.ofNat_toNat c)

theorem flatMap_of_scan {cs : List Char} (h : scan bytes = cs.map some) :
    cs.flatMap String.utf8EncodeChar = bytes := by
  fun_induction scan bytes generalizing cs with
  | case1 =>
    obtain rfl : cs = [] := by simpa using h.symm
    rfl
  | case2 b rest ih =>
    cases cs with
    | nil => exact absurd h nofun
    | cons c cs =>
      rw [List.map_cons, List.cons.injEq] at h
      obtain ⟨v, rfl, spelled⟩ := spelled_of_scanOne h.1
      rw [List.flatMap_cons, spelled.encode, ih h.2, List.cons_append, List.take_append_drop]

theorem mapM_id_eq_some {xs : List (Option Char)} {cs : List Char} :
    xs.mapM id = some cs ↔ xs = cs.map some := by
  induction xs generalizing cs with
  | nil => cases cs <;> simp
  | cons x xs ih =>
    cases x with
    | none => cases cs <;> simp
    | some c =>
      cases cs with
      | nil => simp [Option.bind_eq_some_iff]
      | cons d cs => simp [Option.bind_eq_some_iff, ih, and_comm]

/-- **The bytes of a text, and no others, are read as it.** -/
theorem ofUtf8?_eq_some {text : String} : ofUtf8? bytes = some text ↔ utf8 text = bytes := by
  unfold ofUtf8?
  rw [Option.map_eq_some_iff, utf8_eq_flatMap]
  constructor
  · rintro ⟨cs, h, rfl⟩
    rw [String.toList_ofList]
    exact flatMap_of_scan (mapM_id_eq_some.mp h)
  · rintro rfl
    exact ⟨text.toList, mapM_id_eq_some.mpr (scan_flatMap text.toList), String.ofList_toList⟩

end GatedRelease.Text
