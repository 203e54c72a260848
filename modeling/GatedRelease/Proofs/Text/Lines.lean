import GatedRelease.Command
import Mathlib.Data.List.Count
import Mathlib.Data.List.Infix

/-! # Lines, and the last of them

Where a text is cut into lines is said here without a machine that reads it (`Ruled`): a line ends
with a line feed, which takes a carriage return right before it along, and what follows upon the
last line end is a line of its own unless nothing does.  There is one way to cut a text so, and the
reader of lines finds it (`ruled_iff`).  So the end of a stream that a failure shows is known for
every text (`Output.tail_shows`), also for one that ends in empty lines, or in a carriage return that
no line feed follows.
-/
namespace GatedRelease

namespace Text

/-- What ends a line. -/
inductive LineEnd
  | feed
  /-- A carriage return and a line feed. -/
  | returnFeed

/-- The characters at the end of a line. -/
def LineEnd.chars : LineEnd → List Char
  | feed => ['\n']
  | returnFeed => ['\r', '\n']

/-- **A text and its lines.** -/
inductive Ruled : List Char → List (List Char) → Prop
  | nil : Ruled [] []
  /-- What follows upon the last line end, if it is anything. -/
  | last {line : List Char} : line ≠ [] → '\n' ∉ line → Ruled line [line]
  /-- A carriage return right before the line feed is no part of the line. -/
  | closed {line rest : List Char} {lines : List (List Char)} (e : LineEnd) :
      '\n' ∉ line → (e = .feed → line.getLast? ≠ some '\r') → Ruled rest lines →
      Ruled (line ++ e.chars ++ rest) (line :: lines)

section Ruled
variable {c : Char} {text line rest : List Char} {lines : List (List Char)}

/-- A character that ends no line belongs to the first line. -/
theorem linesOf_cons (hc : c ≠ '\n') (hr : ∀ later, c = '\r' → rest ≠ '\n' :: later) :
    linesOf (c :: rest) =
      match linesOf rest with
      | [] => [[c]]
      | first :: later => (c :: first) :: later :=
  linesOf.eq_4 c rest hc hr

/-- What no line feed stands in is one line. -/
theorem linesOf_open (some : line ≠ []) (free : '\n' ∉ line) : linesOf line = [line] := by
  induction line with
  | nil => exact absurd rfl some
  | cons c line ih =>
    obtain ⟨hc, rest⟩ : c ≠ '\n' ∧ '\n' ∉ line := by simpa [eq_comm] using free
    have none (later : List Char) : line ≠ '\n' :: later := by
      rintro rfl
      exact rest List.mem_cons_self
    rw [linesOf_cons hc fun later _ => none later]
    by_cases empty : line = []
    · rw [empty]
      rfl
    · rw [ih empty rest]

/-- **A line is read up to its end.** -/
theorem linesOf_closed (e : LineEnd) (free : '\n' ∉ line)
    (whole : e = .feed → line.getLast? ≠ some '\r') (rest : List Char) :
    linesOf (line ++ e.chars ++ rest) = line :: linesOf rest := by
  induction line with
  | nil => cases e <;> rfl
  | cons c line ih =>
    obtain ⟨hc, free⟩ : c ≠ '\n' ∧ '\n' ∉ line := by simpa [eq_comm] using free
    have whole' : e = .feed → line.getLast? ≠ some '\r' := by
      intro he ends
      refine whole he ?_
      rw [List.getLast?_cons, ends]
      rfl
    -- A carriage return within a line is followed by more of the line, or by another one.
    have within (later : List Char) (ret : c = '\r') : line ++ e.chars ++ rest ≠ '\n' :: later := by
      intro h
      cases line with
      | nil =>
        cases e with
        | feed => exact whole rfl (by rw [ret]; rfl)
        | returnFeed => exact absurd (List.cons.inj h).1 (by decide)
      | cons d line =>
        obtain ⟨rfl, -⟩ := List.cons.inj h
        exact free List.mem_cons_self
    rw [List.cons_append, List.cons_append, linesOf_cons hc within, ih free whole']

/-- The lines that are read are lines of the text. -/
theorem ruled_linesOf (text : List Char) : Ruled text (linesOf text) := by
  fun_induction linesOf text with
  | case1 => exact .nil
  | case2 rest ih => exact .closed .feed List.not_mem_nil (fun _ => nofun) ih
  | case3 rest ih => exact .closed .returnFeed List.not_mem_nil nofun ih
  | case4 c rest hc _ none ih =>
    rw [none] at ih
    cases ih
    exact .last (List.cons_ne_nil c []) (by simpa [eq_comm] using hc)
  | case5 c rest hc hr first later found ih =>
    rw [found] at ih
    cases ih with
    | last _ free =>
      exact .last (List.cons_ne_nil c _) (by simpa [eq_comm] using ⟨hc, free⟩)
    | @closed _ rest _ e free whole ruled =>
      have longer : '\n' ∉ c :: first := by simpa [eq_comm] using ⟨hc, free⟩
      refine .closed e longer ?_ ruled
      -- A carriage return that stands alone before a line feed would have ended the line.
      rintro rfl ends
      cases first with
      | nil => exact hr rest (Option.some.inj ends) rfl
      | cons d first => exact whole rfl ends

/-- **There is one way to cut a text into lines**, and it is how lines are read. -/
theorem ruled_iff : Ruled text lines ↔ lines = linesOf text := by
  constructor
  · intro h
    induction h with
    | nil => rfl
    | last some free => exact (linesOf_open some free).symm
    | closed e free whole _ ih => rw [linesOf_closed e free whole, ← ih]
  · rintro rfl
    exact ruled_linesOf text

/-- No line feed stands in a line. -/
theorem Ruled.free (h : Ruled text lines) : ∀ line ∈ lines, '\n' ∉ line := by
  induction h with
  | nil => exact nofun
  | last _ free => simpa using free
  | closed _ free _ _ ih => exact List.forall_mem_cons.mpr ⟨free, ih⟩

end Ruled

/-! ## Lines put together -/

section Joined
variable {sep : List Char} {c : Char}

/-- The later of several texts that are joined are at the end. -/
theorem intercalate_suffix (sep : List Char) (xs ys : List (List Char)) :
    sep.intercalate ys <:+ sep.intercalate (xs ++ ys) := by
  induction xs with
  | nil => exact List.suffix_rfl
  | cons x xs ih =>
    refine ih.trans ?_
    show sep.intercalate (xs ++ ys) <:+ sep.intercalate (x :: (xs ++ ys))
    cases xs ++ ys with
    | nil => exact List.nil_suffix
    | cons z zs =>
      rw [List.intercalate_cons_cons]
      exact List.suffix_append _ _

/-- Texts that a character joins and does not stand in have it between neighbours only. -/
theorem count_intercalate {xs : List (List Char)} (free : ∀ x ∈ xs, c ∉ x) :
    ([c].intercalate xs).count c = xs.length - 1 := by
  induction xs with
  | nil => rfl
  | cons x xs ih =>
    obtain ⟨hx, rest⟩ := List.forall_mem_cons.mp free
    have none : x.count c = 0 := List.count_eq_zero.mpr hx
    cases xs with
    | nil => simpa using none
    | cons y ys =>
      rw [List.intercalate_cons_cons, List.count_append, List.count_append, none, ih rest]
      simp
      omega

end Joined

section Last
variable {s : String} {m n : Nat}

theorem map_toList_lines (s : String) : (lines s).map String.toList = linesOf s.toList := by
  simp [lines, Function.comp_def]

theorem free_of_mem_lines {line : String} (h : line ∈ lines s) : '\n' ∉ line.toList := by
  refine (ruled_linesOf s.toList).free line.toList ?_
  rw [← map_toList_lines]
  exact List.mem_map_of_mem h

/-- The last lines, as characters. -/
theorem toList_lastLines (n : Nat) (s : String) :
    (lastLines n s).toList =
      ['\n'].intercalate (((lines s).drop ((lines s).length - n)).map String.toList) :=
  String.toList_intercalate

/-- Fewer of the last lines are the end of more of them. -/
theorem lastLines_suffix (h : m ≤ n) (s : String) :
    (lastLines m s).toList <:+ (lastLines n s).toList := by
  have further : (lines s).drop ((lines s).length - m) =
      ((lines s).drop ((lines s).length - n)).drop (n - m - (n - (lines s).length)) := by
    rw [List.drop_drop]
    congr 1
    omega
  rw [toList_lastLines, toList_lastLines, further]
  generalize (lines s).drop ((lines s).length - n) = shown
  conv_rhs => rw [← List.take_append_drop (n - m - (n - (lines s).length)) shown, List.map_append]
  exact intercalate_suffix _ _ _

/-- The last lines hold one line feed less than there are of them. -/
theorem count_lastLines (n : Nat) (s : String) :
    (lastLines n s).toList.count '\n' = min n (lines s).length - 1 := by
  have free : ∀ line ∈ ((lines s).drop ((lines s).length - n)).map String.toList,
      '\n' ∉ line := by
    rintro _ hl
    obtain ⟨line, there, rfl⟩ := List.mem_map.mp hl
    exact free_of_mem_lines (List.mem_of_mem_drop there)
  rw [toList_lastLines, count_intercalate free, List.length_map, List.length_drop]
  omega

end Last
end Text

namespace Output

/-- **The end of a stream**, as far as it is shown, by the lines of the stream. -/
structure Shows (o : Output) (lines : List String) : Prop where
  /-- The last lines are shown, as many as are asked for and there are, with one line feed between
  neighbours. -/
  last (n : Nat) : ∃ earlier shown, lines = earlier ++ shown ∧ shown.length = min n lines.length ∧
    o.tail n = String.intercalate "\n" shown
  /-- What is shown of less is the end of what is shown of more. -/
  suffix (m n : Nat) : m ≤ n → (o.tail m).toList <:+ (o.tail n).toList
  bounded (n : Nat) : 0 < n → (o.tail n).toList.count '\n' < n
  nothing : o.tail 0 = ""
  /-- No more is shown than there is. -/
  everything (n : Nat) : lines.length ≤ n → o.tail n = o.tail lines.length

/-- Standard error tells if a character of it is not blank, and else standard output. -/
theorem telling_eq (o : Output) :
    o.telling = if o.stderr.toList.any (!Text.isBlankChar ·) then o.stderr else o.stdout := by
  have blank : Text.isBlank o.stderr = !o.stderr.toList.any (!Text.isBlankChar ·) :=
    List.all_eq_not_any_not
  unfold telling
  rw [blank]
  cases o.stderr.toList.any (!Text.isBlankChar ·) <;> rfl

/-- **A failure shows the end of the stream that tells about it**: of standard error if a character
of it is not blank, and else of standard output. -/
theorem tail_shows (o : Output) :
    let stream := if o.stderr.toList.any (!Text.isBlankChar ·) then o.stderr else o.stdout
    ∃ lines : List String,
      (∀ rows, Text.Ruled stream.toList rows ↔ rows = lines.map String.toList) ∧ Shows o lines := by
  rw [← telling_eq]
  refine ⟨Text.lines o.telling, fun rows => ?_, ?_⟩
  · rw [Text.map_toList_lines, Text.ruled_iff]
  generalize hl : Text.lines o.telling = lines
  have shown (n : Nat) : o.tail n = String.intercalate "\n" (lines.drop (lines.length - n)) := by
    rw [← hl]
    rfl
  refine ⟨fun n => ?_, fun m n h => Text.lastLines_suffix h _, fun n hn => ?_, ?_, fun n hn => ?_⟩
  · refine ⟨lines.take (lines.length - n), lines.drop (lines.length - n),
      (List.take_append_drop _ _).symm, ?_, shown n⟩
    rw [List.length_drop]
    omega
  · have count : (o.tail n).toList.count '\n' = min n lines.length - 1 :=
      hl ▸ Text.count_lastLines n o.telling
    omega
  · rw [shown, Nat.sub_zero, List.drop_length]
    rfl
  · rw [shown, shown, Nat.sub_eq_zero_of_le hn, Nat.sub_self]

end Output
end GatedRelease
