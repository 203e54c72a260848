/-! Blank characters and the text between them. A name, a tag, a credential or a stream counts as
missing when it is blank. `trim_eq_nil_iff` says that trimming leaves nothing exactly then. -/
namespace GatedRelease.Text

/-- The 25 characters with the Unicode property White_Space. -/
def isBlankChar (c : Char) : Bool :=
  let n := c.toNat
  (9 ≤ n && n ≤ 13) || n == 0x20 || n == 0x85 || n == 0xA0 || n == 0x1680 ||
    (0x2000 ≤ n && n ≤ 0x200A) || n == 0x2028 || n == 0x2029 || n == 0x202F ||
    n == 0x205F || n == 0x3000

/-- Every character of the text is blank. -/
def isBlank (s : String) : Bool := s.toList.all isBlankChar

/-- The characters without the blank ones at either end. -/
def trimChars (cs : List Char) : List Char :=
  ((cs.dropWhile isBlankChar).reverse.dropWhile isBlankChar).reverse

/-- The text without the blank characters at either end. -/
def trim (s : String) : String := String.ofList (trimChars s.toList)

theorem dropWhile_eq_nil_iff (cs : List Char) :
    cs.dropWhile isBlankChar = [] ↔ cs.all isBlankChar = true := by
  induction cs with
  | nil => simp
  | cons c cs ih => by_cases h : isBlankChar c <;> simp_all

theorem trimChars_eq_nil_iff (cs : List Char) :
    trimChars cs = [] ↔ cs.all isBlankChar = true := by
  unfold trimChars
  rw [List.reverse_eq_nil_iff, dropWhile_eq_nil_iff, ← dropWhile_eq_nil_iff cs]
  constructor
  · intro h
    cases hd : cs.dropWhile isBlankChar with
    | nil => rfl
    | cons c rest =>
      have hc : isBlankChar c = false := by
        have := List.head_dropWhile_not isBlankChar (l := cs) (by simp [hd])
        simpa [hd] using this
      rw [hd] at h
      simp [hc] at h
  · intro h
    simp [h]

/-- A text trims to nothing exactly when it is blank. -/
theorem trim_eq_nil_iff (s : String) : trim s = "" ↔ isBlank s = true := by
  have : trim s = "" ↔ trimChars s.toList = [] := by
    rw [← String.toList_inj]; simp [trim]
  rw [this, trimChars_eq_nil_iff, isBlank]

end GatedRelease.Text
