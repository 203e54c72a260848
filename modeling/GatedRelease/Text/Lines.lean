/-! The lines of a text and its last few lines. A line ends with a line feed, or with a carriage
return and a line feed; what follows the last line end is a line only if it is not empty. -/
namespace GatedRelease.Text

/-- The lines of a text, without their ends. -/
def linesOf : List Char → List (List Char)
  | [] => []
  | '\n' :: rest => [] :: linesOf rest
  | '\r' :: '\n' :: rest => [] :: linesOf rest
  | c :: rest =>
    match linesOf rest with
    | [] => [[c]]
    | line :: later => (c :: line) :: later

/-- The lines of a text, without their ends. -/
def lines (s : String) : List String := (linesOf s.toList).map String.ofList

/-- The last `count` lines, with one line feed between neighbours. -/
def lastLines (count : Nat) (s : String) : String :=
  let all := lines s
  String.intercalate "\n" (all.drop (all.length - count))

end GatedRelease.Text
