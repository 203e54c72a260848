import GatedRelease.Gate
import GatedRelease.Json.Value

/-! Words of the library in JSON. A word is a string, or an object that maps the word to null. A
verdict is an object with the word and what belongs to it, or an array of the same. -/
namespace GatedRelease.Json

/-- The one of `all` that `text` writes out as a word. -/
def find? {α : Type} (all : List α) (text : α → String) (word : String) : Option α :=
  all.find? fun a => text a == word

/-- The one of `all` that a value names. -/
def word? {α : Type} (all : List α) (text : α → String) : Value → Option α
  | .string word => find? all text word
  | .object [(word, .null)] => find? all text word
  | _ => none

/-- All steps of publishing. -/
def publishSteps : List PublishStep := [.commit, .tag, .push]

/-- The verdict with a word, where `details` are those that go with it, if there are any. -/
def verdictOf? (word : String) (details : Option Value) : Option Verdict :=
  if word == "pass" then some .pass
  else if word == "fail" then
    match details with
    | some (.string s) => some (.fail s)
    | _ => none
  else none

/-- Reads a verdict. -/
def verdict? : Value → Option Verdict
  | .object fields =>
    match fields.lookup "verdict" with
    | some (.string word) => verdictOf? word (fields.lookup "details")
    | _ => none
  | .array [.string word] => verdictOf? word none
  | .array [.string "fail", .string details] => some (.fail details)
  | _ => none

/-- Writes a verdict. -/
def ofVerdict : Verdict → Value
  | .pass => .object [("verdict", .string "pass")]
  | .fail details => .object [("verdict", .string "fail"), ("details", .string details)]

end GatedRelease.Json
