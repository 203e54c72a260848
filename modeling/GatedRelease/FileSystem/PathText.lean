/-! Paths as they are written. Nothing here looks at files: joining, taking the parent and the last
name are operations on text, in which repeated slashes and single dots count for nothing except a
dot at the very start. -/
namespace GatedRelease.PathText

/-- The pieces between slashes; there is always at least one. -/
def splitSlashes : List Char → List (List Char)
  | [] => [[]]
  | c :: rest =>
    if c = '/' then [] :: splitSlashes rest
    else match splitSlashes rest with
      | [] => [[c]]
      | piece :: more => (c :: piece) :: more

/-- The pieces of a path between slashes. -/
def pieces (p : String) : List String := (splitSlashes p.toList).map String.ofList

/-- The path starts at the root. -/
def isAbsolute (p : String) : Bool := p.toList.head? == some '/'

/-- The path ends in a slash. -/
def endsInSlash (p : String) : Bool := p.toList.getLast? == some '/'

/-- The path `q` as seen from `p`. An absolute `q` stands for itself. -/
def join (p q : String) : String :=
  if isAbsolute q then q
  else if p == "" || endsInSlash p then p ++ q
  else p ++ "/" ++ q

/-- A step of a path. -/
inductive Component
  | root
  | current
  | parent
  | name (text : String)
deriving DecidableEq

/-- What a piece after the first stands for, if for anything. -/
def Component.ofPiece? (piece : String) : Option Component :=
  if piece == "" || piece == "." then none
  else if piece == ".." then some .parent
  else some (.name piece)

/-- The steps of a path. A dot counts only as the first piece. -/
def components (p : String) : List Component :=
  match pieces p with
  | [] => []
  | first :: rest =>
    if isAbsolute p then .root :: rest.filterMap Component.ofPiece?
    else if first == "." then .current :: rest.filterMap Component.ofPiece?
    else (first :: rest).filterMap Component.ofPiece?

/-- The pieces without the empty ones and dots at the end. The first piece stays. -/
def dropIdle : List String → List String
  | [] => []
  | first :: rest =>
    first :: (rest.reverse.dropWhile fun piece => piece == "" || piece == ".").reverse

/-- Pieces as a path; the single empty piece that is left of a path from the root is the root. -/
def ofPieces (absolute : Bool) (ps : List String) : String :=
  if absolute && ps.length ≤ 1 then "/" else String.intercalate "/" ps

/-- The path without its last step, unless it has none. -/
def parent? (p : String) : Option String :=
  match dropIdle (pieces p) with
  | [] => none
  | [only] => if only == "" then none else some ""
  | ps => some (ofPieces (isAbsolute p) (dropIdle ps.dropLast))

/-- The last step, if it is a name. -/
def fileName? (p : String) : Option String :=
  match (dropIdle (pieces p)).getLast? with
  | some last => if last == "" || last == "." || last == ".." then none else some last
  | none => none

theorem length_dropIdle_le (ps : List String) : (dropIdle ps).length ≤ ps.length := by
  cases ps with
  | nil => simp [dropIdle]
  | cons first rest =>
    have := (List.dropWhile_sublist (l := rest.reverse)
      (p := fun piece => piece == "" || piece == ".")).length_le
    simpa [dropIdle] using this

/-- The path and all that remains as its last steps are taken away, the longest first. -/
def ancestorsOf (absolute : Bool) (ps : List String) : List String :=
  match _h : dropIdle ps with
  | [] => []
  | [only] => if only == "" then [] else [""]
  | first :: second :: rest =>
    let shorter := dropIdle (first :: second :: rest).dropLast
    ofPieces absolute shorter :: ancestorsOf absolute shorter
termination_by ps.length
decreasing_by
  have h₁ := length_dropIdle_le ps
  have h₂ := length_dropIdle_le (first :: second :: rest).dropLast
  rw [_h] at h₁
  simp only [List.length_dropLast, List.length_cons] at *
  omega

/-- The paths above a path, the nearest first. -/
def ancestors (p : String) : List String := ancestorsOf (isAbsolute p) (pieces p)

end GatedRelease.PathText
