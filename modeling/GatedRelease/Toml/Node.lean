import GatedRelease.Toml.Value

/-! Tables while they are being put together. A table that only stands on the way to another may
still get a header of its own; one that was made by a dotted key may get more dotted keys, and no
header; an array of tables grows by its header. Everything else is defined once. -/
namespace GatedRelease.Toml

/-- How a table came about. -/
inductive Origin
  /-- By a header or as a whole. -/
  | explicit
  /-- On the way of a header. -/
  | implied
  /-- On the way of a dotted key. -/
  | dotted
deriving DecidableEq

/-- A value, a table in the making, or an array of tables in the making, the last one open. -/
inductive Node
  | value (v : Value)
  | table (origin : Origin) (fields : List (String × Node))
  | tables (done : List Value) (last : List (String × Node))

namespace Node

/-- The table that a text starts with. -/
def root : Node := .table .explicit []

/-- The node at a key. -/
def find? (fields : List (String × Node)) (key : String) : Option Node := fields.lookup key

/-- The fields with a node at a key: in place, or at the end. -/
def replace (fields : List (String × Node)) (key : String) (node : Node) :
    List (String × Node) :=
  match fields with
  | [] => [(key, node)]
  | (k, n) :: rest => if k == key then (k, node) :: rest else (k, n) :: replace rest key node

mutual

/-- The finished value. -/
def toValue : Node → Value
  | .value v => v
  | .table _ fields => .table (valuesOf fields)
  | .tables done last => .array (done ++ [.table (valuesOf last)])

/-- The finished fields. -/
def valuesOf : List (String × Node) → List (String × Value)
  | [] => []
  | (k, n) :: rest => (k, n.toValue) :: valuesOf rest

end

/-- What is done to a table: its origin and fields become others. -/
abbrev Change := Origin → List (String × Node) → Except SyntaxError (Origin × List (String × Node))

/-- Goes down a path and changes the table there. Tables that are missing come about as `fresh`.
With `fresh` dotted, no table that was made by a header is entered. -/
def change (fresh : Origin) (f : Change) : List String → Change
  | [], origin, fields => f origin fields
  | key :: path, origin, fields => do
    match find? fields key with
    | none =>
      let (o, fs) ← change fresh f path fresh []
      return (origin, replace fields key (.table o fs))
    | some (.value _) => throw (.notATable key)
    | some (.table o fs) =>
      if fresh = .dotted ∧ o = .explicit then throw (.duplicateKey key)
      let (o, fs) ← change fresh f path o fs
      return (origin, replace fields key (.table o fs))
    | some (.tables done last) =>
      let (_, fs) ← change fresh f path .explicit last
      return (origin, replace fields key (.tables done fs))

/-- Gives a node to a key. A key on a path has to stand in a table of dotted keys, and one without
a path in one of another origin. -/
def put (path : List String) (key : String) (node : Node) : Change := fun origin fields =>
  if decide (origin = .dotted) == path.isEmpty then .error (.duplicateKey key)
  else if (find? fields key).isSome then .error (.duplicateKey key)
  else .ok (origin, replace fields key node)

/-- Opens the table at a key. -/
def openTable (key : String) : Change := fun origin fields =>
  match find? fields key with
  | none => .ok (origin, replace fields key (.table .explicit []))
  | some (.table .implied fs) => .ok (origin, replace fields key (.table .explicit fs))
  | some _ => .error (.duplicateKey key)

/-- Opens one more table of the array at a key. -/
def openArrayTable (key : String) : Change := fun origin fields =>
  match find? fields key with
  | none => .ok (origin, replace fields key (.tables [] []))
  | some (.tables done last) =>
    .ok (origin, replace fields key (.tables (done ++ [.table (valuesOf last)]) []))
  | some _ => .error (.duplicateKey key)

/-- Applies a change to a table. -/
def apply (f : Change) : Node → Except SyntaxError Node
  | .table origin fields => do
    let (o, fs) ← f origin fields
    return .table o fs
  | node => return node

/-- Gives a node to a dotted key of the table. -/
def assign (t : Node) (path : List String) (key : String) (node : Node) :
    Except SyntaxError Node :=
  t.apply (change .dotted (put path key node) path)

end Node
end GatedRelease.Toml
