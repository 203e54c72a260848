import GatedRelease.Toml.Statement

/-! A configuration file as one table: its statements are carried out in order, each header opening
the table that the keys after it belong to. -/
namespace GatedRelease.Toml.Document

/-- The table so far, and the path of the open table. -/
structure State where
  table : Node
  current : List String

/-- Carries out one statement. -/
def State.step (s : State) : Statement → Except SyntaxError State
  | .header path => do
    let t ← s.table.apply (Node.change .implied (Node.openTable (path.getLastD "")) path.dropLast)
    return ⟨t, path⟩
  | .arrayHeader path => do
    let t ← s.table.apply
      (Node.change .implied (Node.openArrayTable (path.getLastD "")) path.dropLast)
    return ⟨t, path⟩
  | .keyValue path key v => do
    let inner := Node.change .dotted (Node.put path key (.value v)) path
    let t ← s.table.apply (Node.change .implied inner s.current)
    return { s with table := t }

/-- The table that statements make. -/
def ofStatements (statements : List Statement) : Except SyntaxError Value := do
  let s ← statements.foldlM State.step ⟨Node.root, []⟩
  return s.table.toValue

/-- The table that a text describes. -/
def parse (text : String) : Except SyntaxError Value := do
  ofStatements (← Statement.ofText text.toList)

end GatedRelease.Toml.Document
