/-! Values of a configuration file: a tree of scalars, arrays and tables. A table is a list of keys
with their values; looking up a key is all that readers of the tree do with it. -/
namespace GatedRelease.Toml

/-- A value. Floats and date-times are kept as they are written. -/
inductive Value
  | string (text : String)
  | integer (n : Int)
  | boolean (b : Bool)
  | float (text : String)
  | dateTime (text : String)
  | array (items : List Value)
  | table (fields : List (String × Value))

/-- Why a text is not a configuration file. -/
inductive SyntaxError
  | expected (what : String)
  | unknownEscape
  | badNumber
  | outOfRange
  | tooDeep
  | duplicateKey (key : String)
  | notATable (key : String)

/-- The error in words. -/
def SyntaxError.message : SyntaxError → String
  | expected what => s!"expected {what}"
  | unknownEscape => "unknown escape in a string"
  | badNumber => "malformed number"
  | outOfRange => "number out of range"
  | tooDeep => "nested too deeply"
  | duplicateKey key => s!"key '{key}' is defined twice"
  | notATable key => s!"key '{key}' is not a table"

end GatedRelease.Toml
