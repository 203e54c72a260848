import GatedRelease.Script.Basic
import GatedRelease.Text.Quoted

/-! Stages: a name, what must have succeeded before, a state, and an action. `linear` chains a list
of stages by making each depend on the one before it. -/
namespace GatedRelease

/-- The work of a stage. -/
structure Action where
  /-- What the action is going to do, for people. -/
  describe : String
  /-- Does the work. The context may change even if the work fails. -/
  execute : Context → Script (Except ReleaseError Unit × Context)

/-- One step of a release. -/
structure Stage where
  name : String
  kind : StageKind
  /-- The names of stages that must have succeeded. -/
  dependsOn : List String
  status : StageStatus
  action : Action

namespace Stage

/-- A stage that depends on nothing and has not started. -/
def new (name : String) (kind : StageKind) (action : Action) : Stage :=
  ⟨name, kind, [], .pending, action⟩

/-- The stage with one more dependency. -/
def after (s : Stage) (dependency : String) : Stage :=
  { s with dependsOn := s.dependsOn ++ [dependency] }

/-- What the stage is going to do. -/
def describe (s : Stage) : String := s.action.describe

/-- The stage moved to another state, and whether it may move there; if not, it stays. -/
def transition (s : Stage) (next : StageStatus) : Bool × Stage :=
  if s.status.canMoveTo next then (true, { s with status := next }) else (false, s)

/-- The stage for developers. -/
def inspect (s : Stage) : String :=
  "Stage \x7b name: " ++ Text.quote s.name ++ ", kind: " ++ s.kind.title ++ ", depends_on: " ++
    Text.quoteList s.dependsOn ++ ", status: " ++ s.status.title ++ " \x7d"

/-- The stage, depending on the one before it. -/
def chained (previous : Option String) (s : Stage) : Stage :=
  match previous with
  | some name => if name ∈ s.dependsOn then s else s.after name
  | none => s

/-- The stages, the first after `previous` and each after the one before it. -/
def linearAfter (previous : Option String) : List Stage → List Stage
  | [] => []
  | s :: later => s.chained previous :: linearAfter (some s.name) later

/-- The stages in a chain. -/
def linear (stages : List Stage) : List Stage := linearAfter none stages

end Stage
end GatedRelease
