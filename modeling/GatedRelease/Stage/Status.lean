/-! The kinds of stages and the states that a stage and a run go through. A stage moves forward
only: `canMoveTo` allows exactly four moves. -/
namespace GatedRelease

/-- What a stage is for. -/
inductive StageKind
  | build
  | stage
  | testGate
  | publish
deriving DecidableEq

namespace StageKind

/-- All kinds, in the order of a release. -/
def all : List StageKind := [build, stage, testGate, publish]

/-- The word for a kind. -/
def text : StageKind → String
  | build => "build"
  | stage => "stage"
  | testGate => "test_gate"
  | publish => "publish"

/-- The word for a kind in listings for developers. -/
def title : StageKind → String
  | build => "Build"
  | stage => "Stage"
  | testGate => "TestGate"
  | publish => "Publish"

end StageKind

/-- How far a stage has come. -/
inductive StageStatus
  | pending
  | running
  | succeeded
  | failed
deriving DecidableEq

namespace StageStatus

/-- All states. -/
def all : List StageStatus := [pending, running, succeeded, failed]

/-- The word for a state. -/
def text : StageStatus → String
  | pending => "pending"
  | running => "running"
  | succeeded => "succeeded"
  | failed => "failed"

/-- The word for a state in listings for developers. -/
def title : StageStatus → String
  | pending => "Pending"
  | running => "Running"
  | succeeded => "Succeeded"
  | failed => "Failed"

/-- No move leads on from here. -/
def isTerminal : StageStatus → Bool
  | succeeded | failed => true
  | pending | running => false

/-- A stage starts or fails at once, and a started one succeeds or fails. -/
def canMoveTo : StageStatus → StageStatus → Bool
  | pending, running | pending, failed | running, succeeded | running, failed => true
  | _, _ => false

end StageStatus

/-- How far a run has come. -/
inductive RunStatus
  | pending
  | running
  | succeeded
  | failed
deriving DecidableEq

/-- All states of a run. -/
def RunStatus.all : List RunStatus := [pending, running, succeeded, failed]

/-- The word for the state of a run. -/
def RunStatus.text : RunStatus → String
  | pending => "pending"
  | running => "running"
  | succeeded => "succeeded"
  | failed => "failed"

end GatedRelease
