import GatedRelease.CommandLine.Arguments
import GatedRelease.CommandLine.Report
import GatedRelease.Config.Load
import GatedRelease.Config.Validate
import GatedRelease.Plan

/-! The program: it carries out a release, publishes what an earlier one left, or lists the stages
of one. It ends with code 0 if that succeeded, with 1 after a complaint, and with 2 if the
arguments make no sense. -/
namespace GatedRelease.CommandLine

/-- What the program complains about. -/
inductive Complaint
  | noTag
  | unloadable (path : String) (failure : LoadFailure)
  | invalid (defect : ConfigDefect)
  /-- A stage failed, for a reason if one is reported. -/
  | stageFailed (tag stage : String) (error : Option ReleaseError)
  | notPublished (tag : String) (failure : PublishFailure)

namespace Complaint

/-- An error in words, and what is under it. -/
def reasons (e : ReleaseError) : List String := e.message :: e.inner?.toList

/-- The complaint in words. -/
def summary : Complaint → String
  | noTag => s!"A release tag is required (--tag or {tagVariable})"
  | unloadable path _ => s!"Failed to load configuration from {path}"
  | invalid _ => "Invalid release configuration"
  | stageFailed tag stage (some error) =>
    s!"Release {tag} failed at stage '{stage}': {error.message}"
  | stageFailed tag stage none => s!"Release {tag} failed at stage '{stage}'"
  | notPublished tag _ => s!"Release {tag} could not be published"

/-- The reasons that are listed, each under the one before it. -/
def causes : Complaint → List String
  | noTag | stageFailed .. => []
  | unloadable _ failure => reasons failure.toError
  | invalid defect => reasons defect.toError
  | notPublished _ failure => reasons failure.toError

/-- A text with a margin before every line but the first. -/
def hang (margin text : String) : String :=
  String.ofList (text.toList.flatMap fun c => if c = '\n' then c :: margin.toList else [c])

/-- The reasons, numbered from `n`. -/
def numbered (n : Nat) : List String → List String
  | [] => []
  | cause :: rest => (s!"    {n}: " ++ hang "       " cause) :: numbered (n + 1) rest

/-- The lines that list reasons. A single one has no number. -/
def causeLines : List String → List String
  | [] => []
  | [cause] => ["", "Caused by:", "    " ++ hang "    " cause]
  | all => "" :: "Caused by:" :: numbered 0 all

/-- The lines of the complaint. -/
def lines (c : Complaint) : List String := s!"Error: {c.summary}" :: causeLines c.causes

end Complaint

/-- What a task prints, and what it complains about. -/
structure Performed where
  lines : List String
  complaint : Option Complaint

/-- A task that only complains. -/
def Performed.failed (c : Complaint) : Performed := ⟨[], some c⟩

/-- Reads the configuration, with what stands in for its settings, and insists that it is whole. -/
def configured (path : String) (o : Overrides) : Attempt Complaint Config := do
  let c ← ExceptT.mk (Script.inspect fun fs => (Config.load fs path).mapError (.unloadable path))
  let c := o.apply c
  Attempt.ofExcept (c.validate.mapError .invalid)
  return c

/-- Insists on a tag. -/
def tagGiven (tag : String) : Except Complaint Unit :=
  if Text.isBlank tag then .error .noTag else .ok ()

/-- What to complain about after a run: the stage that it failed at. -/
def complaintAfter (tag : String) (r : RunReport) : Option Complaint :=
  r.failedStage.map fun stage => .stageFailed tag stage r.error

/-- Carries out a release. -/
def release (t : Timing) (path : String) (o : Overrides) (tag : String) (asJson : Bool) :
    Attempt Complaint Performed := do
  Attempt.ofExcept (tagGiven tag)
  let c ← configured path o
  let r ← ExceptT.lift (Plan.carryOut c tag (Plan.provider c))
  let lines := if asJson then [(r.json t).pretty] else r.lines t
  return ⟨lines, complaintAfter tag r⟩

/-- Publishes what an earlier release left. -/
def publish (path : String) (o : Overrides) (tag : String) : Attempt Complaint Performed := do
  Attempt.ofExcept (tagGiven tag)
  let c ← configured path o
  let p ← ((Plan.publisher c (Plan.provider c)).resume tag).orElseSay (.notPublished tag)
  return ⟨[s!"Published {p.tag} at {p.commitSha} on {p.branch} (resumed)"], none⟩

/-- The lines on the stage at a position. -/
def planLines (position : Nat) (s : Stage) : List String :=
  [s!"  {position + 1}. {s.name}", s!"     {s.describe}"]

/-- Lists what a release would do. -/
def plan (path : String) (o : Overrides) : Attempt Complaint Performed := do
  let c ← configured path o
  let stages := Plan.stages c (Plan.provider c)
  let target := [s!"Target: {c.target.remoteUrl} ({c.target.branch})",
    s!"Checkout: {c.target.checkoutDir}", s!"Artifact: {c.target.artifactPath}", ""]
  return ⟨target ++ (stages.mapIdx planLines).flatten, none⟩

/-- Does what is asked for. -/
def Invocation.attempt (t : Timing) (i : Invocation) : Attempt Complaint Performed :=
  match i.task with
  | .run tag asJson => release t i.config i.overrides tag asJson
  | .publish tag => publish i.config i.overrides tag
  | .plan => plan i.config i.overrides

/-- Does what is asked for, a failure being a complaint. -/
def Invocation.perform (t : Timing) (i : Invocation) : Script Performed := do
  match ← (i.attempt t).run with
  | .ok p => return p
  | .error c => return .failed c

/-- How the program ends. -/
structure Ended where
  code : Nat
  stdout : String
  stderr : String
deriving DecidableEq

/-- Lines, each with a line feed at its end. -/
def text (lines : List String) : String := String.join (lines.map (· ++ "\n"))

/-- How the program ends after a task. -/
def Performed.ended (p : Performed) : Ended where
  code := if p.complaint.isSome then 1 else 0
  stdout := text p.lines
  stderr := match p.complaint with
    | some c => text c.lines
    | none => ""

/-- The line that names the version. -/
def versionLine : String := "bindship 0.3.1"

/-- How to call the program. -/
def usage : List String := [
  "Usage: bindship [OPTIONS] <COMMAND>", "",
  "Commands:",
  "  run      Build, stage, test and publish a release",
  "  publish  Push the local release commit and tag left by a failed push",
  "  plan     Show the stages a run would execute", "",
  "Options:",
  "  -v, --verbose                      Enable verbose output",
  "      --json                         Emit JSON-formatted log lines",
  "  -c, --config <CONFIG>              Path to the release configuration",
  "  -t, --tag <TAG>                    Version tag (run, publish)",
  "      --json-report                  Print the run report as JSON on stdout (run)",
  "      --remote-url <REMOTE_URL>      Remote URL of the package repository",
  "      --checkout-dir <CHECKOUT_DIR>  Local checkout directory of the package repository",
  "      --branch <BRANCH>              Branch to publish to",
  "  -h, --help                         Print help",
  "  -V, --version                      Print version"]

/-- How the program ends without a task. -/
def Stop.ended : Stop → Ended
  | refused => ⟨2, "", text usage⟩
  | help => ⟨0, text usage, ""⟩
  | version => ⟨0, text [versionLine], ""⟩

/-- The program, with its arguments. -/
def program (t : Timing) (arguments : List String) : Script Ended := do
  match Invocation.parse (← Script.readVariable tagVariable) arguments with
  | .error stop => return stop.ended
  | .ok i => return (← i.perform t).ended

end GatedRelease.CommandLine
