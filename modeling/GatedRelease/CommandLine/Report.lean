import GatedRelease.Json.Value
import GatedRelease.Run
import GatedRelease.Text.Lines

/-! The report of a run, for people and as JSON. When it ran and how long it took is in the report
and nowhere else. -/
namespace GatedRelease

/-- When a run took place. -/
structure Timing where
  /-- A name for the run. -/
  runId : String
  startedAt : String
  milliseconds : Nat
  /-- The milliseconds of the stage at a position. -/
  ofStage : Nat → Nat

namespace RunReport

/-- The sign for a state. -/
def mark : StageStatus → String
  | .succeeded => "✓"
  | .failed => "✗"
  | .running => "…"
  | .pending => "-"

/-- The lines on a stage. -/
def stageLines (t : Timing) (position : Nat) (s : StageReport) : List String :=
  s!"  {mark s.status} {s.name} ({s.status.text}, {t.ofStage position}ms)" ::
    match s.error with
    | some e => (Text.lines e.message).map fun line => "      " ++ line
    | none => []

/-- The line on what was published. -/
def publishedLine (p : Published) : String :=
  s!"Published {p.tag} at {p.commitSha} on {p.branch}" ++ (if p.resumed then " (resumed)" else "")

/-- The lines of the report. -/
def lines (t : Timing) (r : RunReport) : List String :=
  ["", s!"Run ID: {t.runId}", s!"Tag: {r.release.tag}",
    "Status: " ++ (if r.success then "✓ PASSED" else "✗ FAILED"),
    s!"Duration: {t.milliseconds}ms", ""] ++
  (r.stages.mapIdx (stageLines t)).flatten ++
  ["", s!"Summary: {r.count .succeeded}/{r.stages.length} stages passed"] ++
  match r.published with
  | some p => [publishedLine p]
  | none => []

/-- What is released, as JSON. -/
def releaseJson (r : Release) : Json.Value := .object [
  ("tag", .string r.tag), ("source_dir", .string r.sourceDir),
  ("source_sha", Json.Value.ofText? r.sourceSha), ("stages_digest", .string r.stagesDigest)]

/-- The report on a stage, as JSON. -/
def stageJson (t : Timing) (position : Nat) (s : StageReport) : Json.Value := .object [
  ("name", .string s.name), ("kind", .string s.kind.text), ("status", .string s.status.text),
  ("duration_ms", .number (t.ofStage position)),
  ("error_kind", Json.Value.ofText? (s.error.map ReleaseError.kind)),
  ("error", Json.Value.ofText? (s.error.map ReleaseError.message))]

/-- What was published, as JSON. -/
def publishedJson (p : Published) : Json.Value := .object [
  ("tag", .string p.tag), ("commit_sha", .string p.commitSha), ("branch", .string p.branch),
  ("resumed", .boolean p.resumed)]

/-- The report as JSON. -/
def json (t : Timing) (r : RunReport) : Json.Value := .object [
  ("run_id", .string t.runId),
  ("status", .string r.status.text),
  ("release", releaseJson r.release),
  ("stages", .array (r.stages.mapIdx (stageJson t))),
  ("failed_stage", Json.Value.ofText? r.failedStage),
  ("started_at", .string t.startedAt),
  ("duration_ms", .number t.milliseconds),
  ("published", match r.published with
    | some p => publishedJson p
    | none => .null)]

end RunReport
end GatedRelease
