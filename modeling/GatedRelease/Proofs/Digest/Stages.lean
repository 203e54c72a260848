import GatedRelease.Proofs.Digest.Records
import GatedRelease.Proofs.Plan.Order
import GatedRelease.Proofs.Text.Cutting

/-! # What the digest of the stages tells

The names of the stages are put into bytes one after the other, each with a NUL after it.  No name
that is built in holds one, but the name of a suite may: a configuration is accepted with it.  Then
one suite can be named so that its gate reads like two, its name being those of the two with what
stands between two gates (`Release.seam`) put between them.

That is all there is to it.  The bytes tell the names of the suites cut at the seams, in order, and
nothing more (`Plan.stagesEncoding_eq_iff_pieces`): they are the same for two configurations if and
only if the suites' names come in the same pieces.  So they tell the stages if no suite has the seam
in its name, and they cannot where there is more than one suite (`Plan.stagesEncoding_tells`).
-/
namespace GatedRelease

namespace Release
variable {names other : List String}

/-! ## Bytes and characters -/

/-- The names one after the other, each with a NUL after it. -/
def row (names : List String) : List Char := names.flatMap fun n => n.toList ++ [Char.ofNat 0]

theorem stagesEncoding_eq (names : List String) :
    stagesEncoding names = Text.utf8 (String.ofList (row names)) := by
  rw [Text.utf8_eq_flatMap, String.toList_ofList]
  induction names with
  | nil => rfl
  | cons n names ih =>
    have nul : [(0 : UInt8)] = String.utf8EncodeChar (Char.ofNat 0) := by decide
    have next : stagesEncoding (n :: names) = Text.utf8 n ++ [0] ++ stagesEncoding names := rfl
    have row_next : row (n :: names) = n.toList ++ [Char.ofNat 0] ++ row names := rfl
    rw [next, row_next, ih, Text.utf8_eq_flatMap, nul, List.flatMap_append, List.flatMap_append,
      List.flatMap_singleton]

theorem stagesEncoding_eq_iff_row :
    stagesEncoding names = stagesEncoding other ↔ row names = row other := by
  rw [stagesEncoding_eq, stagesEncoding_eq]
  exact ⟨fun h => String.ofList_injective (Text.utf8_injective h),
    fun h => congrArg (fun cs => Text.utf8 (String.ofList cs)) h⟩

theorem row_append (names other : List String) : row (names ++ other) = row names ++ row other :=
  List.flatMap_append

/-! ## Gates in a row -/

/-- What stands between the names of two suites. -/
def seam : List Char := ')' :: Char.ofNat 0 :: "test_gate(".toList

theorem seam_eq : seam = ')' :: seam.tail := rfl

/-- The pieces of a suite's name between the seams in it. -/
def pieces (name : String) : List (List Char) := Text.cut ')' seam.tail name.toList

theorem pieces_of_seamless {name : String} (h : ¬ seam <:+: name.toList) :
    pieces name = [name.toList] := Text.cut_of_not_infix h

/-- Gates of these suites, in a row. -/
def gates (suites : List (List Char)) : List Char :=
  suites.flatMap fun s => "test_gate(".toList ++ s ++ [')', Char.ofNat 0]

theorem row_gates (suites : List String) :
    row (suites.map Plan.gateName) = gates (suites.map String.toList) := by
  rw [row, gates, List.flatMap_map, List.flatMap_map]
  refine List.flatMap_congr fun s _ => ?_
  rw [Plan.toList_gateName, List.append_assoc]
  rfl

/-- Gates in a row are their suites joined by the seam. -/
theorem gates_eq_intercalate {suites : List (List Char)} (h : suites ≠ []) :
    gates suites = "test_gate(".toList ++ seam.intercalate suites ++ [')', Char.ofNat 0] := by
  induction suites with
  | nil => exact absurd rfl h
  | cons s suites ih =>
    have next : gates (s :: suites) =
      "test_gate(".toList ++ s ++ [')', Char.ofNat 0] ++ gates suites := rfl
    cases suites with
    | nil => simp [gates]
    | cons s' suites =>
      rw [next, ih (List.cons_ne_nil s' suites), List.intercalate_cons_cons]
      simp [seam]

/-- One suite makes the same gates as the pieces of its name. -/
theorem gates_pieces (suites : List String) :
    gates (suites.flatMap pieces) = gates (suites.map String.toList) := by
  rw [gates, gates, List.flatMap_assoc, List.flatMap_map]
  refine List.flatMap_congr fun name _ => ?_
  have uncut := gates_eq_intercalate (Text.cut_ne_nil ')' seam.tail name.toList)
  rwa [seam_eq, List.tail_cons, Text.intercalate_cut] at uncut

/-- Where the suites are joined by the seam, they are cut into the pieces of their names. -/
theorem cut_join {suites : List String} (h : suites ≠ []) :
    Text.cut ')' seam.tail (seam.intercalate (suites.map String.toList)) =
      suites.flatMap pieces := by
  have fresh : ')' ∉ seam.tail := by decide
  rw [seam_eq, List.tail_cons, Text.cut_intercalate fresh (mt List.map_eq_nil_iff.mp h),
    List.flatMap_map]
  rfl

/-- **Gates in a row tell the pieces of their suites' names**, in order, and nothing more. -/
theorem row_gates_eq_iff {suites others : List String} :
    row (suites.map Plan.gateName) = row (others.map Plan.gateName) ↔
      suites.flatMap pieces = others.flatMap pieces := by
  rw [row_gates, row_gates]
  constructor
  · intro h
    cases suites with
    | nil =>
      cases others with
      | nil => rfl
      | cons other others => exact absurd h (by simp [gates])
    | cons suite suites =>
      cases others with
      | nil => exact absurd h (by simp [gates])
      | cons other others =>
        have left : suite :: suites ≠ [] := List.cons_ne_nil suite suites
        have right : other :: others ≠ [] := List.cons_ne_nil other others
        rw [gates_eq_intercalate (mt List.map_eq_nil_iff.mp left),
          gates_eq_intercalate (mt List.map_eq_nil_iff.mp right)] at h
        have joined := List.append_cancel_left (List.append_cancel_right h)
        rw [← cut_join left, ← cut_join right, joined]
  · intro h
    rw [← gates_pieces, ← gates_pieces, h]

end Release

namespace Plan
variable {c d : Config} {p q : CredentialProvider}

theorem row_stageNames (c : Config) (p : CredentialProvider) :
    Release.row (stageNames (stages c p)) =
      Release.row [StageKind.build.text, StageKind.stage.text] ++
        Release.row ((c.suites.map (·.name)).map gateName) ++
        Release.row [StageKind.publish.text] := by
  rw [← Release.row_append, ← Release.row_append, stageNames_eq, List.map_map]
  rfl

/-- **The bytes of the stages tell the suites' names in pieces.** -/
theorem stagesEncoding_eq_iff_pieces (c d : Config) (p q : CredentialProvider) :
    Release.stagesEncoding (stageNames (stages c p)) =
        Release.stagesEncoding (stageNames (stages d q)) ↔
      (c.suites.map (·.name)).flatMap Release.pieces =
        (d.suites.map (·.name)).flatMap Release.pieces := by
  rw [Release.stagesEncoding_eq_iff_row, row_stageNames, row_stageNames, List.append_left_inj,
    List.append_right_inj]
  exact Release.row_gates_eq_iff

theorem stageNames_eq_iff (c d : Config) (p q : CredentialProvider) :
    stageNames (stages c p) = stageNames (stages d q) ↔
      c.suites.map (·.name) = d.suites.map (·.name) := by
  have gates (c : Config) : c.suites.map (fun s => gateName s.name) =
      (c.suites.map (·.name)).map gateName := by
    rw [List.map_map]
    rfl
  rw [stageNames_eq, stageNames_eq, gates, gates, List.append_left_inj, List.cons_inj_right,
    List.cons_inj_right]
  exact List.map_inj_right fun _ _ h => gateName_injective h

end Plan

/-! ## Suites that read like others -/

namespace Config
variable {c : Config}

/-- The suites put into one, the first of them under the names of all with the seam between two. -/
def folded (c : Config) : Config :=
  { c with suites := (c.suites.take 1).map fun s =>
      { s with name := String.ofList (Release.seam.intercalate (c.suites.map (·.name.toList))) } }

theorem pieces_folded (h : c.suites ≠ []) : (c.folded.suites.map (·.name)).flatMap Release.pieces =
    (c.suites.map (·.name)).flatMap Release.pieces := by
  obtain ⟨s, rest, hs⟩ := List.exists_cons_of_ne_nil h
  have one : c.folded.suites.map (·.name) =
      [String.ofList (Release.seam.intercalate ((c.suites.map (·.name)).map String.toList))] := by
    rw [List.map_map, folded, hs]
    rfl
  rw [one, List.flatMap_singleton, Release.pieces, String.toList_ofList,
    Release.cut_join (mt List.map_eq_nil_iff.mp h)]

/-- A configuration is accepted with its suites put into one. -/
theorem validate_folded (accepted : c.validate = .ok ()) : c.folded.validate = .ok () := by
  obtain ⟨complete, -⟩ := validate_eq_ok_iff_complete.mp accepted
  obtain ⟨s, rest, hs⟩ := List.exists_cons_of_ne_nil complete.gated
  have first := complete.suites s (hs ▸ List.mem_cons_self)
  have one : c.folded.suites = [{ s with
      name := String.ofList (Release.seam.intercalate (c.suites.map (·.name.toList))) }] := by
    rw [folded, hs]
    rfl
  refine validate_eq_ok_iff_complete.mpr ⟨{ complete with gated := ?_, suites := ?_ }, ?_⟩
  · rw [one]
    exact List.cons_ne_nil _ _
  · rw [one, List.forall_mem_singleton]
    refine ⟨?_, first.command⟩
    have spoken : s.name.toList.all Text.isBlankChar = false := first.name
    rw [Text.isBlank, String.toList_ofList, hs]
    cases rest with
    | nil => simpa using spoken
    | cons s' rest =>
      rw [List.map_cons, List.map_cons, List.intercalate_cons_cons, List.all_append,
        List.all_append, spoken]
      rfl
  · rw [one]
    exact List.nodup_singleton _

end Config

/-- **What the bytes of the stages tell.**  They are the same for two configurations if and only if
the names of the suites are in the same pieces; so as long as the seam is in none of the names, if
and only if the stages have the same names.  Otherwise they tell too little: whatever is accepted
with several suites has the bytes of something else that is accepted, with a single gate. -/
theorem Plan.stagesEncoding_tells (c d : Config) (p q : CredentialProvider) :
    (Release.stagesEncoding (stageNames (stages c p)) =
        Release.stagesEncoding (stageNames (stages d q)) ↔
      (c.suites.map (·.name)).flatMap Release.pieces =
        (d.suites.map (·.name)).flatMap Release.pieces) ∧
    ((∀ s ∈ c.suites ++ d.suites, ¬ Release.seam <:+: s.name.toList) →
      (Release.stagesEncoding (stageNames (stages c p)) =
          Release.stagesEncoding (stageNames (stages d q)) ↔
        stageNames (stages c p) = stageNames (stages d q))) ∧
    (c.validate = .ok () → 1 < c.suites.length →
      c.folded.validate = .ok () ∧
      Release.stagesEncoding (stageNames (stages c.folded p)) =
        Release.stagesEncoding (stageNames (stages c p)) ∧
      stageNames (stages c.folded p) ≠ stageNames (stages c p)) := by
  refine ⟨stagesEncoding_eq_iff_pieces c d p q, fun seamless => ?_, fun accepted several => ?_⟩
  · have whole {suites : List Suite} (h : ∀ s ∈ suites, ¬ Release.seam <:+: s.name.toList) :
        (suites.map (·.name)).flatMap Release.pieces =
          (suites.map (·.name)).map String.toList := by
      rw [List.flatMap_map, List.map_map, ← List.flatMap_singleton' (suites.map _),
        List.flatMap_map]
      exact List.flatMap_congr fun s hs => Release.pieces_of_seamless (h s hs)
    rw [List.forall_mem_append] at seamless
    rw [stagesEncoding_eq_iff_pieces, stageNames_eq_iff, whole seamless.1, whole seamless.2]
    exact List.map_inj_right fun _ _ => String.toList_inj.mp
  · have gated : c.suites ≠ [] := List.ne_nil_of_length_pos (by omega)
    refine ⟨Config.validate_folded accepted,
      (stagesEncoding_eq_iff_pieces c.folded c p p).mpr (Config.pieces_folded gated),
      fun same => ?_⟩
    have lengths := congrArg List.length ((stageNames_eq_iff c.folded c p p).mp same)
    have one : c.folded.suites.length ≤ 1 := by
      rw [Config.folded, List.length_map, List.length_take]
      exact Nat.min_le_left 1 _
    simp only [List.length_map] at lengths
    omega

section Sample

/-- A configuration with suites of these names. -/
def suitesConfig (names : List String) : Config :=
  { plainConfig with suites := names.map fun n => Suite.named n .library ["true"] }

/-- One suite named like two, with the seam between their names. -/
def forgedConfig : Config := suitesConfig ["a)\x00test_gate(b"]

theorem stagesEncoding_forged : (suitesConfig ["a", "b"]).validate = .ok () ∧
    forgedConfig.validate = .ok () ∧
    Release.stagesEncoding (Plan.stageNames (Plan.stages forgedConfig (.environment "TOKEN"))) =
      Release.stagesEncoding
        (Plan.stageNames (Plan.stages (suitesConfig ["a", "b"]) (.environment "TOKEN"))) ∧
    Plan.stageNames (Plan.stages forgedConfig (.environment "TOKEN")) ≠
      Plan.stageNames (Plan.stages (suitesConfig ["a", "b"]) (.environment "TOKEN")) := by
  decide +kernel

theorem stagesEncoding_tells_sample :
    Release.stagesEncoding
        (Plan.stageNames (Plan.stages (suitesConfig ["a", "b"]) (.environment "TOKEN"))) ≠
      Release.stagesEncoding
        (Plan.stageNames (Plan.stages (suitesConfig ["b", "a"]) (.environment "TOKEN"))) ∧
    (suitesConfig ["a", "b"]).validate = .ok () ∧
    (suitesConfig ["a", "b"]).folded = forgedConfig ∧ forgedConfig.validate = .ok () ∧
    Release.stagesEncoding (Plan.stageNames (Plan.stages forgedConfig (.environment "TOKEN"))) =
      Release.stagesEncoding
        (Plan.stageNames (Plan.stages (suitesConfig ["a", "b"]) (.environment "TOKEN"))) := by
  have seamless : ∀ s ∈ (suitesConfig ["a", "b"]).suites ++ (suitesConfig ["b", "a"]).suites,
      ¬ Release.seam <:+: s.name.toList := by decide +kernel
  have accepted : (suitesConfig ["a", "b"]).validate = .ok () := by decide +kernel
  have forged : (suitesConfig ["a", "b"]).folded = forgedConfig := by decide +kernel
  obtain ⟨-, told, hidden⟩ := Plan.stagesEncoding_tells (suitesConfig ["a", "b"])
    (suitesConfig ["b", "a"]) (.environment "TOKEN") (.environment "TOKEN")
  obtain ⟨valid, same, -⟩ := hidden accepted (by decide)
  rw [forged] at valid same
  exact ⟨(told seamless).not.mpr (by decide +kernel), accepted, forged, valid, same⟩

end Sample
end GatedRelease
