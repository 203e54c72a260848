import GatedRelease.Proofs.FileSystem.Enclosure
import GatedRelease.Proofs.Plan.Order
import GatedRelease.Proofs.Toml.Edits

/-! # Reading back what was written

A configuration is written with all that it says, and is read back as it was
(`Config.decode_encode`).  What is the default need not be written, of one suite or of a whole
section; keys that mean nothing may stand in any table, and keys may stand in any order
(`Config.Edit`).  No such change alters what is read, whatever the tree is and however many they are
(`Config.decode_edits`).  The reason is the same in every table: each setting is looked up by its
key, and what a missing one stands for is what writing the defaults would have put there.

Suites that are given are all there are.  A suite is completed from the defaults of a suite, which
are not one of the suites that there are if none is given (`Config.decode_suites`,
`Suite.decode_completed`).
-/
namespace GatedRelease

open Toml (Value Fields TableEdit)

namespace Toml.Value

/-- The fields of a table; anything else has none. -/
def fields : Value → Fields
  | .table f => f
  | _ => []

/-- A setting that a table holds is what is read there. -/
theorem settingOr_of_lookup {α : Type} {names : List String} {f : Fields} {key : String}
    {v : Value} {d : α} {read : Value → Except DecodeFailure α} (h : f.lookup key = some v) :
    settingOr names (.table f) key d read = read v := by
  rw [settingOr_table, h]

theorem toList_toText (texts : List String) :
    toList toText (.array (texts.map .string)) = .ok texts := by
  have read : toList toText (.array (texts.map .string)) = (texts.map .string).mapM toText := rfl
  rw [read]
  induction texts with
  | nil => rfl
  | cons text texts ih =>
    rw [List.map_cons, List.mapM_cons, ih rfl]
    rfl

theorem toSeconds_of_fits {n : Nat} (h : n < UInt64.size) : toSeconds (.integer n) = .ok n := by
  have range : (0 : Int) ≤ n ∧ (n : Int) < 0x10000000000000000 :=
    ⟨Int.natCast_nonneg n, Int.ofNat_lt.mpr h⟩
  have read : toSeconds (.integer n) = if (0 : Int) ≤ n ∧ (n : Int) < 0x10000000000000000 then
    .ok (n : Int).toNat else .error (.wrongType "an unsigned integer") := rfl
  rw [read, if_pos range, Int.toNat_natCast]

end Toml.Value

/-! ## Tables of settings -/

section Tables
variable {f g : Fields}

namespace BuildSettings

/-- Each setting is read as it was written. -/
theorem setting_encode (b : BuildSettings) (fits : b.timeoutSecs < UInt64.size) :
    b.encode.settingOr keys "command" default.command (Value.toList Value.toText) =
      .ok b.command ∧
    b.encode.settingOr keys "working_dir" default.workingDir Value.toText = .ok b.workingDir ∧
    b.encode.settingOr keys "profile" default.profile
      (Value.toWord BuildProfile.all BuildProfile.text) = .ok b.profile ∧
    b.encode.settingOr keys "release_flag" default.releaseFlag Value.toText = .ok b.releaseFlag ∧
    b.encode.settingOr keys "features" default.features (Value.toList Value.toText) =
      .ok b.features ∧
    b.encode.settingOr keys "no_default_features" default.noDefaultFeatures Value.toBool =
      .ok b.noDefaultFeatures ∧
    b.encode.settingOr keys "output_dir" default.outputDir Value.toText = .ok b.outputDir ∧
    b.encode.settingOr keys "timeout_secs" default.timeoutSecs Value.toSeconds =
      .ok b.timeoutSecs := by
  have word : Value.toWord BuildProfile.all BuildProfile.text (.string b.profile.text) =
      .ok b.profile := by
    cases b.profile <;> rfl
  have command := Value.toList_toText b.command
  have features := Value.toList_toText b.features
  have seconds := Value.toSeconds_of_fits fits
  exact ⟨(Value.settingOr_of_lookup rfl).trans command, rfl,
    (Value.settingOr_of_lookup rfl).trans word, rfl,
    (Value.settingOr_of_lookup rfl).trans features, rfl, rfl,
    (Value.settingOr_of_lookup rfl).trans seconds⟩

theorem decode_encode (b : BuildSettings) (fits : b.timeoutSecs < UInt64.size) :
    decode b.encode = .ok b := by
  obtain ⟨h₁, h₂, h₃, h₄, h₅, h₆, h₇, h₈⟩ := b.setting_encode fits
  simp only [decode, h₁, h₂, h₃, h₄, h₅, h₆, h₇, h₈]
  rfl

theorem decode_edit (e : TableEdit keys default.encode.fields f g) :
    decode (.table g) = decode (.table f) := by
  obtain ⟨h₁, h₂, h₃, h₄, h₅, h₆, h₇, h₈⟩ := default.setting_encode (by decide)
  unfold decode
  dsimp only
  rw [Value.settingOr_edit e h₁, Value.settingOr_edit e h₂, Value.settingOr_edit e h₃,
    Value.settingOr_edit e h₄, Value.settingOr_edit e h₅, Value.settingOr_edit e h₆,
    Value.settingOr_edit e h₇, Value.settingOr_edit e h₈] <;> decide

end BuildSettings

namespace TargetSettings

/-- Each setting is read as it was written. -/
theorem setting_encode (t : TargetSettings) :
    t.encode.settingOr keys "remote_url" default.remoteUrl Value.toText = .ok t.remoteUrl ∧
    t.encode.settingOr keys "checkout_dir" default.checkoutDir Value.toText = .ok t.checkoutDir ∧
    t.encode.settingOr keys "branch" default.branch Value.toText = .ok t.branch ∧
    t.encode.settingOr keys "artifact_path" default.artifactPath Value.toText =
      .ok t.artifactPath ∧
    t.encode.settingOr keys "commit_message" default.commitMessage Value.toText =
      .ok t.commitMessage ∧
    t.encode.settingOr keys "committer_name" default.committerName Value.toText =
      .ok t.committerName ∧
    t.encode.settingOr keys "committer_email" default.committerEmail Value.toText =
      .ok t.committerEmail :=
  ⟨rfl, rfl, rfl, rfl, rfl, rfl, rfl⟩

theorem decode_encode (t : TargetSettings) : decode t.encode = .ok t := by
  obtain ⟨h₁, h₂, h₃, h₄, h₅, h₆, h₇⟩ := t.setting_encode
  simp only [decode, h₁, h₂, h₃, h₄, h₅, h₆, h₇]
  rfl

theorem decode_edit (e : TableEdit keys default.encode.fields f g) :
    decode (.table g) = decode (.table f) := by
  obtain ⟨h₁, h₂, h₃, h₄, h₅, h₆, h₇⟩ := default.setting_encode
  unfold decode
  dsimp only
  rw [Value.settingOr_edit e h₁, Value.settingOr_edit e h₂, Value.settingOr_edit e h₃,
    Value.settingOr_edit e h₄, Value.settingOr_edit e h₅, Value.settingOr_edit e h₆,
    Value.settingOr_edit e h₇] <;> decide

end TargetSettings

namespace CredentialSettings

theorem decode_encode (c : CredentialSettings) : decode c.encode = .ok c := rfl

theorem decode_edit (e : TableEdit keys default.encode.fields f g) :
    decode (.table g) = decode (.table f) := by
  unfold decode
  rw [Value.settingOr_edit e rfl (by decide)]

end CredentialSettings

namespace PipelineSettings

theorem decode_encode (p : PipelineSettings) : decode p.encode = .ok p := rfl

theorem decode_edit (e : TableEdit keys default.encode.fields f g) :
    decode (.table g) = decode (.table f) := by
  unfold decode
  dsimp only
  rw [Value.settingOr_edit e rfl (by decide)]

end PipelineSettings

namespace Suite

/-- Each setting is read as it was written. -/
theorem setting_encode (s : Suite) (fits : s.timeoutSecs < UInt64.size) :
    s.encode.settingOr keys "name" default.name Value.toText = .ok s.name ∧
    s.encode.settingOr keys "kind" default.kind (Value.toWord SuiteKind.all SuiteKind.text) =
      .ok s.kind ∧
    s.encode.settingOr keys "command" default.command (Value.toList Value.toText) =
      .ok s.command ∧
    s.encode.settingOr keys "working_dir" default.workingDir Value.toText = .ok s.workingDir ∧
    s.encode.settingOr keys "destination" default.destination (fun x => some <$> x.toText) =
      .ok s.destination ∧
    s.encode.settingOr keys "destination_flag" default.destinationFlag Value.toText =
      .ok s.destinationFlag ∧
    s.encode.settingOr keys "skip" default.skip (Value.toList Value.toText) = .ok s.skip ∧
    s.encode.settingOr keys "skip_flag" default.skipFlag Value.toText = .ok s.skipFlag ∧
    s.encode.settingOr keys "timeout_secs" default.timeoutSecs Value.toSeconds =
      .ok s.timeoutSecs := by
  have word : Value.toWord SuiteKind.all SuiteKind.text (.string s.kind.text) = .ok s.kind := by
    cases s.kind <;> rfl
  have command := Value.toList_toText s.command
  have skip := Value.toList_toText s.skip
  have seconds := Value.toSeconds_of_fits fits
  obtain ⟨name, kind, argv, workingDir, destination, destinationFlag, skipped, skipFlag,
    timeoutSecs⟩ := s
  -- What comes after the destination stands elsewhere if there is none.
  cases destination with
  | none | some d =>
    exact ⟨rfl, (Value.settingOr_of_lookup rfl).trans word,
      (Value.settingOr_of_lookup rfl).trans command, rfl, rfl, rfl,
      (Value.settingOr_of_lookup rfl).trans skip, rfl,
      (Value.settingOr_of_lookup rfl).trans seconds⟩

theorem decode_encode (s : Suite) (fits : s.timeoutSecs < UInt64.size) :
    decode s.encode = .ok s := by
  obtain ⟨h₁, h₂, h₃, h₄, h₅, h₆, h₇, h₈, h₉⟩ := s.setting_encode fits
  simp only [decode, h₁, h₂, h₃, h₄, h₅, h₆, h₇, h₈, h₉]
  rfl

theorem decode_edit (e : TableEdit keys default.encode.fields f g) :
    decode (.table g) = decode (.table f) := by
  obtain ⟨h₁, h₂, h₃, h₄, h₅, h₆, h₇, h₈, h₉⟩ := default.setting_encode (by decide)
  unfold decode
  dsimp only
  rw [Value.settingOr_edit e h₁, Value.settingOr_edit e h₂, Value.settingOr_edit e h₃,
    Value.settingOr_edit e h₄, Value.settingOr_edit e h₅, Value.settingOr_edit e h₆,
    Value.settingOr_edit e h₇, Value.settingOr_edit e h₈, Value.settingOr_edit e h₉] <;> decide

/-- A suite that was read has each setting as it is read. -/
theorem settings_of_decode {v : Value} {s : Suite} (h : decode v = .ok s) :
    v.settingOr keys "name" default.name Value.toText = .ok s.name ∧
    v.settingOr keys "kind" default.kind (Value.toWord SuiteKind.all SuiteKind.text) =
      .ok s.kind ∧
    v.settingOr keys "command" default.command (Value.toList Value.toText) = .ok s.command ∧
    v.settingOr keys "working_dir" default.workingDir Value.toText = .ok s.workingDir ∧
    v.settingOr keys "destination" default.destination (fun x => some <$> x.toText) =
      .ok s.destination ∧
    v.settingOr keys "destination_flag" default.destinationFlag Value.toText =
      .ok s.destinationFlag ∧
    v.settingOr keys "skip" default.skip (Value.toList Value.toText) = .ok s.skip ∧
    v.settingOr keys "skip_flag" default.skipFlag Value.toText = .ok s.skipFlag ∧
    v.settingOr keys "timeout_secs" default.timeoutSecs Value.toSeconds = .ok s.timeoutSecs := by
  obtain ⟨name, h₁, h⟩ := ok_of_bind h
  obtain ⟨kind, h₂, h⟩ := ok_of_bind h
  obtain ⟨command, h₃, h⟩ := ok_of_bind h
  obtain ⟨workingDir, h₄, h⟩ := ok_of_bind h
  obtain ⟨destination, h₅, h⟩ := ok_of_bind h
  obtain ⟨destinationFlag, h₆, h⟩ := ok_of_bind h
  obtain ⟨skip, h₇, h⟩ := ok_of_bind h
  obtain ⟨skipFlag, h₈, h⟩ := ok_of_bind h
  obtain ⟨timeoutSecs, h₉, ⟨⟩⟩ := ok_of_bind h
  exact ⟨h₁, h₂, h₃, h₄, h₅, h₆, h₇, h₈, h₉⟩

theorem sublist_keys_encode (s : Suite) : s.encode.fields.keys.Sublist keys := by
  obtain ⟨name, kind, command, workingDir, destination, destinationFlag, skip, skipFlag,
    timeoutSecs⟩ := s
  cases destination with
  | none => exact (List.erase_sublist : (keys.erase "destination").Sublist keys)
  | some d => exact List.Sublist.refl keys

/-- **What is not said of a suite is what it is by default.** -/
theorem lookup_of_missing {s : Suite} {key : String} (h : decode (.table f) = .ok s)
    (missing : f.lookup key = none) :
    s.encode.fields.lookup key = default.encode.fields.lookup key := by
  by_cases known : key ∈ keys
  · have left {α : Type} {d x : α} {read : Value → Except DecodeFailure α}
        (said : Value.settingOr keys (.table f) key d read = .ok x) : x = d := by
      rw [Value.settingOr_table, missing] at said
      exact (Except.ok.inj said).symm
    obtain ⟨h₁, h₂, h₃, h₄, h₅, h₆, h₇, h₈, h₉⟩ := settings_of_decode h
    obtain ⟨name, kind, command, workingDir, destination, destinationFlag, skip, skipFlag,
      timeoutSecs⟩ := s
    simp only [keys, List.mem_cons, List.not_mem_nil, or_false] at known
    rcases known with rfl | rfl | rfl | rfl | rfl | rfl | rfl | rfl | rfl
    · obtain rfl := left h₁
      rfl
    · obtain rfl := left h₂
      rfl
    · obtain rfl := left h₃
      rfl
    · obtain rfl := left h₄
      rfl
    · obtain rfl := left h₅
      rfl
    · obtain rfl := left h₆
      cases destination <;> rfl
    · obtain rfl := left h₇
      cases destination <;> rfl
    · obtain rfl := left h₈
      cases destination <;> rfl
    · obtain rfl := left h₉
      cases destination <;> rfl
  · have absent (s : Suite) : s.encode.fields.lookup key = none :=
      Fields.lookup_eq_none fun there => known (s.sublist_keys_encode.subset there)
    rw [absent, absent]

/-- A suite is read like the one that the defaults are put at the end of. -/
theorem decode_completed (f : Fields) :
    decode (.table (f ++ default.encode.fields)) = decode (.table f) := by
  obtain ⟨h₁, h₂, h₃, h₄, h₅, h₆, h₇, h₈, h₉⟩ := default.setting_encode (by decide)
  unfold decode
  dsimp only
  rw [Value.settingOr_completed f default.encode.fields h₁,
    Value.settingOr_completed f default.encode.fields h₂,
    Value.settingOr_completed f default.encode.fields h₃,
    Value.settingOr_completed f default.encode.fields h₄,
    Value.settingOr_completed f default.encode.fields h₅,
    Value.settingOr_completed f default.encode.fields h₆,
    Value.settingOr_completed f default.encode.fields h₇,
    Value.settingOr_completed f default.encode.fields h₈,
    Value.settingOr_completed f default.encode.fields h₉]

end Suite
end Tables

/-! ## Configurations -/

namespace Config
variable {f g before after : Fields} {v w : Value}

/-- **No number is too large** to be written. -/
structure Fits (c : Config) : Prop where
  build : c.build.timeoutSecs < UInt64.size
  suites : ∀ s ∈ c.suites, s.timeoutSecs < UInt64.size

theorem toList_encode {suites : List Suite} (fits : ∀ s ∈ suites, s.timeoutSecs < UInt64.size) :
    Value.toList Suite.decode (.array (suites.map Suite.encode)) = .ok suites := by
  have read : Value.toList Suite.decode (.array (suites.map Suite.encode)) =
    (suites.map Suite.encode).mapM Suite.decode := rfl
  rw [read]
  clear read
  induction suites with
  | nil => rfl
  | cons s suites ih =>
    obtain ⟨first, rest⟩ := List.forall_mem_cons.mp fits
    rw [List.map_cons, List.mapM_cons, ih rest, s.decode_encode first]
    rfl

/-- Each section is read as it was written. -/
theorem setting_encode (c : Config) (fits : c.Fits) :
    c.encode.settingOr keys "build" default.build BuildSettings.decode = .ok c.build ∧
    c.encode.settingOr keys "target" default.target TargetSettings.decode = .ok c.target ∧
    c.encode.settingOr keys "credential" default.credential CredentialSettings.decode =
      .ok c.credential ∧
    c.encode.settingOr keys "pipeline" default.pipeline PipelineSettings.decode =
      .ok c.pipeline ∧
    c.encode.settingOr keys "suites" default.suites (Value.toList Suite.decode) =
      .ok c.suites :=
  ⟨(Value.settingOr_of_lookup rfl).trans (c.build.decode_encode fits.build),
    (Value.settingOr_of_lookup rfl).trans c.target.decode_encode, rfl, rfl,
    (Value.settingOr_of_lookup rfl).trans (toList_encode fits.suites)⟩

/-- **A configuration is read back as it was written.** -/
theorem decode_encode (c : Config) (fits : c.Fits) : decode c.encode = .ok c := by
  obtain ⟨h₁, h₂, h₃, h₄, h₅⟩ := c.setting_encode fits
  simp only [decode, h₁, h₂, h₃, h₄, h₅]
  rfl

theorem fits_default : default.Fits := ⟨by decide, by decide⟩

theorem decode_edit (e : TableEdit keys default.encode.fields f g) :
    decode (.table g) = decode (.table f) := by
  obtain ⟨h₁, h₂, h₃, h₄, h₅⟩ := default.setting_encode fits_default
  unfold decode
  dsimp only
  rw [Value.settingOr_edit e h₁, Value.settingOr_edit e h₂, Value.settingOr_edit e h₃,
    Value.settingOr_edit e h₄, Value.settingOr_edit e h₅] <;> decide

/-- A configuration is read the same if a section is replaced by one that is read the same. -/
theorem decode_replace {key : String}
    (build : key = "build" → BuildSettings.decode v = BuildSettings.decode w)
    (target : key = "target" → TargetSettings.decode v = TargetSettings.decode w)
    (credential : key = "credential" → CredentialSettings.decode v = CredentialSettings.decode w)
    (pipeline : key = "pipeline" → PipelineSettings.decode v = PipelineSettings.decode w)
    (suites : key = "suites" → Value.toList Suite.decode v = Value.toList Suite.decode w) :
    decode (.table (before ++ (key, v) :: after)) =
      decode (.table (before ++ (key, w) :: after)) := by
  unfold decode
  dsimp only
  rw [Value.settingOr_replace fun h => build h.symm, Value.settingOr_replace fun h => target h.symm,
    Value.settingOr_replace fun h => credential h.symm,
    Value.settingOr_replace fun h => pipeline h.symm,
    Value.settingOr_replace fun h => suites h.symm]

/-- The sections that are tables, with their settings and what these are by default. -/
def sections : List (String × List String × Fields) := [
  ("build", BuildSettings.keys, BuildSettings.default.encode.fields),
  ("target", TargetSettings.keys, TargetSettings.default.encode.fields),
  ("credential", CredentialSettings.keys, CredentialSettings.default.encode.fields),
  ("pipeline", PipelineSettings.keys, PipelineSettings.default.encode.fields)]

/-- **A change to a tree that says nothing else**: to the table of all sections, to the table of one
section, or to the table of one suite. -/
inductive Edit : Value → Value → Prop
  | whole {f g : Fields} : TableEdit keys default.encode.fields f g → Edit (.table f) (.table g)
  | inSection {before after f g : Fields} {key : String} {known : List String} {usual : Fields} :
      (key, known, usual) ∈ sections → TableEdit known usual f g →
      Edit (.table (before ++ (key, .table f) :: after))
        (.table (before ++ (key, .table g) :: after))
  | inSuite {before after f g : Fields} {earlier later : List Value} :
      TableEdit Suite.keys Suite.default.encode.fields f g →
      Edit (.table (before ++ ("suites", .array (earlier ++ .table f :: later)) :: after))
        (.table (before ++ ("suites", .array (earlier ++ .table g :: later)) :: after))

/-- No change of the kind alters what is read. -/
theorem Edit.decode_eq (e : Edit v w) : decode w = decode v := by
  cases e with
  | whole e => exact decode_edit e
  | @inSection before after f g key known usual place e =>
    simp only [sections, List.mem_cons, Prod.mk.injEq, List.not_mem_nil, or_false] at place
    rcases place with ⟨rfl, rfl, rfl⟩ | ⟨rfl, rfl, rfl⟩ | ⟨rfl, rfl, rfl⟩ | ⟨rfl, rfl, rfl⟩
    · exact decode_replace (fun _ => BuildSettings.decode_edit e) nofun nofun nofun nofun
    · exact decode_replace nofun (fun _ => TargetSettings.decode_edit e) nofun nofun nofun
    · exact decode_replace nofun nofun (fun _ => CredentialSettings.decode_edit e) nofun nofun
    · exact decode_replace nofun nofun nofun (fun _ => PipelineSettings.decode_edit e) nofun
  | @inSuite before after f g earlier later e =>
    refine decode_replace nofun nofun nofun nofun fun _ => ?_
    have item (f : Fields) : Value.toList Suite.decode (.array (earlier ++ .table f :: later)) =
      (earlier ++ .table f :: later).mapM Suite.decode := rfl
    rw [item, item, List.mapM_append, List.mapM_append, List.mapM_cons, List.mapM_cons,
      Suite.decode_edit e]

/-- **No number of such changes alters what is read.** -/
theorem decode_edits (e : Relation.ReflTransGen Edit v w) : decode w = decode v := by
  induction e with
  | refl => rfl
  | tail _ last ih => exact last.decode_eq.trans ih

/-- **Suites that are given replace the default ones as a whole.** -/
theorem decode_suites {entries : List Value} (given : f.lookup "suites" = some (.array entries)) :
    decode (.table f) = do
      let c ← decode (.table (f.without "suites"))
      let suites ← entries.mapM Suite.decode
      return { c with suites := suites } := by
  have other {α : Type} {key : String} (d : α) (read : Value → Except DecodeFailure α)
      (h : key ≠ "suites") : Value.settingOr keys (.table (f.without "suites")) key d read =
        Value.settingOr keys (.table f) key d read := by
    rw [Value.settingOr_table, Value.settingOr_table, Fields.lookup_without_of_ne h]
  have unsaid : Value.settingOr keys (.table (f.without "suites")) "suites" default.suites
      (Value.toList Suite.decode) = pure default.suites := by
    rw [Value.settingOr_table, Fields.lookup_without_self]
    rfl
  have said : Value.settingOr keys (.table f) "suites" default.suites (Value.toList Suite.decode) =
      entries.mapM Suite.decode := Value.settingOr_of_lookup given
  unfold decode
  dsimp only
  rw [other _ _ (by decide), other _ _ (by decide), other _ _ (by decide), other _ _ (by decide),
    unsaid, said]
  simp only [bind_assoc, pure_bind]

/-- **What is written is read back, and so is whatever says the same.**  A configuration is read
from the tree that it is written as, and from every tree that changes which say nothing else lead
to.  Suites that are given are the suites; each has what its table says, and for the rest what a
suite is by default. -/
theorem decode_faithful :
    (∀ c : Config, c.Fits → decode c.encode = .ok c ∧
      ∀ v, Relation.ReflTransGen Edit c.encode v → decode v = .ok c) ∧
    (∀ (f : Fields) (entries : List Value), f.lookup "suites" = some (.array entries) →
      decode (.table f) = do
        let c ← decode (.table (f.without "suites"))
        let suites ← entries.mapM Suite.decode
        return { c with suites := suites }) ∧
    (∀ entry : Fields,
      Suite.decode (.table (entry ++ Suite.default.encode.fields)) = Suite.decode (.table entry) ∧
      ∀ s, Suite.decode (.table entry) = .ok s → ∀ key, entry.lookup key = none →
        s.encode.fields.lookup key = Suite.default.encode.fields.lookup key) :=
  ⟨fun c fits => ⟨c.decode_encode fits, fun _ e => (decode_edits e).trans (c.decode_encode fits)⟩,
    fun _ _ given => decode_suites given,
    fun entry => ⟨Suite.decode_completed entry, fun _ h _ => Suite.lookup_of_missing h⟩⟩

section Sample

/-- A table that says what `plainConfig` says, with a key that nobody knows. -/
def plainTree : Fields :=
  [("note", .boolean true), ("target", .table [("remote_url", .string "u")])]

theorem edits_plainTree : Relation.ReflTransGen Edit plainConfig.encode (.table plainTree) := by
  have sections : Relation.ReflTransGen (TableEdit keys default.encode.fields)
      plainConfig.encode.fields [("target", plainConfig.target.encode)] := by
    refine TableEdit.leaveOut_filter (· == "target") [] plainConfig.encode.fields (by decide) ?_
    intro x hx left
    simp only [plainConfig, encode, Value.fields, List.mem_cons, List.not_mem_nil, or_false] at hx
    rcases hx with rfl | rfl | rfl | rfl | rfl
    exacts [rfl, absurd left (by decide), rfl, rfl, rfl]
  have target : Relation.ReflTransGen
      (TableEdit TargetSettings.keys TargetSettings.default.encode.fields)
      plainConfig.target.encode.fields [("remote_url", .string "u")] := by
    refine TableEdit.leaveOut_filter (· == "remote_url") [] plainConfig.target.encode.fields
      (by decide) ?_
    intro x hx left
    simp only [plainConfig, TargetSettings.encode, Value.fields, List.mem_cons, List.not_mem_nil,
      or_false] at hx
    rcases hx with rfl | rfl | rfl | rfl | rfl | rfl | rfl
    exacts [absurd left (by decide), rfl, rfl, rfl, rfl, rfl, rfl]
  have place : ("target", TargetSettings.keys, TargetSettings.default.encode.fields) ∈
    Config.sections := .tail _ (.head _)
  have note : TableEdit keys default.encode.fields
      ([("target", .table [("remote_url", .string "u")])] ++ [])
      ([("target", .table [("remote_url", .string "u")])] ++ [("note", .boolean true)]) :=
    .putIn (by decide) (by decide)
  have order : TableEdit keys default.encode.fields
      [("target", .table [("remote_url", .string "u")]), ("note", .boolean true)] plainTree :=
    .reorder (.swap _ _ _) (by decide)
  have inside (f g : Fields)
      (e : TableEdit TargetSettings.keys TargetSettings.default.encode.fields f g) :
      Edit (.table [("target", .table f)]) (.table [("target", .table g)]) :=
    @Edit.inSection [] [] f g _ _ _ place e
  exact (((sections.lift Value.table fun _ _ => .whole).trans
    (target.lift (fun f => Value.table [("target", .table f)]) inside)).tail (.whole note)).tail
      (.whole order)

/-- A suite that is only named. -/
def namedSuite : Suite := { Suite.default with name := "smoke" }

theorem decode_faithful_sample : plainConfig.Fits ∧ decode plainConfig.encode = .ok plainConfig ∧
    decode (.table plainTree) = .ok plainConfig ∧
    decode (.table [("suites", .array [.table [("name", .string "smoke")]])]) =
      .ok { default with suites := [namedSuite] } ∧
    namedSuite.encode.fields.lookup "destination" =
      Suite.default.encode.fields.lookup "destination" := by
  have fits : plainConfig.Fits := ⟨by decide, by decide⟩
  obtain ⟨written, given, entry⟩ := decode_faithful
  obtain ⟨back, edited⟩ := written plainConfig fits
  have suites : decode (.table [("suites", .array [.table [("name", .string "smoke")]])]) =
      .ok { default with suites := [namedSuite] } := by
    rw [given [("suites", .array [.table [("name", .string "smoke")]])]
      [.table [("name", .string "smoke")]] rfl]
    rfl
  obtain ⟨-, missing⟩ := entry [("name", .string "smoke")]
  exact ⟨fits, back, edited _ edits_plainTree, suites, missing namedSuite rfl "destination" rfl⟩

end Sample
end Config
end GatedRelease
