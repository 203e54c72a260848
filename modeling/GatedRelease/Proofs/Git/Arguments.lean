import GatedRelease.Git.Action

/-! # The arguments of git

Git is called with one of twelve lists of words (`templates`), in which the texts of a user are
filled in.  Where such a text stands, git does not look for an option (`Sheltered`): behind a fixed
beginning that is none, as the value of an option, or behind the double dash.  So the options that
git reads are those of the template, whatever the texts are (`Sheltered.options_eq`).
-/
namespace GatedRelease.Git

/-- What a user supplies. -/
inductive Field
  | tag
  | branch
  | remoteUrl
  | checkout
  | commitMessage
  | committerName
  | committerEmail
deriving DecidableEq

/-- The texts that a user supplies. -/
abbrev Texts := Field → String

/-- A word in the arguments of git. -/
inductive Word
  | constant (text : String)
  /-- What a user supplies, with what stands before and after it. -/
  | supplied (lead : String) (field : Field) (trail : String)
deriving DecidableEq

/-- The word with the texts filled in. -/
def Word.fill (x : Texts) : Word → String
  | constant text => text
  | supplied lead field trail => lead ++ x field ++ trail

/-- The arguments with the texts filled in. -/
def fill (x : Texts) (words : List Word) : List String := words.map (Word.fill x)

/-- The words that say who acts. -/
def identityWords : List Word :=
  [.constant "-c", .supplied "user.name=" .committerName "", .constant "-c",
    .supplied "user.email=" .committerEmail ""]

/-- The words that name the credential helper. -/
def credentialWords : List Word := Action.credentialOptions.map .constant

/-- The full name of the tag. -/
def tagWord : Word := .supplied "refs/tags/" .tag ""

/-- **All that git is called with.** -/
def templates : List (List Word) := [
  [.constant "rev-parse", .constant "--show-toplevel"],
  [.constant "rev-parse", .constant "HEAD"],
  [.constant "clone", .constant "--branch", .supplied "" .branch "", .constant "--",
    .supplied "" .remoteUrl "", .supplied "" .checkout ""],
  [.constant "add", .constant "-A"],
  [.constant "diff", .constant "--cached", .constant "--quiet"],
  identityWords ++ [.constant "commit", .constant "--no-verify", .constant "-m",
    .supplied "" .commitMessage ""],
  identityWords ++ [.constant "tag", .constant "--", .supplied "" .tag ""],
  [.constant "rev-parse", .constant "-q", .constant "--verify",
    .supplied "refs/tags/" .tag "^\x7bcommit\x7d"],
  credentialWords ++ [.constant "ls-remote", .constant "--tags", .constant "origin", tagWord],
  credentialWords ++ [.constant "push", .constant "--atomic", .constant "origin",
    .supplied "HEAD:refs/heads/" .branch "", tagWord],
  [.constant "check-ref-format", tagWord],
  [.constant "reset", .constant "--soft", .constant "HEAD~1"]]

/-- The actions with the texts of a user. -/
def actions (x : Texts) : List Action :=
  [.topLevel, .head, .clone (x .branch) (x .remoteUrl) (x .checkout), .addAll, .compareIndex,
    .commit ⟨x .committerName, x .committerEmail⟩ (x .commitMessage),
    .createTag ⟨x .committerName, x .committerEmail⟩ (x .tag), .tagTarget (x .tag),
    .remoteTag (x .tag), .push (x .branch) (x .tag), .checkTagName (x .tag), .undoCommit]

/-- **The arguments of the actions are the templates, filled in.** -/
theorem arguments_actions (x : Texts) :
    (actions x).map Action.arguments = templates.map (fill x) := by
  simp [actions, templates, fill, Word.fill, Action.arguments, Action.identityOptions, identityWords,
    credentialWords, Action.credentialOptions, tagWord, tagRef, remoteName]

/-- An action with the texts of a user has its arguments from a template. -/
theorem exists_template {x : Texts} {action : Action} (h : action ∈ actions x) :
    ∃ words ∈ templates, action.arguments = fill x words := by
  have formed : action.arguments ∈ templates.map (fill x) := by
    rw [← arguments_actions]
    exact List.mem_map_of_mem h
  obtain ⟨words, listed, filled⟩ := List.mem_map.mp formed
  exact ⟨words, listed, filled.symm⟩

/-! ## What is read as an option -/

/-- The word begins with a dash. -/
def dashed (word : String) : Bool := word.toList.head? == some '-'

/-- The next word is the value of the option. -/
def takesValue (word : String) : Bool := word == "-c" || word == "--branch" || word == "-m"

/-- The options that git reads in words, the first of which is the value of an option or is not. -/
def optionsFrom (value : Bool) : List String → List String
  | [] => []
  | word :: rest =>
    if value then optionsFrom false rest
    else if word = "--" then []
    else if dashed word then word :: optionsFrom (takesValue word) rest
    else optionsFrom false rest

/-- **The options that git reads** in its arguments: the words that begin with a dash, wherever they
stand, but for the values of options and for all that is behind the double dash. -/
def options (arguments : List String) : List String := optionsFrom false arguments

/-- What may stand before the text of a user. -/
def leads : List String := ["refs/tags/", "HEAD:refs/heads/", "user.name=", "user.email="]

/-- **Where the texts of a user stand** in words: behind one of the fixed beginnings, as the value
of an option, or behind the double dash. -/
inductive Sheltered : List Word → Prop
  | nil : Sheltered []
  | constant {text : String} {rest : List Word} : takesValue text = false → Sheltered rest →
      Sheltered (.constant text :: rest)
  | led {lead trail : String} {field : Field} {rest : List Word} : lead ∈ leads → Sheltered rest →
      Sheltered (.supplied lead field trail :: rest)
  /-- A setting of git itself, all of it constant or with a fixed beginning. -/
  | setting {word : Word} {rest : List Word} : Sheltered [word] → Sheltered rest →
      Sheltered (.constant "-c" :: word :: rest)
  | value {option : String} {word : Word} {rest : List Word} : option ∈ ["--branch", "-m"] →
      Sheltered rest → Sheltered (.constant option :: word :: rest)
  | behind {rest : List Word} : Sheltered (.constant "--" :: rest)

/-- A word without a value is read by itself. -/
theorem options_cons {word : String} (single : takesValue word = false) (rest : List String) :
    options (word :: rest) = if word = "--" then [] else
      if dashed word = true then word :: options rest else options rest := by
  unfold options
  rw [optionsFrom, single, if_neg Bool.false_ne_true]

/-- The value of an option is no option. -/
theorem options_valued {option : String} (h : takesValue option = true) (value : String)
    (rest : List String) : options (option :: value :: rest) = option :: options rest := by
  simp only [takesValue, Bool.or_eq_true, beq_iff_eq] at h
  rcases h with (rfl | rfl) | rfl <;> simp [options, optionsFrom, dashed, takesValue]

/-- A word with a fixed beginning is no option. -/
theorem options_led {lead : String} (h : lead ∈ leads) (text : String) (rest : List String) :
    options ((lead ++ text) :: rest) = options rest := by
  have undashed : dashed (lead ++ text) = false := by
    simp only [leads, List.mem_cons, List.not_mem_nil, or_false] at h
    rcases h with rfl | rfl | rfl | rfl <;> simp [dashed]
  have other : lead ++ text ≠ "--" := by
    intro same
    rw [same] at undashed
    exact absurd undashed (by decide)
  simp [options, optionsFrom, undashed, other]

/-- **No text of a user is read as an option**: where it is sheltered, git reads the same options
whatever the texts are. -/
theorem Sheltered.options_eq {words : List Word} (h : Sheltered words) (x y : Texts) :
    options (fill x words) = options (fill y words) := by
  induction h with
  | nil => rfl
  | @constant text rest single _ ih =>
    show options (text :: fill x rest) = options (text :: fill y rest)
    rw [options_cons single, options_cons single, ih]
  | @led lead trail field rest listed _ ih =>
    show options ((lead ++ x field ++ trail) :: fill x rest) =
      options ((lead ++ y field ++ trail) :: fill y rest)
    rw [String.append_assoc, String.append_assoc, options_led listed, options_led listed, ih]
  | @setting word rest _ _ _ ih =>
    show options ("-c" :: word.fill x :: fill x rest) = options ("-c" :: word.fill y :: fill y rest)
    rw [options_valued rfl, options_valued rfl, ih]
  | @value option word rest listed _ ih =>
    have takes : takesValue option = true := by
      simp only [List.mem_cons, List.not_mem_nil, or_false] at listed
      rcases listed with rfl | rfl <;> rfl
    show options (option :: word.fill x :: fill x rest) =
      options (option :: word.fill y :: fill y rest)
    rw [options_valued takes, options_valued takes, ih]
  | behind => rfl

/-- Without the double dash, a tag could be an option. -/
example : options (fill (fun _ => "-d") [.constant "tag", .supplied "" .tag ""]) = ["-d"] := by
  decide

theorem sheltered_identityWords {rest : List Word} (h : Sheltered rest) :
    Sheltered (identityWords ++ rest) :=
  .setting (.led (by simp [leads]) .nil) (.setting (.led (by simp [leads]) .nil) h)

theorem sheltered_credentialWords {rest : List Word} (h : Sheltered rest) :
    Sheltered (credentialWords ++ rest) :=
  .setting (.constant rfl .nil) (.setting (.constant rfl .nil) h)

theorem sheltered_tagWord : Sheltered [tagWord] := .led (by simp [leads]) .nil

/-- **In all that git is called with**, the texts of a user are sheltered. -/
theorem sheltered_templates : ∀ words ∈ templates, Sheltered words := by
  simp only [templates, List.forall_mem_cons, List.not_mem_nil, false_implies, implies_true,
    and_true]
  refine ⟨?topLevel, ?head, ?clone, ?addAll, ?compareIndex, ?commit, ?createTag, ?tagTarget,
    ?remoteTag, ?push, ?checkTagName, ?undoCommit⟩
  case topLevel | head | addAll => exact .constant rfl (.constant rfl .nil)
  case compareIndex | undoCommit => exact .constant rfl (.constant rfl (.constant rfl .nil))
  case clone => exact .constant rfl (.value (by simp) .behind)
  case commit =>
    exact sheltered_identityWords (.constant rfl (.constant rfl (.value (by simp) .nil)))
  case createTag => exact sheltered_identityWords (.constant rfl .behind)
  case tagTarget =>
    exact .constant rfl (.constant rfl (.constant rfl (.led (by simp [leads]) .nil)))
  case remoteTag =>
    exact sheltered_credentialWords
      (.constant rfl (.constant rfl (.constant rfl sheltered_tagWord)))
  case push =>
    exact sheltered_credentialWords (.constant rfl (.constant rfl (.constant rfl
      (.led (by simp [leads]) sheltered_tagWord))))
  case checkTagName => exact .constant rfl sheltered_tagWord

end GatedRelease.Git
