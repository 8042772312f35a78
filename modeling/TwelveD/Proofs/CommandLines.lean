import Mathlib.Data.Nat.Init
import Mathlib.Tactic.Common
import TwelveD.Server.Config

/-!
# Command lines

A setting is written as one or two arguments, an `OptionGroup`. A command line is accepted exactly if it
is made of groups, and then asks for what its groups say. Groups are cut off from the left, and the value
in a group may look like an option itself; where no group can be cut off, the argument is named in the
error.
-/

namespace TwelveD

/-- A setting as it is written. A value follows its option as an argument of its own, or behind an equals
    sign. -/
inductive OptionGroup where
  | shortHelp
  | longHelp
  | shortVersion
  | longVersion
  | noCompletionFilter
  | shortLogFile (path : String)
  | longLogFile (path : String)
  | joinedLogFile (path : String)
  | longLanguageId (id : String)
  | joinedLanguageId (id : String)
  deriving DecidableEq, Repr

namespace OptionGroup

def arguments : OptionGroup → List String
  | shortHelp => ["-h"]
  | longHelp => ["--help"]
  | shortVersion => ["-V"]
  | longVersion => ["--version"]
  | noCompletionFilter => ["--no-completion-filter"]
  | shortLogFile path => ["-l", path]
  | longLogFile path => ["--log-file", path]
  | joinedLogFile path => ["--log-file=" ++ path]
  | longLanguageId id => ["--language-id", id]
  | joinedLanguageId id => ["--language-id=" ++ id]

/-- No group can be cut off from a list of arguments. -/
def IsStuck (arguments : List String) : Prop := ∀ g : OptionGroup, ¬ g.arguments <+: arguments

/-- The options that take the next argument as their value. -/
def valueOptions : List String := ["-l", "--log-file", "--language-id"]

/-- The error that names an argument, given what stands behind the argument. -/
def refusal (argument : String) (rest : List String) : ConfigError :=
  if argument ∈ valueOptions ∧ rest = [] then .missingValue argument else .unknownOption argument

/-- The log file that a group sets. -/
def path? : OptionGroup → Option String
  | shortLogFile path | longLogFile path | joinedLogFile path => some path
  | _ => none

/-- The language that a group sets. -/
def id? : OptionGroup → Option String
  | longLanguageId id | joinedLanguageId id => some id
  | _ => none

/-- The options after some groups: of several values for one option the last one holds. -/
def config (groups : List OptionGroup) : Config where
  logFile := (groups.filterMap path?).getLast?.or Config.default.logFile
  languageId := (groups.filterMap id?).getLast?.getD Config.default.languageId
  filterCompletions := noCompletionFilter ∉ groups

/-- What groups ask for. -/
def command (groups : List OptionGroup) : Command :=
  if shortHelp ∈ groups ∨ longHelp ∈ groups then .help
  else if shortVersion ∈ groups ∨ longVersion ∈ groups then .version
  else .run (config groups)

def setting : OptionGroup → Setting
  | shortHelp | longHelp => .help
  | shortVersion | longVersion => .version
  | noCompletionFilter => .allCompletions
  | shortLogFile path | longLogFile path | joinedLogFile path => .logFile path
  | longLanguageId id | joinedLanguageId id => .languageId id

theorem arguments_ne_nil (g : OptionGroup) : g.arguments ≠ [] := by
  cases g <;> simp [arguments]

/-! ## What groups ask for -/

theorem set_setting (c : Config) (g : OptionGroup) : c.set g.setting =
    ⟨g.path?.or c.logFile, g.id?.getD c.languageId,
      c.filterCompletions && decide (g ≠ noCompletionFilter)⟩ := by
  cases g <;> simp [setting, Config.set, path?, id?]

theorem getLast?_filterMap_cons (value? : OptionGroup → Option String) (g : OptionGroup)
    (groups : List OptionGroup) : ((g :: groups).filterMap value?).getLast? =
      (groups.filterMap value?).getLast?.or (value? g) := by
  cases h : value? g with
  | none => rw [List.filterMap_cons_none h, Option.or_none]
  | some value =>
    rw [List.filterMap_cons_some h, List.getLast?_cons]
    cases (groups.filterMap value?).getLast? <;> rfl

theorem foldl_set_setting (groups : List OptionGroup) (c : Config) :
    (groups.map setting).foldl Config.set c =
      ⟨(groups.filterMap path?).getLast?.or c.logFile, (groups.filterMap id?).getLast?.getD c.languageId,
        c.filterCompletions && decide (noCompletionFilter ∉ groups)⟩ := by
  induction groups generalizing c with
  | nil => simp
  | cons g groups ih =>
    have hfilter : decide (noCompletionFilter ∉ g :: groups) =
        (decide (g ≠ noCompletionFilter) && decide (noCompletionFilter ∉ groups)) := by
      simp [eq_comm]
    rw [List.map_cons, List.foldl_cons, ih, set_setting, getLast?_filterMap_cons,
      getLast?_filterMap_cons, Option.or_assoc, Option.getD_or, hfilter, Bool.and_assoc]

theorem setting_eq_help_iff {g : OptionGroup} : g.setting = .help ↔ g = shortHelp ∨ g = longHelp := by
  cases g <;> simp [setting]

theorem setting_eq_version_iff {g : OptionGroup} :
    g.setting = .version ↔ g = shortVersion ∨ g = longVersion := by
  cases g <;> simp [setting]

theorem ofSettings_map_setting (groups : List OptionGroup) :
    Command.ofSettings (groups.map setting) = command groups := by
  have hhelp : Setting.help ∈ groups.map setting ↔ shortHelp ∈ groups ∨ longHelp ∈ groups := by
    simp [List.mem_map, setting_eq_help_iff, and_or_left, exists_or]
  have hversion : Setting.version ∈ groups.map setting ↔
      shortVersion ∈ groups ∨ longVersion ∈ groups := by
    simp [List.mem_map, setting_eq_version_iff, and_or_left, exists_or]
  unfold Command.ofSettings command config
  simp only [hhelp, hversion, foldl_set_setting]
  rfl

end OptionGroup

/-! ## Reading an argument in the place of an option -/

namespace Setting

open OptionGroup

variable {argument : String} {rest : List String}

theorem dropStart?_eq_some_iff {start text rest : String} :
    dropStart? start text = some rest ↔ text = start ++ rest := by
  unfold dropStart?
  constructor
  · intro h
    split at h
    · rename_i hlead
      obtain ⟨tail, htail⟩ := List.isPrefixOf_iff_prefix.mp hlead
      rw [← htail, List.drop_left] at h
      rw [← Option.some.inj h, ← String.toList_inj, String.toList_append, String.toList_ofList, htail]
    · cases h
  · rintro rfl
    simp

theorem ne_of_equalsSign {text name : String} (htext : '=' ∈ text.toList) (hname : '=' ∉ name.toList) :
    text ≠ name := by
  rintro rfl
  exact hname htext

theorem readArgument_joinedLogFile (path : String) :
    readArgument ("--log-file=" ++ path) = .complete (.logFile path) := by
  have hsign : '=' ∈ ("--log-file=" ++ path).toList := by simp
  have hpath : dropStart? "--log-file=" ("--log-file=" ++ path) = some path :=
    dropStart?_eq_some_iff.mpr rfl
  simp [readArgument, ne_of_equalsSign hsign, hpath]

theorem readArgument_joinedLanguageId (id : String) :
    readArgument ("--language-id=" ++ id) = .complete (.languageId id) := by
  have hsign : '=' ∈ ("--language-id=" ++ id).toList := by simp
  have hid : dropStart? "--language-id=" ("--language-id=" ++ id) = some id :=
    dropStart?_eq_some_iff.mpr rfl
  have hpath : dropStart? "--log-file=" ("--language-id=" ++ id) = none := by
    simp [dropStart?]
  simp [readArgument, ne_of_equalsSign hsign, hid, hpath]

/-- An argument is a group by itself, starts a group together with any value, or starts none. -/
theorem readArgument_cases (argument : String) :
    (∃ g : OptionGroup, g.arguments = [argument] ∧ readArgument argument = .complete g.setting) ∨
    (argument ∈ valueOptions ∧ ∃ group : String → OptionGroup,
      (∀ value, (group value).arguments = [argument, value]) ∧
      readArgument argument = .awaitsValue fun value => (group value).setting) ∨
    argument ∉ valueOptions ∧ readArgument argument = .unknown := by
  by_cases hknown : argument ∈ ["-h", "--help", "-V", "--version", "--no-completion-filter"]
  · left
    simp only [List.mem_cons, List.not_mem_nil, or_false] at hknown
    rcases hknown with rfl | rfl | rfl | rfl | rfl
    · exact ⟨.shortHelp, rfl, rfl⟩
    · exact ⟨.longHelp, rfl, rfl⟩
    · exact ⟨.shortVersion, rfl, rfl⟩
    · exact ⟨.longVersion, rfl, rfl⟩
    · exact ⟨.noCompletionFilter, rfl, rfl⟩
  by_cases hvalue : argument ∈ valueOptions
  · right
    left
    refine ⟨hvalue, ?_⟩
    simp only [valueOptions, List.mem_cons, List.not_mem_nil, or_false] at hvalue
    rcases hvalue with rfl | rfl | rfl
    · exact ⟨.shortLogFile, fun _ => rfl, rfl⟩
    · exact ⟨.longLogFile, fun _ => rfl, rfl⟩
    · exact ⟨.longLanguageId, fun _ => rfl, rfl⟩
  cases hpath : dropStart? "--log-file=" argument with
  | some path =>
    left
    obtain rfl := dropStart?_eq_some_iff.mp hpath
    exact ⟨.joinedLogFile path, rfl, readArgument_joinedLogFile path⟩
  | none =>
    cases hid : dropStart? "--language-id=" argument with
    | some id =>
      left
      obtain rfl := dropStart?_eq_some_iff.mp hid
      exact ⟨.joinedLanguageId id, rfl, readArgument_joinedLanguageId id⟩
    | none =>
      right
      right
      refine ⟨hvalue, ?_⟩
      simp_all [readArgument, valueOptions]

/-! ## Reading a command line -/

theorem ofArguments_arguments_append (g : OptionGroup) (rest : List String) :
    ofArguments (g.arguments ++ rest) = (g.setting :: ·) <$> ofArguments rest := by
  cases g with
  | joinedLogFile path =>
    rw [OptionGroup.arguments, List.singleton_append, ofArguments, readArgument_joinedLogFile]
    rfl
  | joinedLanguageId id =>
    rw [OptionGroup.arguments, List.singleton_append, ofArguments, readArgument_joinedLanguageId]
    rfl
  | _ => rfl

theorem ofArguments_flatMap_append (groups : List OptionGroup) (rest : List String) :
    ofArguments (groups.flatMap OptionGroup.arguments ++ rest) =
      (groups.map OptionGroup.setting ++ ·) <$> ofArguments rest := by
  induction groups with
  | nil => simp
  | cons g groups ih =>
    rw [List.flatMap_cons, List.append_assoc, ofArguments_arguments_append, ih]
    cases ofArguments rest <;> rfl

theorem ofArguments_of_isStuck (hstuck : IsStuck (argument :: rest)) :
    ofArguments (argument :: rest) = .error (refusal argument rest) := by
  rw [ofArguments, refusal]
  rcases readArgument_cases argument with
    ⟨g, hg, -⟩ | ⟨hvalue, group, hgroup, hread⟩ | ⟨hvalue, hread⟩
  · exact absurd ⟨rest, by rw [hg, List.singleton_append]⟩ (hstuck g)
  · cases rest with
    | nil => rw [hread, if_pos ⟨hvalue, rfl⟩]
    | cons value rest =>
      -- the option and its value would be a group
      exact absurd ⟨rest, by rw [hgroup, List.cons_append, List.singleton_append]⟩
        (hstuck (group value))
  · rw [hread, if_neg fun h => hvalue h.1]

end Setting

/-- Groups can be cut off from the left until nothing is left or the next argument starts none. -/
theorem OptionGroup.groups_or_isStuck (arguments : List String) :
    (∃ groups : List OptionGroup, arguments = groups.flatMap OptionGroup.arguments) ∨
    ∃ (groups : List OptionGroup) (argument : String) (rest : List String),
      arguments = groups.flatMap OptionGroup.arguments ++ argument :: rest ∧
      IsStuck (argument :: rest) := by
  -- every group takes at least one argument with it
  obtain ⟨n, hn⟩ : ∃ n, arguments.length = n := ⟨_, rfl⟩
  induction n using Nat.strong_induction_on generalizing arguments with
  | _ n ih =>
    by_cases hgroup : ∃ g : OptionGroup, g.arguments <+: arguments
    · obtain ⟨g, tail, rfl⟩ := hgroup
      have hlt : tail.length < n := by
        have hpos := List.length_pos_iff.mpr g.arguments_ne_nil
        rw [List.length_append] at hn
        omega
      rcases ih tail.length hlt tail rfl with ⟨groups, rfl⟩ | ⟨groups, argument, rest, rfl, hstuck⟩
      · exact Or.inl ⟨g :: groups, by rw [List.flatMap_cons]⟩
      · right
        exact ⟨g :: groups, argument, rest, by rw [List.flatMap_cons, List.append_assoc], hstuck⟩
    · cases arguments with
      | nil => exact Or.inl ⟨[], rfl⟩
      | cons argument rest => exact Or.inr ⟨[], argument, rest, rfl, not_exists.mp hgroup⟩

namespace Command

theorem ofArguments_flatMap (groups : List OptionGroup) :
    ofArguments (groups.flatMap OptionGroup.arguments) = .ok (OptionGroup.command groups) := by
  have hread := Setting.ofArguments_flatMap_append groups []
  rw [List.append_nil] at hread
  rw [ofArguments, hread, ← OptionGroup.ofSettings_map_setting]
  simp [Setting.ofArguments, Functor.map, Except.map]

theorem ofArguments_flatMap_append_of_isStuck {argument : String} {rest : List String}
    (groups : List OptionGroup) (hstuck : OptionGroup.IsStuck (argument :: rest)) :
    ofArguments (groups.flatMap OptionGroup.arguments ++ argument :: rest) =
      .error (OptionGroup.refusal argument rest) := by
  rw [ofArguments, Setting.ofArguments_flatMap_append, Setting.ofArguments_of_isStuck hstuck]
  rfl

/-- A command line is accepted exactly if it is made of groups, and asks for what they say. If it is not,
    the error names the first argument at which no group can be cut off. -/
theorem ofArguments_accepts_groups (arguments : List String) :
    (∀ command, ofArguments arguments = .ok command ↔ ∃ groups : List OptionGroup,
      arguments = groups.flatMap OptionGroup.arguments ∧ command = OptionGroup.command groups) ∧
    ∀ error, ofArguments arguments = .error error ↔
      ∃ (groups : List OptionGroup) (argument : String) (rest : List String),
        arguments = groups.flatMap OptionGroup.arguments ++ argument :: rest ∧
        OptionGroup.IsStuck (argument :: rest) ∧ error = OptionGroup.refusal argument rest := by
  constructor
  · intro command
    constructor
    · intro hok
      rcases OptionGroup.groups_or_isStuck arguments with
        ⟨groups, rfl⟩ | ⟨groups, argument, rest, rfl, hstuck⟩
      · rw [ofArguments_flatMap] at hok
        exact ⟨groups, rfl, (Except.ok.inj hok).symm⟩
      · rw [ofArguments_flatMap_append_of_isStuck groups hstuck] at hok
        cases hok
    · rintro ⟨groups, rfl, rfl⟩
      exact ofArguments_flatMap groups
  · intro error
    constructor
    · intro herror
      rcases OptionGroup.groups_or_isStuck arguments with
        ⟨groups, rfl⟩ | ⟨groups, argument, rest, rfl, hstuck⟩
      · rw [ofArguments_flatMap] at herror
        cases herror
      · rw [ofArguments_flatMap_append_of_isStuck groups hstuck] at herror
        exact ⟨groups, argument, rest, rfl, hstuck, (Except.error.inj herror).symm⟩
    · rintro ⟨groups, argument, rest, rfl, hstuck, rfl⟩
      exact ofArguments_flatMap_append_of_isStuck groups hstuck

end Command

end TwelveD
