import PipelineRunner.Proofs.Config.Validation
import PipelineRunner.Proofs.Dict
import PipelineRunner.Proofs.Template.Grammar
import PipelineRunner.Proofs.Trigger

/-!
# Well-formed configurations

What the parts of a configuration have to be, and which of several faults is reported: that of the
first step with one, and in a step that of the first check it fails; then that of the first pattern;
then a missing file. The check accepts exactly the well-formed configurations.
-/

namespace PipelineRunner

/-! ### Values that stand for files -/

/-- A value that stands for a file that has to exist: a mapping that names no environment variable
and asks for the check. The path is empty unless the mapping has one. -/
def Yaml.Value.RequiresFile (v : Yaml.Value) (path : String) : Prop :=
  ∃ entries, v = .mapping entries ∧ (find? "env" entries).bind asText? = none ∧
    ((find? "path" entries).bind asText?).getD "" = path ∧
    (find? "validate_exists" entries).bind asBool? = some true

namespace VariableSource

theorem ofValue_eq_file_iff {v : Yaml.Value} {path : String} :
    ofValue v = .file path true ↔ v.RequiresFile path := by
  cases v with
  | mapping entries =>
    constructor
    · intro h
      cases henv : (Yaml.Value.find? "env" entries).bind Yaml.Value.asText? with
      | some name => simp [ofValue, henv] at h
      | none =>
        simp only [ofValue, henv, file.injEq] at h
        refine ⟨entries, rfl, henv, h.1, ?_⟩
        cases hcheck : (Yaml.Value.find? "validate_exists" entries).bind Yaml.Value.asBool? with
        | none => simp [hcheck] at h
        | some b => simpa [hcheck] using h.2
    · rintro ⟨entries', heq, henv, hpath, hcheck⟩
      cases heq
      simp only [ofValue, henv, hpath, hcheck, Option.getD_some]
  | _ => simp [ofValue, Yaml.Value.RequiresFile]

theorem fault?_eq_some_iff {pathExists : String → Bool} {name : String} {source : VariableSource}
    {e : ConfigError} :
    source.fault? pathExists name = some e ↔
      ∃ path, source = .file path true ∧ pathExists path = false ∧ .missingFile name path = e := by
  cases source with
  | literal value => simp [fault?]
  | env name => simp [fault?]
  | file path mustExist =>
    cases mustExist with
    | false => simp [fault?]
    | true => cases hpath : pathExists path <;> simp [fault?, hpath]

end VariableSource

/-! ### Lists of faults -/

theorem head?_append_eq_some_iff {α : Type} {l l' : List α} {a : α} :
    (l ++ l').head? = some a ↔ l.head? = some a ∨ l = [] ∧ l'.head? = some a := by
  cases l <;> simp

section
variable {α : Type} {p : Prop} [Decidable p] {x a : α}

theorem ite_singleton_eq_nil_iff : (if p then [x] else []) = [] ↔ ¬ p := by
  split <;> simp [*]

theorem head?_ite_singleton_iff : (if p then [x] else []).head? = some a ↔ p ∧ x = a := by
  split <;> simp [*]

end

/-! ### Steps -/

namespace StepConfig

def NamesProgram (s : StepConfig) : Prop :=
  ∃ program args, s.run = program :: args ∧ ∃ c ∈ program.toList, Text.isBlank c = false

/-- A step can be part of a configuration with these secrets. -/
structure WellFormed (secrets : List String) (s : StepConfig) : Prop where
  program : s.NamesProgram
  capture : ∀ n, s.capture = some n → Template.IsName n.toList ∧ n ∉ secrets
  env : ∀ n ∈ s.env.keys ++ s.requiredEnv, Template.IsName n.toList

/-- The first check that a step fails after steps with the ids `earlier`. Each check is made only if
those before it are passed. -/
inductive FirstFault (secrets earlier : List String) (s : StepConfig) : ConfigError → Prop
  | duplicate :
    s.id ∈ earlier → FirstFault secrets earlier s (.duplicateStep s.id)
  | program :
    s.id ∉ earlier → ¬ s.NamesProgram → FirstFault secrets earlier s (.emptyCommand s.id)
  | capture (n : String) :
    s.id ∉ earlier → s.NamesProgram → s.capture = some n → ¬ Template.IsName n.toList →
    FirstFault secrets earlier s (.badCapture s.id n)
  | secret (n : String) :
    s.id ∉ earlier → s.NamesProgram → s.capture = some n → Template.IsName n.toList →
    n ∈ secrets → FirstFault secrets earlier s (.captureIsSecret s.id n)
  /-- The entries come by name, and the required names after them. -/
  | env (before : List String) (n : String) (after : List String) :
    s.id ∉ earlier → s.NamesProgram →
    (∀ c, s.capture = some c → Template.IsName c.toList ∧ c ∉ secrets) →
    s.env.keys ++ s.requiredEnv = before ++ n :: after →
    (∀ m ∈ before, Template.IsName m.toList) → ¬ Template.IsName n.toList →
    FirstFault secrets earlier s (.badEnvName s.id n)

section
variable {secrets seen earlier : List String} {s : StepConfig} {steps : List StepConfig}
  {e : ConfigError}

theorem hasNoCommand_iff : s.hasNoCommand = true ↔ ¬ s.NamesProgram := by
  unfold hasNoCommand NamesProgram
  cases s.run with
  | nil => simp
  | cons program args => simp [Text.isBlankText]

theorem isValidName_eq_false_iff {n : String} :
    Template.isValidName n = false ↔ ¬ Template.IsName n.toList := by
  rw [← Template.isValidName_iff, Bool.not_eq_true]

theorem captureFaults_eq_nil_iff :
    s.captureFaults secrets = [] ↔
      ∀ n, s.capture = some n → Template.IsName n.toList ∧ n ∉ secrets := by
  unfold captureFaults
  cases s.capture with
  | none => simp
  | some n => simp [← Template.isValidName_iff]

theorem head?_captureFaults_iff :
    (s.captureFaults secrets).head? = some e ↔ ∃ n, s.capture = some n ∧
      (¬ Template.IsName n.toList ∧ .badCapture s.id n = e ∨
        Template.IsName n.toList ∧ n ∈ secrets ∧ .captureIsSecret s.id n = e) := by
  unfold captureFaults
  cases s.capture with
  | none => simp
  | some n =>
    simp only [head?_append_eq_some_iff, head?_ite_singleton_iff, List.contains_iff_mem,
      ← Template.isValidName_iff, Option.some.injEq, exists_eq_left']
    cases Template.isValidName n <;> simp

theorem envFaults_eq_nil_iff :
    s.envFaults = [] ↔ ∀ n ∈ s.env.keys ++ s.requiredEnv, Template.IsName n.toList := by
  simp only [envFaults, List.map_eq_nil_iff, List.filter_eq_nil_iff, Bool.not_eq_true',
    Bool.not_eq_false, Template.isValidName_iff]

theorem head?_envFaults_iff :
    s.envFaults.head? = some e ↔ ∃ before n after,
      s.env.keys ++ s.requiredEnv = before ++ n :: after ∧
      (∀ m ∈ before, Template.IsName m.toList) ∧ ¬ Template.IsName n.toList ∧
      .badEnvName s.id n = e := by
  rw [envFaults, List.head?_map, List.head?_filter, Option.map_eq_some_iff]
  constructor
  · rintro ⟨n, hn, rfl⟩
    obtain ⟨hbad, before, after, hsplit, hgood⟩ := List.find?_eq_some_iff_append.mp hn
    refine ⟨before, n, after, hsplit, fun m hm => ?_, ?_, rfl⟩
    · exact (Template.isValidName_iff m).mp (by simpa using hgood m hm)
    · exact isValidName_eq_false_iff.mp (by simpa using hbad)
  · rintro ⟨before, n, after, hsplit, hgood, hbad, rfl⟩
    refine ⟨n, List.find?_eq_some_iff_append.mpr ⟨?_, before, after, hsplit, fun m hm => ?_⟩, rfl⟩
    · simpa using isValidName_eq_false_iff.mpr hbad
    · simpa using (Template.isValidName_iff m).mpr (hgood m hm)

theorem faults_eq_nil_iff :
    s.faults secrets seen = [] ↔ s.id ∉ seen ∧ s.WellFormed secrets := by
  simp only [faults, List.append_eq_nil_iff, ite_singleton_eq_nil_iff, List.contains_iff_mem,
    hasNoCommand_iff, Classical.not_not, captureFaults_eq_nil_iff, envFaults_eq_nil_iff]
  constructor
  · rintro ⟨⟨⟨hid, hrun⟩, hcapture⟩, henv⟩
    exact ⟨hid, hrun, hcapture, henv⟩
  · rintro ⟨hid, hrun, hcapture, henv⟩
    exact ⟨⟨⟨hid, hrun⟩, hcapture⟩, henv⟩

theorem head?_faults_iff :
    (s.faults secrets seen).head? = some e ↔ s.FirstFault secrets seen e := by
  simp only [faults, head?_append_eq_some_iff, List.append_eq_nil_iff, ite_singleton_eq_nil_iff,
    head?_ite_singleton_iff, List.contains_iff_mem, hasNoCommand_iff, Classical.not_not,
    head?_captureFaults_iff, captureFaults_eq_nil_iff, head?_envFaults_iff]
  constructor
  · rintro (((⟨hid, rfl⟩ | ⟨hid, hrun, rfl⟩) | ⟨⟨hid, hrun⟩, n, hn, h⟩) |
      ⟨⟨⟨hid, hrun⟩, hcapture⟩, before, n, after, hsplit, hgood, hbad, rfl⟩)
    · exact .duplicate hid
    · exact .program hid hrun
    · rcases h with ⟨hbad, rfl⟩ | ⟨hgood, hmem, rfl⟩
      · exact .capture n hid hrun hn hbad
      · exact .secret n hid hrun hn hgood hmem
    · exact .env before n after hid hrun hcapture hsplit hgood hbad
  · intro h
    cases h with
    | duplicate hid => exact Or.inl (Or.inl (Or.inl ⟨hid, rfl⟩))
    | program hid hrun => exact Or.inl (Or.inl (Or.inr ⟨hid, hrun, rfl⟩))
    | capture n hid hrun hn hbad =>
      exact Or.inl (Or.inr ⟨⟨hid, hrun⟩, n, hn, Or.inl ⟨hbad, rfl⟩⟩)
    | secret n hid hrun hn hgood hmem =>
      exact Or.inl (Or.inr ⟨⟨hid, hrun⟩, n, hn, Or.inr ⟨hgood, hmem, rfl⟩⟩)
    | env before n after hid hrun hcapture hsplit hgood hbad =>
      exact Or.inr ⟨⟨⟨hid, hrun⟩, hcapture⟩, before, n, after, hsplit, hgood, hbad, rfl⟩

theorem FirstFault.congr (h : s.id ∈ seen ↔ s.id ∈ earlier) :
    s.FirstFault secrets seen e ↔ s.FirstFault secrets earlier e := by
  have hcontains : seen.contains s.id = earlier.contains s.id := by
    rw [Bool.eq_iff_iff, List.contains_iff_mem, List.contains_iff_mem]
    exact h
  rw [← head?_faults_iff, ← head?_faults_iff, faults, faults, hcontains]

theorem allFaults_eq_nil_iff :
    allFaults secrets seen steps = [] ↔ (steps.map (·.id)).Nodup ∧
      (∀ s ∈ steps, s.id ∉ seen) ∧ ∀ s ∈ steps, s.WellFormed secrets := by
  induction steps generalizing seen with
  | nil => simp [allFaults]
  | cons x rest ih =>
    rw [allFaults, List.append_eq_nil_iff, faults_eq_nil_iff, ih, List.map_cons,
      List.nodup_cons]
    rw [List.forall_mem_cons, List.forall_mem_cons]
    simp only [List.mem_cons, not_or, List.mem_map]
    constructor
    · rintro ⟨⟨hid, hx⟩, hnodup, hseen, hrest⟩
      refine ⟨⟨?_, hnodup⟩, ⟨hid, fun s hs => (hseen s hs).2⟩, hx, hrest⟩
      rintro ⟨s, hs, heq⟩
      exact (hseen s hs).1 heq
    · rintro ⟨⟨hnew, hnodup⟩, ⟨hid, hseen⟩, hx, hrest⟩
      exact ⟨⟨hid, hx⟩, hnodup, fun s hs => ⟨fun heq => hnew ⟨s, hs, heq⟩, hseen s hs⟩, hrest⟩

theorem head?_allFaults_iff :
    (allFaults secrets seen steps).head? = some e ↔ ∃ before s after,
      steps = before ++ s :: after ∧ allFaults secrets seen before = [] ∧
      s.FirstFault secrets (before.map (·.id) ++ seen) e := by
  induction steps generalizing seen with
  | nil => simp [allFaults]
  | cons x rest ih =>
    -- what is seen when a later step is checked
    have hlater : ∀ (before : List StepConfig) (s : StepConfig),
        s.FirstFault secrets ((x :: before).map (·.id) ++ seen) e ↔
          s.FirstFault secrets (before.map (·.id) ++ x.id :: seen) e := by
      intro before s
      refine FirstFault.congr ?_
      simp only [List.map_cons, List.cons_append, List.mem_cons, List.mem_append]
      exact or_left_comm
    rw [allFaults, head?_append_eq_some_iff, head?_faults_iff, ih]
    constructor
    · rintro (h | ⟨hx, before, s, after, rfl, hbefore, h⟩)
      · exact ⟨[], x, rest, rfl, rfl, h⟩
      · refine ⟨x :: before, s, after, rfl, ?_, (hlater before s).mpr h⟩
        rw [allFaults, hx, hbefore, List.append_nil]
    · rintro ⟨before, s, after, hsplit, hbefore, h⟩
      cases before with
      | nil =>
        obtain ⟨rfl, rfl⟩ := List.cons.inj hsplit
        exact Or.inl h
      | cons y before =>
        obtain ⟨rfl, rfl⟩ := List.cons.inj hsplit
        obtain ⟨hx, hbefore⟩ := List.append_eq_nil_iff.mp hbefore
        exact Or.inr ⟨hx, before, s, after, rfl, hbefore, (hlater before s).mp h⟩

end

end StepConfig

/-! ### Patterns -/

namespace Trigger

def patternFault? (pattern : String) : Option ConfigError :=
  match BranchPattern.parse pattern with
  | .ok _ => none
  | .error e => some (.badPattern pattern e)

theorem faults_eq (t : Trigger) : t.faults = t.patterns.filterMap patternFault? := rfl

theorem patternFault?_eq_none_iff {pattern : String} :
    patternFault? pattern = none ↔ BranchPattern.WellFormed pattern := by
  rw [← BranchPattern.parse_ok_iff_wellFormed, patternFault?]
  cases BranchPattern.parse pattern <;> simp

theorem patternFault?_eq_some_iff {pattern : String} {e : ConfigError} :
    patternFault? pattern = some e ↔ ¬ BranchPattern.WellFormed pattern ∧
      .badPattern pattern (if pattern = "" then .empty else .misplacedWildcard pattern) = e := by
  unfold patternFault?
  cases hp : BranchPattern.parse pattern with
  | ok q => simp [BranchPattern.parse_ok_iff_wellFormed.mp ⟨q, hp⟩]
  | error x =>
    obtain ⟨hill, rfl⟩ := BranchPattern.parse_eq_error_iff.mp hp
    simp [hill]

end Trigger

/-! ### Configurations -/

namespace PipelineConfig

structure StepsFit (c : PipelineConfig) : Prop where
  ids_nodup : (c.steps.map (·.id)).Nodup
  wellFormed : ∀ s ∈ c.steps, s.WellFormed c.secrets

def PatternsFit (c : PipelineConfig) : Prop :=
  ∀ t, c.trigger = some t → ∀ pattern ∈ t.patterns, BranchPattern.WellFormed pattern

/-- A configuration that can be run: its steps and patterns fit, and the files that have to exist
do. -/
structure WellFormed (pathExists : String → Bool) (c : PipelineConfig) : Prop where
  steps : c.StepsFit
  patterns : c.PatternsFit
  files : ∀ n v path, c.declared.get? n = some v → v.RequiresFile path → pathExists path = true

/-- The first fault of a configuration. Patterns are looked at only if the steps fit, and files only
if the patterns fit as well; of several missing files it is any. -/
inductive FirstFault (pathExists : String → Bool) (c : PipelineConfig) : ConfigError → Prop
  | step (before : List StepConfig) (s : StepConfig) (after : List StepConfig) (e : ConfigError) :
    c.steps = before ++ s :: after → (before.map (·.id)).Nodup →
    (∀ x ∈ before, x.WellFormed c.secrets) →
    s.FirstFault c.secrets (before.map (·.id)) e → FirstFault pathExists c e
  | pattern (t : Trigger) (before : List String) (p : String) (after : List String) :
    c.StepsFit → c.trigger = some t → t.patterns = before ++ p :: after →
    (∀ q ∈ before, BranchPattern.WellFormed q) → ¬ BranchPattern.WellFormed p →
    FirstFault pathExists c (.badPattern p (if p = "" then .empty else .misplacedWildcard p))
  | file (n : String) (v : Yaml.Value) (path : String) :
    c.StepsFit → c.PatternsFit → c.declared.get? n = some v → v.RequiresFile path →
    pathExists path = false → FirstFault pathExists c (.missingFile n path)

def triggerFaults (c : PipelineConfig) : List ConfigError :=
  match c.trigger with
  | none => []
  | some t => t.faults

def fileFaults (pathExists : String → Bool) (c : PipelineConfig) : List ConfigError :=
  c.sources.entries.filterMap fun e => VariableSource.fault? pathExists e.1 e.2

section
variable {pathExists : String → Bool} {c : PipelineConfig} {e : ConfigError}

theorem faults_eq : c.faults pathExists =
    StepConfig.allFaults c.secrets [] c.steps ++ c.triggerFaults ++ c.fileFaults pathExists := rfl

theorem stepFaults_eq_nil_iff :
    StepConfig.allFaults c.secrets [] c.steps = [] ↔ c.StepsFit := by
  rw [StepConfig.allFaults_eq_nil_iff]
  constructor
  · rintro ⟨hnodup, -, hwell⟩
    exact ⟨hnodup, hwell⟩
  · rintro ⟨hnodup, hwell⟩
    exact ⟨hnodup, by simp, hwell⟩

theorem triggerFaults_eq_nil_iff : c.triggerFaults = [] ↔ c.PatternsFit := by
  unfold triggerFaults PatternsFit
  cases c.trigger with
  | none => simp
  | some t =>
    simp [Trigger.faults_eq, List.filterMap_eq_nil_iff, Trigger.patternFault?_eq_none_iff]

theorem head?_triggerFaults_iff :
    c.triggerFaults.head? = some e ↔ ∃ t before p after, c.trigger = some t ∧
      t.patterns = before ++ p :: after ∧ (∀ q ∈ before, BranchPattern.WellFormed q) ∧
      ¬ BranchPattern.WellFormed p ∧
      .badPattern p (if p = "" then .empty else .misplacedWildcard p) = e := by
  unfold triggerFaults
  cases c.trigger with
  | none => simp
  | some t =>
    dsimp only
    rw [Trigger.faults_eq, List.head?_filterMap, List.findSome?_eq_some_iff]
    simp only [Trigger.patternFault?_eq_none_iff, Trigger.patternFault?_eq_some_iff]
    constructor
    · rintro ⟨before, p, after, hsplit, ⟨hill, he⟩, hgood⟩
      exact ⟨t, before, p, after, rfl, hsplit, hgood, hill, he⟩
    · rintro ⟨_, before, p, after, ⟨⟩, hsplit, hgood, hill, he⟩
      exact ⟨before, p, after, hsplit, ⟨hill, he⟩, hgood⟩

theorem mem_fileFaults_iff :
    e ∈ c.fileFaults pathExists ↔ ∃ n v path, c.declared.get? n = some v ∧
      v.RequiresFile path ∧ pathExists path = false ∧ .missingFile n path = e := by
  simp only [fileFaults, List.mem_filterMap, VariableSource.fault?_eq_some_iff]
  constructor
  · rintro ⟨⟨n, source⟩, hmem, path, hfile, hmissing, he⟩
    rw [Dict.mem_entries_iff, sources, Dict.get?_map, Option.map_eq_some_iff] at hmem
    obtain ⟨v, hv, rfl⟩ := hmem
    exact ⟨n, v, path, hv, VariableSource.ofValue_eq_file_iff.mp hfile, hmissing, he⟩
  · rintro ⟨n, v, path, hv, hfile, hmissing, he⟩
    refine ⟨(n, .ofValue v), ?_, path, VariableSource.ofValue_eq_file_iff.mpr hfile, hmissing, he⟩
    rw [Dict.mem_entries_iff, sources, Dict.get?_map, hv, Option.map_some]

theorem validate_error_iff :
    c.validate pathExists = .error e ↔ (c.faults pathExists).head? = some e := by
  unfold validate
  cases c.faults pathExists <;> simp

theorem validate_ok_iff_wellFormed :
    c.validate pathExists = .ok () ↔ c.WellFormed pathExists := by
  rw [validate_ok_iff, faults_eq, List.append_eq_nil_iff, List.append_eq_nil_iff,
    stepFaults_eq_nil_iff, triggerFaults_eq_nil_iff, List.eq_nil_iff_forall_not_mem]
  simp only [mem_fileFaults_iff]
  constructor
  · rintro ⟨⟨hsteps, hpatterns⟩, hfiles⟩
    refine ⟨hsteps, hpatterns, fun n v path hv hfile => ?_⟩
    cases hpath : pathExists path with
    | true => rfl
    | false => exact absurd ⟨n, v, path, hv, hfile, hpath, rfl⟩ (hfiles (.missingFile n path))
  · rintro ⟨hsteps, hpatterns, hfiles⟩
    refine ⟨⟨hsteps, hpatterns⟩, fun x hx => ?_⟩
    obtain ⟨n, v, path, hv, hfile, hpath, -⟩ := hx
    rw [hfiles n v path hv hfile] at hpath
    cases hpath

/-- What is reported is the first fault of a step; else, if the steps fit, that of a pattern; else,
if the patterns fit, that of a file. -/
theorem validate_error_cases :
    c.validate pathExists = .error e ↔
      (StepConfig.allFaults c.secrets [] c.steps).head? = some e ∨
      c.StepsFit ∧ c.triggerFaults.head? = some e ∨
      c.StepsFit ∧ c.PatternsFit ∧ (c.fileFaults pathExists).head? = some e := by
  rw [validate_error_iff, faults_eq, head?_append_eq_some_iff, head?_append_eq_some_iff,
    List.append_eq_nil_iff, stepFaults_eq_nil_iff, triggerFaults_eq_nil_iff, or_assoc, and_assoc]

theorem stepFaults_head?_iff :
    (StepConfig.allFaults c.secrets [] c.steps).head? = some e ↔ ∃ before s after,
      c.steps = before ++ s :: after ∧ (before.map (·.id)).Nodup ∧
      (∀ x ∈ before, x.WellFormed c.secrets) ∧
      s.FirstFault c.secrets (before.map (·.id)) e := by
  rw [StepConfig.head?_allFaults_iff]
  simp only [StepConfig.allFaults_eq_nil_iff, List.append_nil, List.not_mem_nil, not_false_eq_true,
    implies_true, true_and, and_assoc]

end

/-- The check accepts a configuration exactly if it is well-formed, and otherwise reports its first
fault. The first fault of the steps and patterns is one and the same error. -/
theorem validate_accepts_wellFormed (pathExists : String → Bool) (c : PipelineConfig) :
    (c.validate pathExists = .ok () ↔ c.WellFormed pathExists) ∧
      (∀ e, c.validate pathExists = .error e → c.FirstFault pathExists e) ∧
      ∀ e, c.FirstFault pathExists e → (∀ n path, e ≠ .missingFile n path) →
        c.validate pathExists = .error e := by
  refine ⟨validate_ok_iff_wellFormed, fun e h => ?_, fun e h hother => ?_⟩
  · rcases validate_error_cases.mp h with hs | ⟨hsteps, ht⟩ | ⟨hsteps, hpatterns, hf⟩
    · obtain ⟨before, s, after, hsplit, hnodup, hwell, hfault⟩ := stepFaults_head?_iff.mp hs
      exact .step before s after e hsplit hnodup hwell hfault
    · obtain ⟨t, before, p, after, htrigger, hsplit, hgood, hill, rfl⟩ :=
        head?_triggerFaults_iff.mp ht
      exact .pattern t before p after hsteps htrigger hsplit hgood hill
    · obtain ⟨n, v, path, hv, hfile, hmissing, rfl⟩ :=
        mem_fileFaults_iff.mp (List.mem_of_head? hf)
      exact .file n v path hsteps hpatterns hv hfile hmissing
  · rw [validate_error_cases]
    cases h with
    | step before s after e hsplit hnodup hwell hfault =>
      exact Or.inl (stepFaults_head?_iff.mpr ⟨before, s, after, hsplit, hnodup, hwell, hfault⟩)
    | pattern t before p after hsteps htrigger hsplit hgood hill =>
      refine Or.inr (Or.inl ⟨hsteps, head?_triggerFaults_iff.mpr ?_⟩)
      exact ⟨t, before, p, after, htrigger, hsplit, hgood, hill, rfl⟩
    | file n v path => exact absurd rfl (hother n path)

end PipelineConfig

end PipelineRunner
