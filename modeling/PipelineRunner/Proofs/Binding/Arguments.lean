import Mathlib.Data.List.Forall2
import PipelineRunner.Proofs.Binding.Requests

/-!
# Command lines

A step declares its command line place by place: texts of its own, templates and mounts. Which places
there are depends on the step alone, and binding writes one argument for each, so no value adds,
removes, splits or moves an argument (`bind_fills_in_place`).
-/

namespace PipelineRunner

open Binding (Lookup lookupIn)
open Template (slots)

/-! ### Declared arguments -/

/-- What a step declares for one place of its command line. -/
inductive Argument
  | literal (text : String)
  | template (text : String)
  | volume (mount : Mount)
  deriving DecidableEq, Repr

namespace Argument

inductive FilledAs (value? : Lookup) : Argument → String → Prop
  | literal (text : String) : FilledAs value? (.literal text) text
  | template {t s : String} (h : Template.render t value? = .ok s) :
    FilledAs value? (.template t) s
  | volume {m : Mount} {source target : String}
    (hsource : Template.render m.source value? = .ok source)
    (htarget : Template.render m.target value? = .ok target) :
    FilledAs value? (.volume m) (source ++ ":" ++ target ++ if m.readOnly then ":ro" else "")

def templates : Argument → List String
  | literal _ => []
  | template t => [t]
  | volume m => [m.source, m.target]

def written (write : String → String) : Argument → String
  | literal text => text
  | template t => write t
  | volume m => write m.source ++ ":" ++ write m.target ++ if m.readOnly then ":ro" else ""

theorem filledAs_written {value? : Lookup} {a : Argument}
    (h : ∀ t ∈ a.templates, Template.render t value? = .ok (Template.written value? t)) :
    a.FilledAs value? (a.written (Template.written value?)) := by
  cases a with
  | literal text => exact .literal text
  | template t => exact .template (h t (by simp [templates]))
  | volume m =>
    have hsource := h m.source (by simp [templates])
    have htarget := h m.target (by simp [templates])
    exact .volume hsource htarget

theorem written_congr {v w : String → String} {a : Argument} (h : ∀ t ∈ a.templates, v t = w t) :
    a.written v = a.written w := by
  cases a with
  | literal text => rfl
  | template t => exact h t (by simp [templates])
  | volume m =>
    have hsource := h m.source (by simp [templates])
    have htarget := h m.target (by simp [templates])
    rw [written, written, hsource, htarget]

end Argument

/-! ### The line of a step -/

def Step.envNames (step : Step) : NameSet :=
  Dict.ofList ((step.env.keys ++ step.requiredEnv).map fun k => (k, ()))

/-- The program and the arguments that a step declares, in order. Without a command the program is
empty; in a container the command follows the runtime, its options and the image. -/
def Step.line (step : Step) : List Argument :=
  let command := step.command.map Argument.template
  match step.container with
  | none => if command.isEmpty then [.literal ""] else command
  | some c =>
    [.literal c.runtime, .literal "run", .literal "--rm"] ++
      (c.mounts.flatMap fun m => [.literal "-v", .volume m]) ++
      (c.workdir.toList.flatMap fun d => [.literal "-w", .template d]) ++
      (step.envNames.keys.flatMap fun k => [.literal "-e", .literal k]) ++
      .template c.image :: command

namespace Step

theorem envNames_contains (step : Step) (n : String) :
    step.envNames.contains n = (step.env.contains n || step.requiredEnv.contains n) := by
  have hnames : ∀ names : List String, (names.map fun k => (k, ())).map (·.1) = names := by
    intro names
    rw [List.map_map]
    exact List.map_id names
  rw [envNames, Dict.ofList, Dict.contains_foldl_insert, hnames, Dict.contains_empty,
    Bool.or_false, List.contains_append, Dict.contains_keys]

theorem line_written (step : Step) (write : String → String) :
    step.line.map (Argument.written write) =
      (step.lineWith write step.envNames.keys).1 ::
        (step.lineWith write step.envNames.keys).2 := by
  unfold line lineWith
  cases step.container with
  | none =>
    cases step.command with
    | nil => rfl
    | cons t rest => simp [Argument.written]
  | some c =>
    simp [Container.argsWith, Argument.written, List.map_flatMap, Function.comp_def]

theorem line_templates (step : Step) :
    step.line.flatMap Argument.templates =
      step.container.toList.flatMap Container.fillOrder ++ step.command := by
  have hcommand : (step.command.map Argument.template).flatMap Argument.templates =
      step.command := by
    rw [List.flatMap_map]
    exact List.flatMap_singleton' step.command
  unfold line
  cases step.container with
  | none =>
    cases hc : step.command with
    | nil => rfl
    | cons t rest => simpa [hc] using hcommand
  | some c =>
    simp [Container.fillOrder, Argument.templates, List.flatMap_assoc, hcommand]

theorem mem_bodyTemplates_of_line {step : Step} {a : Argument} (ha : a ∈ step.line) {t : String}
    (ht : t ∈ a.templates) : t ∈ step.bodyTemplates := by
  have hline : t ∈ step.line.flatMap Argument.templates := List.mem_flatMap.mpr ⟨a, ha, ht⟩
  rw [line_templates, List.mem_append] at hline
  simp only [bodyTemplates, List.mem_append]
  rcases hline with hcontainer | hcommand
  · exact Or.inr hcontainer
  · exact Or.inl (Or.inl (Or.inl hcommand))

end Step

/-! ### What a bound step holds -/

/-- A bound step holds what its step declares, with every template filled: the entries of the
environment from the context alone, all else from the bound environment and then the context. -/
structure BoundStep.Realizes (b : BoundStep) (step : Step) (context : Context) : Prop where
  env_keys : b.command.env.keys = step.envNames.keys
  env_contains : ∀ n, b.command.env.contains n = true ↔
    step.env.contains n = true ∨ n ∈ step.requiredEnv
  env_entry : ∀ n entry, step.env.get? n = some entry → ∃ v,
    Template.render entry context.lookup = .ok v ∧ b.command.env.get? n = some v
  env_required : ∀ n ∈ step.requiredEnv, step.env.get? n = none → ∃ v,
    context.lookup n = some v ∧ b.command.env.get? n = some v
  line : List.Forall₂ (Argument.FilledAs (lookupIn b.command.env context)) step.line
    (b.command.program :: b.command.args)
  workdir : Option.Rel (fun t s => Template.render t (lookupIn b.command.env context) = .ok s)
    step.workdir b.command.workdir
  publish : Option.Rel (fun declared filled : Artifact =>
      Template.render declared.file (lookupIn b.command.env context) = .ok filled.file ∧
        Template.render declared.key (lookupIn b.command.env context) = .ok filled.key)
    step.publishes b.publish

namespace Binding

variable {step : Step} {context : Context} {b : BoundStep}

theorem bind_env_keys (h : bind step context = .ok b) :
    b.command.env.keys = step.envNames.keys := by
  apply Dict.keys_eq_of_contains
  intro n
  rw [bind_env_contains_eq h, Step.envNames_contains]

theorem lookupIn_bound (h : bind step context = .ok b) :
    lookupIn b.command.env context = step.value? context := by
  obtain ⟨env, command, henv, -, -, -, -, hb, -⟩ := bind_eq_ok h
  rw [hb, lookupIn_eq_value? henv]

theorem bind_line (h : bind step context = .ok b) :
    b.command.program :: b.command.args =
      step.line.map (Argument.written (Template.written (step.value? context))) := by
  rw [Step.line_written, ← bind_env_keys h, ← (bind_fills h).line]

theorem render_entry (h : bind step context = .ok b) {n entry : String}
    (hentry : step.env.get? n = some entry) :
    Template.render entry context.lookup = .ok (Template.written context.lookup entry) := by
  apply Template.render_of_isSome
  intro m hm
  have hvalue : entry ∈ step.env.values := Dict.mem_values_iff.mpr ⟨n, hentry⟩
  have hbound : context.contains m = true :=
    (exists_bind_iff.mp ⟨b, h⟩).1 m (List.mem_flatMap.mpr ⟨entry, hvalue, hm⟩)
  rw [← Option.not_isNone, lookup_isNone, hbound]
  rfl

theorem render_body (h : bind step context = .ok b) {t : String} (ht : t ∈ step.bodyTemplates) :
    Template.render t (lookupIn b.command.env context) =
      .ok (Template.written (lookupIn b.command.env context) t) := by
  apply Template.render_of_isSome
  intro n hn
  have hbound := (exists_bind_iff.mp ⟨b, h⟩).2 n
    (List.mem_append_right _ (List.mem_flatMap.mpr ⟨t, ht, hn⟩))
  rw [← Option.not_isNone, lookupIn_isNone, bind_env_contains_eq h]
  rcases hbound with hentry | hcontext
  · simp [hentry]
  · simp [hcontext]

theorem filledAs_of_mem_line (h : bind step context = .ok b) {a : Argument} (ha : a ∈ step.line) :
    a.FilledAs (lookupIn b.command.env context)
      (a.written (Template.written (step.value? context))) := by
  rw [← lookupIn_bound h]
  apply Argument.filledAs_written
  intro t ht
  exact render_body h (Step.mem_bodyTemplates_of_line ha ht)

theorem bind_line_getElem? (h : bind step context = .ok b) {i : Nat} {a : Argument}
    (hi : step.line[i]? = some a) :
    ∃ s, (b.command.program :: b.command.args)[i]? = some s ∧
      a.FilledAs (lookupIn b.command.env context) s := by
  refine ⟨_, ?_, filledAs_of_mem_line h (List.mem_of_getElem? hi)⟩
  rw [bind_line h, List.getElem?_map, hi, Option.map_some]

theorem bind_realizes (h : bind step context = .ok b) : b.Realizes step context where
  env_keys := bind_env_keys h
  env_contains := by
    intro n
    rw [bind_env_contains_eq h, Bool.or_eq_true, List.contains_iff_mem]
  env_entry := by
    intro n entry hentry
    have hn : step.env.contains n = true := Dict.contains_iff_exists.mpr ⟨entry, hentry⟩
    refine ⟨_, render_entry h hentry, ?_⟩
    rw [(bind_fills h).env, if_pos (Or.inl hn), Step.value?, hentry]
  env_required := by
    intro n hn hentry
    have hget := (bind_fills h).env n
    rw [if_pos (Or.inr hn), Step.value?, hentry] at hget
    have hcontains : b.command.env.contains n = true := by
      rw [bind_env_contains_eq h, Bool.or_eq_true, List.contains_iff_mem]
      exact Or.inr hn
    obtain ⟨v, hv⟩ := Dict.contains_iff_exists.mp hcontains
    exact ⟨v, hget.symm.trans hv, hv⟩
  line := by
    rw [bind_line h, List.forall₂_map_right_iff, List.forall₂_same]
    exact fun a ha => filledAs_of_mem_line h ha
  workdir := by
    rw [(bind_fills h).workdir, ← lookupIn_bound h]
    cases hw : step.workdir with
    | none => exact .none
    | some t => exact .some (render_body h (by simp [Step.bodyTemplates, hw]))
  publish := by
    rw [(bind_fills h).publish, ← lookupIn_bound h]
    cases hp : step.publishes with
    | none => exact .none
    | some a =>
      refine .some ⟨render_body h ?_, render_body h ?_⟩
      · simp [Step.bodyTemplates, hp]
      · simp [Step.bodyTemplates, hp]

/-- A bound step holds what its step declares, filled place by place. In any two contexts its command
line has the same number of arguments, and each stands where the step declares it. -/
theorem bind_fills_in_place (h : bind step context = .ok b) :
    b.Realizes step context ∧
      ∀ other c, bind step other = .ok c →
        c.command.args.length = b.command.args.length ∧
        ∀ (i : Nat) (a : Argument), step.line[i]? = some a → ∃ s t,
          (b.command.program :: b.command.args)[i]? = some s ∧
          (c.command.program :: c.command.args)[i]? = some t ∧
          a.FilledAs (lookupIn b.command.env context) s ∧
          a.FilledAs (lookupIn c.command.env other) t := by
  have hb := bind_realizes h
  refine ⟨hb, fun other c hc => ⟨?_, fun i a hi => ?_⟩⟩
  · have hline := (bind_realizes hc).line.length_eq.symm.trans hb.line.length_eq
    simpa using hline
  · obtain ⟨s, hs, hfilled⟩ := bind_line_getElem? h hi
    obtain ⟨t, ht, hfilled'⟩ := bind_line_getElem? hc hi
    exact ⟨s, t, hs, ht, hfilled, hfilled'⟩

def generateStep : Step :=
  { Step.ofCommand "generate" ["sbt", "test:runMain \x7b\x7b class \x7d\x7d"] with
    env := Dict.ofList [("REGION", "eu-\x7b\x7b branch \x7d\x7d")]
    requiredEnv := ["TOKEN", "REGION"]
    container := some
      { runtime := "docker", image := "dev:\x7b\x7bversion\x7d\x7d"
        mounts := [{ source := "/work/\x7b\x7b branch \x7d\x7d", target := "/src", readOnly := true }]
        workdir := some "/src" } }

def generateContext (branch className : String) : Context :=
  (((Context.empty.setVariable "branch" branch).setVariable "class" className).setVariable
    "version" "1.4.0").setSecret "TOKEN" "tok"

def generateArgs (branch className : String) : List String :=
  ["run", "--rm", "-v", "/work/" ++ branch ++ ":/src:ro", "-w", "/src", "-e", "REGION",
    "-e", "TOKEN", "dev:1.4.0", "sbt", "test:runMain " ++ className]

/-- A value with blanks, quotes, dashes and braces fills the place of its template. -/
theorem generate_fills_in_place :
    ∃ b c, bind generateStep (generateContext "devel" "Main") = .ok b ∧
      bind generateStep (generateContext "a --rm" "\"x\" -e \x7b\x7b TOKEN \x7d\x7d") = .ok c ∧
      b.command.args = generateArgs "devel" "Main" ∧
      c.command.args = generateArgs "a --rm" "\"x\" -e \x7b\x7b TOKEN \x7d\x7d" ∧
      b.Realizes generateStep (generateContext "devel" "Main") ∧
      c.command.args.length = b.command.args.length := by
  have hb : (bind generateStep (generateContext "devel" "Main")).map (·.command.args) =
      .ok (generateArgs "devel" "Main") := by decide +kernel
  have hc : (bind generateStep
      (generateContext "a --rm" "\"x\" -e \x7b\x7b TOKEN \x7d\x7d")).map (·.command.args) =
      .ok (generateArgs "a --rm" "\"x\" -e \x7b\x7b TOKEN \x7d\x7d") := by decide +kernel
  obtain ⟨b, hb, hbargs⟩ := exists_of_map_eq_ok hb
  obtain ⟨c, hc, hcargs⟩ := exists_of_map_eq_ok hc
  obtain ⟨hrealizes, hplaces⟩ := bind_fills_in_place hb
  exact ⟨b, c, hb, hc, hbargs, hcargs, hrealizes, (hplaces _ c hc).1⟩

end Binding

end PipelineRunner
