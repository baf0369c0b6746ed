import PipelineRunner.Proofs.Binding.Values

/-!
# Requests

A step asks for names in a fixed order: for those in its environment entries, which only the context
can provide, then for the required ones and those in all other templates, which its entries can
provide as well. The first request that is not met is the error, and if all are met the step is
bound. Values enter the texts of a bound step as they are: what is filled are the step's templates
alone, so braces in a value stand for themselves.
-/

namespace PipelineRunner

open Template (slots)

/-- What a name in the templates of a step stands for: the step's entry, filled from the context, or
else the value of the context. -/
def Step.value? (step : Step) (context : Context) (n : String) : Option String :=
  match step.env.get? n with
  | some entry => some (Template.written context.lookup entry)
  | none => context.lookup n

def Container.argsWith (c : Container) (write : String → String) (entries command : List String) :
    List String :=
  ["run", "--rm"] ++
    (c.mounts.flatMap fun m =>
      ["-v", write m.source ++ ":" ++ write m.target ++ if m.readOnly then ":ro" else ""]) ++
    (c.workdir.toList.flatMap fun d => ["-w", write d]) ++ (entries.flatMap fun k => ["-e", k]) ++
    write c.image :: command

def Step.lineWith (step : Step) (write : String → String) (entries : List String) :
    String × List String :=
  let command := step.command.map write
  match step.container with
  | none => (command.headD "", command.tail)
  | some c => (c.runtime, c.argsWith write entries command)

/-- A bound step whose texts are those of the step, with the value of each slot in its place. -/
structure BoundStep.Fills (b : BoundStep) (step : Step) (context : Context) : Prop where
  env : ∀ n, b.command.env.get? n =
    if step.env.contains n = true ∨ n ∈ step.requiredEnv then step.value? context n else none
  line : (b.command.program, b.command.args) =
    step.lineWith (Template.written (step.value? context)) b.command.env.keys
  workdir : b.command.workdir = step.workdir.map (Template.written (step.value? context))
  publish : b.publish = step.publishes.map fun a =>
    { file := Template.written (step.value? context) a.file
      key := Template.written (step.value? context) a.key }

namespace Binding

section
variable {value? : Lookup} {context : Context} {env : Dict String} {step : Step} {b : BoundStep}

theorem fill_eq_written {t s : String} (h : fill value? t = .ok s) :
    s = Template.written value? t :=
  Template.render_eq_written (render_of_fill h)

theorem fillOption_eq_written {t r : Option String} (h : fillOption value? t = .ok r) :
    r = t.map (Template.written value?) := by
  cases t with
  | none =>
    cases h
    rfl
  | some t =>
    obtain ⟨s, hs, rfl⟩ := exists_of_map_eq_ok h
    rw [fill_eq_written hs, Option.map_some]

theorem fillAll_eq_written {ts r : List String} (h : fillAll value? ts = .ok r) :
    r = ts.map (Template.written value?) := by
  induction ts generalizing r with
  | nil =>
    cases h
    rfl
  | cons t rest ih =>
    obtain ⟨first, hfirst, h⟩ := exists_of_bind_eq_ok h
    obtain ⟨others, hothers, h⟩ := exists_of_bind_eq_ok h
    cases h
    rw [fill_eq_written hfirst, ih hothers, List.map_cons]

theorem bindArtifact_eq_written {a r : Option Artifact} (h : bindArtifact value? a = .ok r) :
    r = a.map fun a =>
      { file := Template.written value? a.file, key := Template.written value? a.key } := by
  cases a with
  | none =>
    cases h
    rfl
  | some a =>
    obtain ⟨file, key, hfile, hkey, rfl⟩ := bindArtifact_some h
    rw [fill_eq_written hfile, fill_eq_written hkey, Option.map_some]

theorem mountArgs_eq_written {ms : List Mount} {r : List String}
    (h : mountArgs value? ms = .ok r) :
    r = ms.flatMap fun m => ["-v", Template.written value? m.source ++ ":" ++
      Template.written value? m.target ++ if m.readOnly then ":ro" else ""] := by
  induction ms generalizing r with
  | nil =>
    cases h
    rfl
  | cons m rest ih =>
    obtain ⟨source, hsource, h⟩ := exists_of_bind_eq_ok h
    obtain ⟨target, htarget, h⟩ := exists_of_bind_eq_ok h
    obtain ⟨others, hothers, h⟩ := exists_of_bind_eq_ok h
    cases h
    rw [fill_eq_written hsource, fill_eq_written htarget, ih hothers]
    rfl

theorem bindProgram_eq_written {command : List String} {r : String × List String}
    (hcommand : fillAll value? step.command = .ok command)
    (h : bindProgram value? env step.container command = .ok r) :
    r = step.lineWith (Template.written value?) env.keys := by
  have hwritten := fillAll_eq_written hcommand
  unfold Step.lineWith
  cases hc : step.container with
  | none =>
    rw [hc] at h
    cases h
    rw [hwritten]
  | some c =>
    rw [hc] at h
    obtain ⟨args, hargs, rfl⟩ := exists_of_map_eq_ok h
    obtain ⟨mounts, hmounts, hargs⟩ := exists_of_bind_eq_ok hargs
    obtain ⟨dir, hdir, hargs⟩ := exists_of_bind_eq_ok hargs
    obtain ⟨image, himage, hargs⟩ := exists_of_bind_eq_ok hargs
    cases hargs
    rw [mountArgs_eq_written hmounts, fillOption_eq_written hdir, fill_eq_written himage, hwritten]
    cases hw : c.workdir <;> simp [Container.argsWith, hw]

theorem lookupIn_eq_value? (henv : bindEnv step context = .ok env) :
    lookupIn env context = step.value? context := by
  funext n
  cases h : lookupIn env context n with
  | some v =>
    unfold Step.value?
    rcases lookupIn_eq_some henv h with ⟨entry, hentry, hfill⟩ | ⟨hentry, hv⟩
    · rw [hentry, fill_eq_written hfill]
    · rw [hentry, hv]
  | none =>
    obtain ⟨hget, hlookup⟩ := Option.or_eq_none_iff.mp h
    have hcontains := bindEnv_contains henv n
    rw [Dict.contains, hget, Option.isSome_none, eq_comm, Bool.or_eq_false_iff] at hcontains
    have hentry : step.env.get? n = none :=
      Option.isNone_iff_eq_none.mp (Option.isSome_eq_false_iff.mp hcontains.1)
    rw [Step.value?, hentry, hlookup]

theorem bindEnv_get? (henv : bindEnv step context = .ok env) (n : String) :
    env.get? n =
      if step.env.contains n = true ∨ n ∈ step.requiredEnv then step.value? context n
      else none := by
  have hcontains : (env.get? n).isSome = (step.env.contains n || step.requiredEnv.contains n) :=
    bindEnv_contains henv n
  have hvalue : lookupIn env context n = step.value? context n := by
    rw [lookupIn_eq_value? henv]
  cases hget : env.get? n with
  | some v =>
    rw [lookupIn, hget, Option.some_or] at hvalue
    rw [hget, Option.isSome_some, eq_comm, Bool.or_eq_true, List.contains_iff_mem] at hcontains
    rw [if_pos hcontains, ← hvalue]
  | none =>
    rw [hget, Option.isSome_none, eq_comm, Bool.or_eq_false_iff] at hcontains
    have hnot : ¬ (step.env.contains n = true ∨ n ∈ step.requiredEnv) := by
      rintro (hn | hn)
      · exact Bool.false_ne_true (hcontains.1.symm.trans hn)
      · exact Bool.false_ne_true (hcontains.2.symm.trans (List.contains_iff_mem.mpr hn))
    rw [if_neg hnot]

theorem bind_fills (h : bind step context = .ok b) : b.Fills step context := by
  obtain ⟨env, command, henv, hcommand, hworkdir, hpublish, hprogram, hbenv, -⟩ := bind_eq_ok h
  rw [lookupIn_eq_value? henv] at hcommand hworkdir hpublish hprogram
  refine ⟨?_, ?_, fillOption_eq_written hworkdir, bindArtifact_eq_written hpublish⟩
  · rw [hbenv]
    exact bindEnv_get? henv
  · rw [hbenv]
    exact bindProgram_eq_written hcommand hprogram

end

/-! ### Requests -/

/-- A name that binding asks for, and whether an entry of the step may provide it. -/
structure Request where
  name : String
  fromEntries : Bool
  deriving DecidableEq, Repr

def Request.isMet (step : Step) (context : Context) (r : Request) : Bool :=
  context.contains r.name || r.fromEntries && step.env.contains r.name

end Binding

def Step.requests (step : Step) : List Binding.Request :=
  (step.env.values.flatMap slots).map (⟨·, false⟩) ++
    (step.requiredEnv ++ step.bodyTemplates.flatMap slots).map (⟨·, true⟩)

namespace Binding

section
variable {step : Step} {context : Context}

theorem firstLacking_eq_find? {value? : Lookup} {fromEntries : Bool}
    (h : ∀ n, (value? n).isNone = !Request.isMet step context ⟨n, fromEntries⟩)
    (names : List String) :
    firstLacking value? names =
      ((names.map (⟨·, fromEntries⟩)).find? fun r => !Request.isMet step context r).map
        (·.name) := by
  rw [List.find?_map, Option.map_map, firstLacking, funext h]
  exact Option.map_id_apply.symm

/-- A step misses the name of its first request that is not met. -/
theorem missing?_eq (step : Step) (context : Context) :
    missing? step context =
      (step.requests.find? fun r => !r.isMet step context).map (·.name) := by
  have hcontext : ∀ n, (context.lookup n).isNone = !Request.isMet step context ⟨n, false⟩ := by
    intro n
    rw [lookup_isNone, Request.isMet, Bool.false_and, Bool.or_false]
  have hentries : ∀ n, (lookupIn step.env context n).isNone =
      !Request.isMet step context ⟨n, true⟩ := by
    intro n
    rw [lookupIn_isNone, Request.isMet, Bool.true_and, Bool.or_comm]
  rw [missing?, Step.requests, firstLacking_eq_find? hcontext, firstLacking_eq_find? hentries,
    List.find?_append, Option.map_or]

theorem bind_eq_error_iff {e : StepError} :
    bind step context = .error e ↔
      ∃ before r after, step.requests = before ++ r :: after ∧
        (∀ q ∈ before, q.isMet step context = true) ∧ r.isMet step context = false ∧
        e = .missingVariable r.name := by
  have hmissing := bind_misses step context
  constructor
  · intro h
    obtain ⟨key, rfl⟩ := bind_missesOnly step context e h
    have hkey := (hmissing.eq_some_iff key).mpr h
    rw [missing?_eq] at hkey
    obtain ⟨r, hr, rfl⟩ := Option.map_eq_some_iff.mp hkey
    obtain ⟨hunmet, before, after, hsplit, hbefore⟩ := List.find?_eq_some_iff_append.mp hr
    refine ⟨before, r, after, hsplit, fun q hq => ?_, by simpa using hunmet, rfl⟩
    simpa using hbefore q hq
  · rintro ⟨before, r, after, hsplit, hbefore, hunmet, rfl⟩
    apply (hmissing.eq_some_iff r.name).mp
    rw [missing?_eq]
    apply Option.map_eq_some_iff.mpr
    refine ⟨r, List.find?_eq_some_iff_append.mpr ⟨by simp [hunmet], before, after, hsplit, ?_⟩, rfl⟩
    intro q hq
    simp [hbefore q hq]

theorem exists_bind_iff_requests :
    (∃ b, bind step context = .ok b) ↔ ∀ r ∈ step.requests, r.isMet step context = true := by
  rw [← (bind_misses step context).eq_none_iff, missing?_eq, Option.map_eq_none_iff,
    List.find?_eq_none]
  simp

end

/-- A step is bound exactly if every request is met, and otherwise the error names the first that is
not. So contexts that provide the same names decide alike, whatever the values, and a value that
looks like a template is put into the texts of the bound step as it is. -/
theorem bind_decided_by_names (step : Step) (context : Context) :
    ((∃ b, bind step context = .ok b) ↔ ∀ r ∈ step.requests, r.isMet step context = true) ∧
    (∀ e, bind step context = .error e ↔
      ∃ before r after, step.requests = before ++ r :: after ∧
        (∀ q ∈ before, q.isMet step context = true) ∧ r.isMet step context = false ∧
        e = .missingVariable r.name) ∧
    (∀ other : Context, (∀ n, other.contains n = context.contains n) →
      ((∃ b, bind step other = .ok b) ↔ ∃ b, bind step context = .ok b) ∧
      ∀ e, bind step other = .error e ↔ bind step context = .error e) ∧
    ∀ b, bind step context = .ok b → b.Fills step context := by
  refine ⟨exists_bind_iff_requests, fun e => bind_eq_error_iff, fun other hnames => ?_,
    fun b => bind_fills⟩
  have hmet : ∀ r : Request, r.isMet step other = r.isMet step context := by
    intro r
    rw [Request.isMet, Request.isMet, hnames]
  refine ⟨?_, fun e => ?_⟩
  · rw [exists_bind_iff_requests, exists_bind_iff_requests]
    simp only [hmet]
  · rw [bind_eq_error_iff, bind_eq_error_iff]
    simp only [hmet]

end Binding

end PipelineRunner
