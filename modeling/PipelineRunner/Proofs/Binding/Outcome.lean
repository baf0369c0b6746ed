import PipelineRunner.Proofs.Binding.Environment
import PipelineRunner.Proofs.Template

/-!
# Outcomes of binding

Every function of the binder asks for names in a fixed order, and either succeeds or names the first
that has no value; `missing?` computes that name for a step. The other reasons for which a step can
halt a run arise after its process was asked for. `bind_eq_ok` takes a bound step apart into what
its parts were bound to.
-/

namespace PipelineRunner

/-! ### What a step asks for -/

def Container.fillOrder (c : Container) : List String :=
  (c.mounts.flatMap fun m => [m.source, m.target]) ++ c.workdir.toList ++ [c.image]

def Step.bodyTemplates (s : Step) : List String :=
  s.command ++ s.workdir.toList ++ (s.publishes.toList.flatMap fun a => [a.file, a.key]) ++
    s.container.toList.flatMap Container.fillOrder

namespace Binding

open Template (slots)

def firstLacking (value? : Lookup) (names : List String) : Option String :=
  names.find? fun n => (value? n).isNone

/-- The name that a step misses in a context: its entries are filled from the context alone, and all
else also from its entries. -/
def missing? (step : Step) (context : Context) : Option String :=
  (firstLacking context.lookup (step.env.values.flatMap slots)).or
    (firstLacking (lookupIn step.env context)
      (step.requiredEnv ++ step.bodyTemplates.flatMap slots))

theorem firstLacking_append (value? : Lookup) (l m : List String) :
    firstLacking value? (l ++ m) = (firstLacking value? l).or (firstLacking value? m) :=
  List.find?_append

theorem firstLacking_eq_none_iff {value? : Lookup} {names : List String} :
    firstLacking value? names = none ↔ ∀ n ∈ names, (value? n).isSome = true := by
  simp only [firstLacking, List.find?_eq_none, Bool.not_eq_true, Option.isNone_eq_false_iff]

theorem firstLacking_congr {v w : Lookup} {names : List String}
    (h : ∀ n ∈ names, (v n).isNone = (w n).isNone) :
    firstLacking v names = firstLacking w names := by
  unfold firstLacking
  induction names with
  | nil => rfl
  | cons n rest ih =>
    have hrest := ih fun m hm => h m (List.mem_cons_of_mem n hm)
    rw [List.find?_cons, List.find?_cons, h n List.mem_cons_self, hrest]

theorem mem_of_firstLacking {value? : Lookup} {names : List String} {n : String}
    (h : firstLacking value? names = some n) : n ∈ names :=
  List.mem_of_find?_eq_some h

theorem lookup_isNone (context : Context) (n : String) :
    (context.lookup n).isNone = !context.contains n := by
  unfold Context.lookup Context.contains Context.plain? Dict.contains
  cases context.secrets.get? n <;> cases context.plain.get? n <;> rfl

theorem lookupIn_isNone (env : Dict String) (context : Context) (n : String) :
    (lookupIn env context n).isNone = !(env.contains n || context.contains n) := by
  have h := lookup_isNone context n
  unfold lookupIn Dict.contains
  cases env.get? n with
  | none => simpa using h
  | some v => rfl

/-! ### Outcomes -/

/-- An outcome that names a missing variable, if there is one, and is a result otherwise. -/
def Misses {α : Type} (name? : Option String) (x : Except StepError α) : Prop :=
  match name? with
  | none => ∃ a, x = .ok a
  | some key => x = .error (.missingVariable key)

def MissesOnly {α : Type} (x : Except StepError α) : Prop :=
  ∀ e, x = .error e → ∃ key, e = .missingVariable key

section
variable {α β : Type} {name? other? : Option String}

theorem misses_ok (a : α) : Misses none (.ok a) := ⟨a, rfl⟩

theorem Misses.bind {x : Except StepError α} {f : α → Except StepError β} (hx : Misses name? x)
    (hf : ∀ a, x = .ok a → Misses other? (f a)) : Misses (name?.or other?) (x >>= f) := by
  cases name? with
  | none =>
    obtain ⟨a, rfl⟩ := hx
    exact hf a rfl
  | some key =>
    have hx : x = .error (.missingVariable key) := hx
    subst hx
    rfl

theorem Misses.map {x : Except StepError α} (f : α → β) (hx : Misses name? x) :
    Misses name? (x.map f) := by
  cases name? with
  | none =>
    obtain ⟨a, rfl⟩ := hx
    exact ⟨f a, rfl⟩
  | some key =>
    have hx : x = .error (.missingVariable key) := hx
    subst hx
    rfl

theorem Misses.andThen {x : Except StepError α} {f : α → Except StepError β} (hx : Misses name? x)
    (hf : ∀ a, ∃ b, f a = .ok b) : Misses name? (x >>= f) := by
  have h : Misses (name?.or none) (x >>= f) := hx.bind fun a _ => hf a
  rwa [Option.or_none] at h

theorem Misses.missesOnly {x : Except StepError α} (h : Misses name? x) : MissesOnly x := by
  intro e he
  cases name? with
  | none =>
    obtain ⟨a, ha⟩ := h
    rw [ha] at he
    cases he
  | some key =>
    have h : x = .error (.missingVariable key) := h
    rw [h] at he
    cases he
    exact ⟨key, rfl⟩

theorem Misses.eq_none_iff {x : Except StepError α} (h : Misses name? x) :
    name? = none ↔ ∃ a, x = .ok a := by
  cases name? with
  | none => exact ⟨fun _ => h, fun _ => rfl⟩
  | some key =>
    have h : x = .error (.missingVariable key) := h
    simp [h]

theorem Misses.eq_some_iff {x : Except StepError α} (h : Misses name? x) (key : String) :
    name? = some key ↔ x = .error (.missingVariable key) := by
  cases name? with
  | none =>
    obtain ⟨a, ha⟩ := h
    simp [ha]
  | some k =>
    have h : x = .error (.missingVariable k) := h
    simp [h]

end

/-! ### The functions of the binder -/

theorem fill_misses (value? : Lookup) (t : String) :
    Misses (firstLacking value? (slots t)) (fill value? t) := by
  cases h : firstLacking value? (slots t) with
  | none =>
    obtain ⟨s, hs⟩ := Template.render_of_find?_none h
    exact ⟨s, by rw [fill, hs]; rfl⟩
  | some key =>
    have hs := Template.render_of_find?_some h
    show fill value? t = _
    rw [fill, hs]
    rfl

theorem fillOption_misses (value? : Lookup) (t : Option String) :
    Misses (firstLacking value? (t.toList.flatMap slots)) (fillOption value? t) := by
  cases t with
  | none => exact misses_ok none
  | some t =>
    rw [Option.toList_some, List.flatMap_singleton]
    exact (fill_misses value? t).map some

theorem fillAll_misses (value? : Lookup) (ts : List String) :
    Misses (firstLacking value? (ts.flatMap slots)) (fillAll value? ts) := by
  induction ts with
  | nil => exact misses_ok []
  | cons t rest ih =>
    rw [List.flatMap_cons, firstLacking_append]
    exact (fill_misses value? t).bind fun a _ => ih.andThen fun as => ⟨a :: as, rfl⟩

theorem bindEntries_misses (context : Context) (env : Dict String)
    (es : List (String × String)) :
    Misses (firstLacking context.lookup ((es.map (·.2)).flatMap slots))
      (bindEntries context env es) := by
  induction es generalizing env with
  | nil => exact misses_ok env
  | cons e rest ih =>
    rw [List.map_cons, List.flatMap_cons, firstLacking_append]
    exact (fill_misses context.lookup e.2).bind fun v _ => ih (env.insert e.1 v)

theorem bindRequired_misses (context : Context) (env : Dict String) (keys : List String) :
    Misses (firstLacking (lookupIn env context) keys) (bindRequired context env keys) := by
  induction keys generalizing env with
  | nil => exact misses_ok env
  | cons key rest ih =>
    have hkey := lookupIn_isNone env context key
    unfold bindRequired firstLacking
    rw [List.find?_cons, hkey]
    by_cases henv : env.contains key = true
    · rw [if_pos henv, henv]
      exact ih env
    · rw [if_neg henv, Bool.eq_false_iff.mpr henv, Bool.false_or]
      have hlookup := lookup_isNone context key
      cases hv : context.lookup key with
      | none =>
        rw [← hlookup, hv]
        rfl
      | some v =>
        -- the value now in the environment was in the context before
        have hsame : firstLacking (lookupIn (env.insert key v) context) rest =
            firstLacking (lookupIn env context) rest := by
          refine firstLacking_congr fun n _ => ?_
          rw [lookupIn_isNone, lookupIn_isNone, Dict.contains_insert]
          by_cases hn : n = key
          · rw [hv] at hlookup
            simp [hn, ← hlookup]
          · rw [beq_false_of_ne hn, Bool.false_or]
        have h := ih (env.insert key v)
        rw [hsame] at h
        rw [← hlookup, hv]
        exact h

theorem bindEnv_misses (step : Step) (context : Context) :
    Misses ((firstLacking context.lookup (step.env.values.flatMap slots)).or
      (firstLacking (lookupIn step.env context) step.requiredEnv)) (bindEnv step context) := by
  refine (bindEntries_misses context Dict.empty step.env.entries).bind fun env henv => ?_
  have hsame : firstLacking (lookupIn env context) step.requiredEnv =
      firstLacking (lookupIn step.env context) step.requiredEnv := by
    refine firstLacking_congr fun n _ => ?_
    rw [lookupIn_isNone, lookupIn_isNone, bindEntries_eq_contains henv]
  rw [← hsame]
  exact bindRequired_misses context env step.requiredEnv

theorem bindArtifact_misses (value? : Lookup) (a : Option Artifact) :
    Misses (firstLacking value? ((a.toList.flatMap fun a => [a.file, a.key]).flatMap slots))
      (bindArtifact value? a) := by
  cases a with
  | none => exact misses_ok none
  | some a =>
    simp only [Option.toList_some, List.flatMap_cons, List.flatMap_nil, List.append_nil,
      firstLacking_append]
    exact (fill_misses value? a.file).bind fun file _ =>
      (fill_misses value? a.key).andThen fun key => ⟨some ⟨file, key⟩, rfl⟩

theorem mountArgs_misses (value? : Lookup) (ms : List Mount) :
    Misses (firstLacking value? ((ms.flatMap fun m => [m.source, m.target]).flatMap slots))
      (mountArgs value? ms) := by
  induction ms with
  | nil => exact misses_ok []
  | cons m rest ih =>
    simp only [List.flatMap_cons, List.cons_append, List.nil_append, firstLacking_append]
    exact (fill_misses value? m.source).bind fun _ _ =>
      (fill_misses value? m.target).bind fun _ _ => ih.andThen fun _ => ⟨_, rfl⟩

theorem containerArgs_misses (value? : Lookup) (env : Dict String) (c : Container)
    (command : List String) :
    Misses (firstLacking value? (c.fillOrder.flatMap slots))
      (containerArgs value? env c command) := by
  simp only [Container.fillOrder, List.flatMap_append, List.flatMap_singleton,
    firstLacking_append, Option.or_assoc]
  exact (mountArgs_misses value? c.mounts).bind fun _ _ =>
    (fillOption_misses value? c.workdir).bind fun _ _ =>
      (fill_misses value? c.image).andThen fun _ => ⟨_, rfl⟩

theorem bindProgram_misses (value? : Lookup) (env : Dict String) (c : Option Container)
    (command : List String) :
    Misses (firstLacking value? ((c.toList.flatMap Container.fillOrder).flatMap slots))
      (bindProgram value? env c command) := by
  cases c with
  | none => exact misses_ok _
  | some c =>
    rw [Option.toList_some, List.flatMap_singleton]
    exact (containerArgs_misses value? env c command).map _

theorem lookupIn_isNone_of_bindEnv {step : Step} {context : Context} {env : Dict String}
    (h : bindEnv step context = .ok env) (n : String) :
    (lookupIn env context n).isNone = (lookupIn step.env context n).isNone := by
  have hnone := (bindEnv_misses step context).eq_none_iff.mpr ⟨env, h⟩
  have hrequired := firstLacking_eq_none_iff.mp (Option.or_eq_none_iff.mp hnone).2
  rw [lookupIn_isNone, lookupIn_isNone, bindEnv_contains h]
  -- a required name got its value from an entry or the context, or binding would have failed
  by_cases hn : n ∈ step.requiredEnv
  · have hbound := hrequired n hn
    rw [← Option.not_isNone, lookupIn_isNone, Bool.not_not, Bool.or_eq_true] at hbound
    rcases hbound with hbound | hbound
    · simp [hbound]
    · simp [hbound]
  · have hfalse : step.requiredEnv.contains n = false := by
      rw [Bool.eq_false_iff]
      exact fun h => hn (List.contains_iff_mem.mp h)
    rw [hfalse, Bool.or_false]

/-- Binding a step names the variable it misses, if there is one, and succeeds otherwise. -/
theorem bind_misses (step : Step) (context : Context) :
    Misses (missing? step context) (bind step context) := by
  unfold missing?
  rw [firstLacking_append, ← Option.or_assoc]
  refine (bindEnv_misses step context).bind fun env henv => ?_
  rw [← firstLacking_congr fun n _ => lookupIn_isNone_of_bindEnv henv n]
  simp only [Step.bodyTemplates, List.flatMap_append, firstLacking_append, Option.or_assoc]
  exact (fillAll_misses _ step.command).bind fun _ _ =>
    (fillOption_misses _ step.workdir).bind fun _ _ =>
      (bindArtifact_misses _ step.publishes).bind fun _ _ =>
        (bindProgram_misses _ env step.container _).andThen fun _ => ⟨_, rfl⟩

theorem bind_missesOnly (step : Step) (context : Context) : MissesOnly (bind step context) :=
  (bind_misses step context).missesOnly

theorem exists_bind_iff {step : Step} {context : Context} :
    (∃ b, bind step context = .ok b) ↔
      (∀ n ∈ step.env.values.flatMap slots, context.contains n = true) ∧
        ∀ n ∈ step.requiredEnv ++ step.bodyTemplates.flatMap slots,
          step.env.contains n = true ∨ context.contains n = true := by
  rw [← (bind_misses step context).eq_none_iff, missing?, Option.or_eq_none_iff,
    firstLacking_eq_none_iff, firstLacking_eq_none_iff]
  simp only [← Option.not_isNone, lookup_isNone, lookupIn_isNone, Bool.not_not, Bool.or_eq_true]

/-! ### The parts of a bound step -/

theorem bind_eq_ok {step : Step} {context : Context} {b : BoundStep}
    (h : bind step context = .ok b) :
    ∃ env command,
      bindEnv step context = .ok env ∧
      fillAll (lookupIn env context) step.command = .ok command ∧
      fillOption (lookupIn env context) step.workdir = .ok b.command.workdir ∧
      bindArtifact (lookupIn env context) step.publishes = .ok b.publish ∧
      bindProgram (lookupIn env context) env step.container command =
        .ok (b.command.program, b.command.args) ∧
      b.command.env = env ∧ b.command.withheldEnv = withheld context env ∧
      b.command.timeoutSecs = step.timeoutSecs := by
  obtain ⟨env, henv, h⟩ := exists_of_bind_eq_ok h
  obtain ⟨command, hcommand, h⟩ := exists_of_bind_eq_ok h
  obtain ⟨workdir, hworkdir, h⟩ := exists_of_bind_eq_ok h
  obtain ⟨publish, hpublish, h⟩ := exists_of_bind_eq_ok h
  obtain ⟨⟨program, args⟩, hprogram, h⟩ := exists_of_bind_eq_ok h
  cases h
  exact ⟨env, command, henv, hcommand, hworkdir, hpublish, hprogram, rfl, rfl, rfl⟩

theorem bind_env_contains_eq {step : Step} {context : Context} {b : BoundStep}
    (h : bind step context = .ok b) (n : String) :
    b.command.env.contains n = (step.env.contains n || step.requiredEnv.contains n) := by
  obtain ⟨env, command, henv, -, -, -, -, hb, -⟩ := bind_eq_ok h
  rw [hb, bindEnv_contains henv]

theorem bind_withheldEnv {step : Step} {context : Context} {b : BoundStep}
    (h : bind step context = .ok b) :
    b.command.withheldEnv = withheld context b.command.env := by
  obtain ⟨env, command, -, -, -, -, -, hb, hwithheld, -⟩ := bind_eq_ok h
  rw [hwithheld, hb]

theorem bind_timeoutSecs {step : Step} {context : Context} {b : BoundStep}
    (h : bind step context = .ok b) : b.command.timeoutSecs = step.timeoutSecs := by
  obtain ⟨env, command, -, -, -, -, -, -, -, htimeout⟩ := bind_eq_ok h
  exact htimeout

theorem bindArtifact_some {value? : Lookup} {a : Artifact} {r : Option Artifact}
    (h : bindArtifact value? (some a) = .ok r) :
    ∃ file key, fill value? a.file = .ok file ∧ fill value? a.key = .ok key ∧
      r = some ⟨file, key⟩ := by
  obtain ⟨file, hfile, h⟩ := exists_of_bind_eq_ok h
  obtain ⟨key, hkey, h⟩ := exists_of_bind_eq_ok h
  exact ⟨file, key, hfile, hkey, (Except.ok.inj h).symm⟩

theorem bindArtifact_isSome {value? : Lookup} {a r : Option Artifact}
    (h : bindArtifact value? a = .ok r) : r.isSome = a.isSome := by
  cases a with
  | none =>
    cases h
    rfl
  | some a =>
    obtain ⟨file, key, -, -, rfl⟩ := bindArtifact_some h
    rfl

theorem bind_publish_isSome {step : Step} {context : Context} {b : BoundStep}
    (h : bind step context = .ok b) : b.publish.isSome = step.publishes.isSome := by
  obtain ⟨env, command, -, -, -, hpublish, -⟩ := bind_eq_ok h
  exact bindArtifact_isSome hpublish

end Binding

end PipelineRunner
