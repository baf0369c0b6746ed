import PipelineRunner.Proofs.Binding.Arguments
import PipelineRunner.Proofs.Binding.Plan

/-!
# What a bound step depends on

Two contexts that differ only in names that a step does not refer to bind it to the same result
(`bind_reads_referenced_names`). All of a bound step but the values of its environment is made from
fewer names still: those in the templates outside the environment, and those that the entries behind
them refer to (`entry_values_stay_off_the_line`).
-/

namespace PipelineRunner

open Template (slots)

/-- The names of the context that all of a bound step but its environment is made from. A name that
an entry has is read from the entry alone. -/
def Step.bodySources (step : Step) : List String :=
  (step.bodyTemplates.flatMap slots).flatMap step.sources

namespace Step

variable {step : Step} {c d : Context}

theorem value?_congr {n : String} (h : ∀ m ∈ step.sources n, c.lookup m = d.lookup m) :
    step.value? c n = step.value? d n := by
  unfold sources at h
  unfold value?
  cases hentry : step.env.get? n with
  | some entry =>
    rw [hentry] at h
    exact congrArg some (Template.written_congr h)
  | none =>
    rw [hentry] at h
    exact h n (List.mem_singleton_self n)

theorem written_body_congr (h : ∀ m ∈ step.bodySources, c.lookup m = d.lookup m) {t : String}
    (ht : t ∈ step.bodyTemplates) :
    Template.written (step.value? c) t = Template.written (step.value? d) t := by
  apply Template.written_congr
  intro n hn
  apply value?_congr
  intro m hm
  have hbody : n ∈ step.bodyTemplates.flatMap slots := List.mem_flatMap.mpr ⟨t, ht, hn⟩
  exact h m (List.mem_flatMap.mpr ⟨n, hbody, hm⟩)

theorem sources_subset {n : String} (hn : n ∈ step.referencedNames ∨ step.env.contains n = true) :
    step.sources n ⊆ step.referencedNames := by
  intro m hm
  unfold sources at hm
  cases hentry : step.env.get? n with
  | some entry =>
    rw [hentry] at hm
    have hvalue : entry ∈ step.env.values := Dict.mem_values_iff.mpr ⟨n, hentry⟩
    exact (step.mem_referencedNames m).mpr (Or.inl (List.mem_flatMap.mpr ⟨entry, hvalue, hm⟩))
  | none =>
    rw [hentry] at hm
    rw [List.mem_singleton.mp hm]
    -- without an entry the name itself is read, so it has to be one that the step refers to
    rcases hn with hn | hn
    · exact hn
    · rw [Dict.contains, hentry] at hn
      cases hn

theorem bodySources_subset (step : Step) : step.bodySources ⊆ step.referencedNames := by
  intro m hm
  obtain ⟨n, hn, hm⟩ := List.mem_flatMap.mp hm
  have hreferenced : n ∈ step.referencedNames :=
    (step.mem_referencedNames n).mpr (Or.inr (List.mem_append_right _ hn))
  exact sources_subset (Or.inl hreferenced) hm

end Step

/-! ### Two runs of the binder -/

/-- Two bound steps differ at most in the values of their environments. -/
structure BoundStep.SameButEntryValues (a b : BoundStep) : Prop where
  program : a.command.program = b.command.program
  args : a.command.args = b.command.args
  displayLine : a.command.displayLine = b.command.displayLine
  workdir : a.command.workdir = b.command.workdir
  timeoutSecs : a.command.timeoutSecs = b.command.timeoutSecs
  publish : a.publish = b.publish
  env_keys : a.command.env.keys = b.command.env.keys
  withheldEnv : a.command.withheldEnv = b.command.withheldEnv

theorem BoundStep.SameButEntryValues.eq {a b : BoundStep} (h : a.SameButEntryValues b)
    (henv : a.command.env = b.command.env) : a = b := by
  obtain ⟨⟨program, args, env, withheldEnv, workdir, timeoutSecs⟩, publish⟩ := a
  obtain ⟨⟨program', args', env', withheldEnv', workdir', timeoutSecs'⟩, publish'⟩ := b
  obtain ⟨rfl, rfl, -, rfl, rfl, rfl, -, rfl⟩ := h
  cases henv
  rfl

namespace Binding

variable {step : Step} {c d context : Context} {a b : BoundStep}

theorem bind_sameButEntryValues (ha : bind step c = .ok a) (hb : bind step d = .ok b)
    (hlookup : ∀ m ∈ step.bodySources, c.lookup m = d.lookup m)
    (hsecret : c.secretNames = d.secretNames) : a.SameButEntryValues b := by
  have hkeys : a.command.env.keys = b.command.env.keys := by
    rw [bind_env_keys ha, bind_env_keys hb]
  -- every text but the environment's is written from templates whose slots agree
  have hwritten : ∀ t ∈ step.bodyTemplates,
      Template.written (step.value? c) t = Template.written (step.value? d) t :=
    fun t ht => Step.written_body_congr hlookup ht
  have hline : a.command.program :: a.command.args = b.command.program :: b.command.args := by
    rw [bind_line ha, bind_line hb]
    apply List.map_congr_left
    intro x hx
    apply Argument.written_congr
    exact fun t ht => hwritten t (Step.mem_bodyTemplates_of_line hx ht)
  rw [List.cons.injEq] at hline
  refine
    { program := hline.1
      args := hline.2
      displayLine := ?_
      workdir := ?_
      timeoutSecs := (bind_timeoutSecs ha).trans (bind_timeoutSecs hb).symm
      publish := ?_
      env_keys := hkeys
      withheldEnv := ?_ }
  · rw [Command.displayLine, Command.displayLine, hline.1, hline.2]
  · rw [(bind_fills ha).workdir, (bind_fills hb).workdir]
    apply Option.map_congr
    intro t ht
    exact hwritten t (by simp [Step.bodyTemplates, ht])
  · rw [(bind_fills ha).publish, (bind_fills hb).publish]
    apply Option.map_congr
    intro declared hp
    have hfile := hwritten declared.file (by simp [Step.bodyTemplates, hp])
    have hkey := hwritten declared.key (by simp [Step.bodyTemplates, hp])
    rw [hfile, hkey]
  · rw [bind_withheldEnv ha, bind_withheldEnv hb, withheld_congr hkeys hsecret]

/-- Contexts that agree on the names that a step refers to bind the same environment. -/
theorem bind_env_congr (ha : bind step c = .ok a) (hb : bind step d = .ok b)
    (hlookup : ∀ n ∈ step.referencedNames, c.lookup n = d.lookup n) :
    a.command.env = b.command.env := by
  apply Dict.ext
  intro n
  rw [(bind_fills ha).env, (bind_fills hb).env]
  split
  · rename_i hn
    apply Step.value?_congr
    intro m hm
    apply hlookup
    rcases hn with hn | hn
    · exact Step.sources_subset (Or.inr hn) hm
    · have hreferenced : n ∈ step.referencedNames :=
        (step.mem_referencedNames n).mpr (Or.inr (List.mem_append_left _ hn))
      exact Step.sources_subset (Or.inl hreferenced) hm
  · rfl

theorem contains_eq_of_lookup_eq {n : String} (h : c.lookup n = d.lookup n) :
    c.contains n = d.contains n := by
  have hnone : (c.lookup n).isNone = (d.lookup n).isNone := by rw [h]
  rw [lookup_isNone, lookup_isNone] at hnone
  exact Bool.not_inj hnone

theorem bind_congr (hlookup : ∀ n ∈ step.referencedNames, c.lookup n = d.lookup n)
    (hsecret : c.secretNames = d.secretNames) : bind step c = bind step d := by
  have hcontains : ∀ n ∈ step.referencedNames, c.contains n = d.contains n :=
    fun n hn => contains_eq_of_lookup_eq (hlookup n hn)
  rcases bind_alike hcontains with ⟨key, hc, hd⟩ | ⟨a, b, ha, hb⟩
  · rw [hc, hd]
  · have hbody : ∀ m ∈ step.bodySources, c.lookup m = d.lookup m :=
      fun m hm => hlookup m (step.bodySources_subset hm)
    have hsame := bind_sameButEntryValues ha hb hbody hsecret
    rw [ha, hb, hsame.eq (bind_env_congr ha hb hlookup)]

theorem not_contains_of_missing {key : String}
    (h : bind step context = .error (.missingVariable key)) : context.contains key = false := by
  obtain ⟨before, r, after, -, -, hunmet, hkey⟩ := bind_eq_error_iff.mp h
  cases hkey
  exact (Bool.or_eq_false_iff.mp hunmet).1

/-- The names a step refers to are all that binding reads of a context, besides the names of its
secrets; and a name that a step misses is one of them and has no value. -/
theorem bind_reads_referenced_names (step : Step) :
    (∀ c d : Context, (∀ n ∈ step.referencedNames, c.lookup n = d.lookup n) →
      c.secretNames = d.secretNames → bind step c = bind step d) ∧
    ∀ context e, bind step context = .error e →
      ∃ key ∈ step.referencedNames, e = .missingVariable key ∧ context.contains key = false := by
  refine ⟨fun c d hlookup hsecret => bind_congr hlookup hsecret, fun context e he => ?_⟩
  obtain ⟨key, rfl⟩ := bind_missesOnly step context e he
  exact ⟨key, mem_referencedNames_of_missing he, rfl, not_contains_of_missing he⟩

/-- A variable that no template refers to changes nothing, and a step in a container misses its
required secret first. -/
theorem generate_reads_referenced_names :
    bind generateStep ((generateContext "devel" "Main").setVariable "COMMIT" "f00") =
        bind generateStep (generateContext "devel" "Main") ∧
      ∃ e, bind generateStep ((Context.empty.setVariable "branch" "devel")) = .error e ∧
        ∃ key ∈ generateStep.referencedNames, e = .missingVariable key ∧
          (Context.empty.setVariable "branch" "devel").contains key = false := by
  obtain ⟨hcongr, hmissing⟩ := bind_reads_referenced_names generateStep
  refine ⟨hcongr _ _ (by decide +kernel) rfl, .missingVariable "TOKEN", ?_, ?_⟩
  · rfl
  · exact hmissing _ _ rfl

end Binding

/-! ### Secrets of the environment -/

namespace Context

theorem contains_setSecret (c : Context) (key value n : String) :
    (c.setSecret key value).contains n = (n == key || c.contains n) := by
  unfold contains setSecret
  rw [Dict.contains_insert, Dict.contains_erase]
  by_cases hn : n = key
  · simp [hn]
  · rw [bne_iff_ne.mpr hn, beq_false_of_ne hn, Bool.true_and, Bool.false_or, Bool.false_or]

theorem setSecret_sameNames (c : Context) (key v w : String) :
    (c.setSecret key v).SameNames (c.setSecret key w) where
  contains n := by rw [contains_setSecret, contains_setSecret]
  secretNames := rfl

theorem lookup_setSecret_of_ne (c : Context) {key n : String} (value : String) (h : n ≠ key) :
    (c.setSecret key value).lookup n = c.lookup n := by
  unfold lookup plain? setSecret
  rw [Dict.get?_insert, Dict.get?_erase, if_neg h, if_neg h]

end Context

namespace Binding

/-- A step is bound in both contexts or in neither, and alike but for the values of its
environment. -/
def AlikeButEntryValues (step : Step) (c d : Context) : Prop :=
  ((∃ a, bind step c = .ok a) ↔ ∃ b, bind step d = .ok b) ∧
    ∀ a b, bind step c = .ok a → bind step d = .ok b → a.SameButEntryValues b

variable {step : Step} {c d : Context}

theorem alikeButEntryValues (hnames : c.SameNames d)
    (hlookup : ∀ n ∈ step.bodySources, c.lookup n = d.lookup n) :
    AlikeButEntryValues step c d := by
  constructor
  · rw [exists_bind_iff, exists_bind_iff]
    simp only [hnames.contains]
  · exact fun a b ha hb => bind_sameButEntryValues ha hb hlookup hnames.secretNames

/-- Contexts with the same names that agree on what the texts outside the environment are made from
bind a step alike but for the values of its environment. So a secret that the step asks for only in
its environment shows nowhere else. -/
theorem entry_values_stay_off_the_line (step : Step) :
    (∀ c d : Context, c.SameNames d → (∀ n ∈ step.bodySources, c.lookup n = d.lookup n) →
      AlikeButEntryValues step c d) ∧
    ∀ (context : Context) (s v w : String), s ∉ step.bodySources →
      AlikeButEntryValues step (context.setSecret s v) (context.setSecret s w) := by
  refine ⟨fun c d hnames hlookup => alikeButEntryValues hnames hlookup, ?_⟩
  intro context s v w hs
  apply alikeButEntryValues (context.setSecret_sameNames s v w)
  intro n hn
  have hne : n ≠ s := fun h => hs (h ▸ hn)
  rw [context.lookup_setSecret_of_ne v hne, context.lookup_setSecret_of_ne w hne]

theorem generate_keeps_token_off_the_line :
    ∃ a b, bind generateStep ((generateContext "devel" "Main").setSecret "TOKEN" "s1") = .ok a ∧
      bind generateStep ((generateContext "devel" "Main").setSecret "TOKEN" "s2") = .ok b ∧
      a.command.env.get? "TOKEN" = some "s1" ∧ b.command.env.get? "TOKEN" = some "s2" ∧
      a.SameButEntryValues b := by
  have ha : (bind generateStep
      ((generateContext "devel" "Main").setSecret "TOKEN" "s1")).map (·.command.env.get? "TOKEN") =
      .ok (some "s1") := by decide +kernel
  have hb : (bind generateStep
      ((generateContext "devel" "Main").setSecret "TOKEN" "s2")).map (·.command.env.get? "TOKEN") =
      .ok (some "s2") := by decide +kernel
  obtain ⟨a, ha, hatoken⟩ := exists_of_map_eq_ok ha
  obtain ⟨b, hb, hbtoken⟩ := exists_of_map_eq_ok hb
  obtain ⟨-, hsecret⟩ := entry_values_stay_off_the_line generateStep
  have halike := hsecret (generateContext "devel" "Main") "TOKEN" "s1" "s2" (by decide +kernel)
  exact ⟨a, b, ha, hb, hatoken, hbtoken, halike.2 a b ha hb⟩

end Binding

end PipelineRunner
