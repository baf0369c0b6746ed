import PipelineRunner.Binding
import PipelineRunner.Proofs.Dict

/-!
# Bound environments

Which names the environment of a bound step holds, and which secrets are withheld from its process.
Both depend on the step and on the names that ever were secret, never on a value.
-/

namespace PipelineRunner.Binding

theorem exists_of_bind_eq_ok {α β : Type} {x : Except StepError α} {f : α → Except StepError β}
    {r : β} (h : (x >>= f) = .ok r) : ∃ a, x = .ok a ∧ f a = .ok r := by
  cases x with
  | error e => cases h
  | ok a => exact ⟨a, rfl, h⟩

theorem exists_of_map_eq_ok {α β : Type} {x : Except StepError α} {f : α → β} {r : β}
    (h : x.map f = .ok r) : ∃ a, x = .ok a ∧ f a = r := by
  cases x with
  | error e => cases h
  | ok a => exact ⟨a, rfl, Except.ok.inj h⟩

/-! ### The names in the environment -/

section
variable {context : Context} {env r : Dict String} {step : Step} {n : String}

theorem bindEntries_contains {es : List (String × String)}
    (h : bindEntries context env es = .ok r) (n : String) :
    r.contains n = (env.contains n || (es.map (·.1)).contains n) := by
  induction es generalizing env with
  | nil =>
    cases h
    simp
  | cons e rest ih =>
    obtain ⟨value, -, h⟩ := exists_of_bind_eq_ok h
    rw [ih h, Dict.contains_insert, List.map_cons, List.contains_cons]
    cases (n == e.1) <;> simp

theorem bindRequired_contains {keys : List String}
    (h : bindRequired context env keys = .ok r) (n : String) :
    r.contains n = (env.contains n || keys.contains n) := by
  induction keys generalizing env with
  | nil =>
    cases h
    simp
  | cons key rest ih =>
    unfold bindRequired at h
    split at h
    · rename_i hkey
      rw [ih h, List.contains_cons]
      by_cases hn : n = key
      · simp [hn, hkey]
      · rw [beq_false_of_ne hn, Bool.false_or]
    · split at h
      · cases h
      · rw [ih h, Dict.contains_insert, List.contains_cons]
        cases (n == key) <;> simp

theorem bindEntries_eq_contains (h : bindEntries context Dict.empty step.env.entries = .ok r)
    (n : String) : r.contains n = step.env.contains n := by
  rw [bindEntries_contains h, Dict.contains_empty, Bool.false_or]
  exact Dict.contains_keys step.env n

theorem bindEnv_contains (h : bindEnv step context = .ok r) (n : String) :
    r.contains n = (step.env.contains n || step.requiredEnv.contains n) := by
  obtain ⟨env, henv, h⟩ := exists_of_bind_eq_ok h
  rw [bindRequired_contains h, bindEntries_eq_contains henv]

/-! ### The names withheld -/

theorem withheld_contains (context : Context) (env : Dict String) (n : String) :
    (withheld context env).contains n = (context.secretNames.contains n && !env.contains n) := by
  rw [withheld, Dict.contains_foldl_erase, Dict.contains_keys, Bool.and_comm]

theorem withheld_congr {c d : Context} {env env' : Dict String} (hkeys : env.keys = env'.keys)
    (hsecret : c.secretNames = d.secretNames) : withheld c env = withheld d env' := by
  rw [withheld, withheld, hkeys, hsecret]

end

end PipelineRunner.Binding
