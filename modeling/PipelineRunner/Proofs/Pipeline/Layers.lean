import PipelineRunner.Pipeline
import PipelineRunner.Proofs.Context.Writes

/-!
# The layers of an initial context

The context that a run starts with is made by four layers of writes: declared variables, the event,
secrets and overrides. What the last write to a name was of is found by looking through the layers
from the top.
-/

namespace PipelineRunner.Pipeline

open Context (Held Write ofWrites lastWrite? eventWrites)

/-! ### The writes of the layers -/

def declaredWrites (env : ProcessEnv) (sources : List (String × VariableSource)) : List Write :=
  sources.filterMap fun e => (e.2.resolve env).map fun v => (e.1, .plain v)

def secretWrites (env : ProcessEnv) (names : List String) : List Write :=
  names.filterMap fun n => (env.get? n).map fun v => (n, .secret v)

def overrideWrites (overrides : List (String × String)) : List Write :=
  overrides.map fun e => (e.1, .plain e.2)

def initialWrites (p : Pipeline) (env : ProcessEnv) (event : TriggerEvent)
    (overrides : List (String × String)) : List Write :=
  declaredWrites env p.declared.entries ++ eventWrites event ++ secretWrites env p.secrets ++
    overrideWrites overrides

theorem bindVariables_eq (env : ProcessEnv) (c : Context)
    (sources : List (String × VariableSource)) :
    bindVariables env c sources = (declaredWrites env sources).foldl Context.write c := by
  unfold bindVariables declaredWrites
  rw [List.foldl_filterMap]
  congr 1
  funext c e
  cases e.2.resolve env with
  | none => rfl
  | some v => rfl

theorem bindSecrets_eq (env : ProcessEnv) (c : Context) (names : List String) :
    bindSecrets env c names = (secretWrites env names).foldl Context.write c := by
  unfold bindSecrets secretWrites
  rw [List.foldl_filterMap]
  congr 1
  funext c n
  cases env.get? n with
  | none => rfl
  | some v => rfl

theorem bindOverrides_eq (c : Context) (overrides : List (String × String)) :
    bindOverrides c overrides = (overrideWrites overrides).foldl Context.write c := by
  unfold bindOverrides overrideWrites
  rw [List.foldl_map]
  rfl

theorem initialContext_eq (p : Pipeline) (env : ProcessEnv) (event : TriggerEvent)
    (overrides : List (String × String)) :
    p.initialContext env event overrides = ofWrites (p.initialWrites env event overrides) := by
  unfold initialContext initialWrites ofWrites
  rw [List.foldl_append, List.foldl_append, List.foldl_append, ← bindVariables_eq,
    ← Context.withEvent_eq, ← bindSecrets_eq, ← bindOverrides_eq]

/-! ### What a layer has for a name -/

def overrideOf? (overrides : List (String × String)) (k : String) : Option String :=
  (overrides.reverse.find? fun e => e.1 == k).map (·.2)

/-- The value that the environment sets for a name that is declared as a secret. -/
def secretOf? (p : Pipeline) (env : ProcessEnv) (k : String) : Option String :=
  if k ∈ p.secrets then env.get? k else none

def eventOf? (event : TriggerEvent) (k : String) : Option String :=
  event.branch.bind fun b =>
    if k = "branch" then some b
    else if k = "branch_slug" then
      some (String.ofList (b.toList.map fun x => if x = '/' then '-' else x))
    else none

def declaredOf? (p : Pipeline) (env : ProcessEnv) (k : String) : Option String :=
  match p.declared.get? k with
  | none => none
  | some (.literal v) => some v
  | some (.env name) => env.get? name
  | some (.file path _) => some path

/-- What may be written first is seen only if nothing later is written to the same name. -/
theorem lastWrite?_toList_append (value? : Option String) (n : String) (hold : String → Held)
    (ws : List Write) (k : String) :
    lastWrite? ((value?.map fun v => (n, hold v)).toList ++ ws) k =
      (lastWrite? ws k).or (if n = k then value?.map hold else none) := by
  cases value? with
  | none => simp
  | some v => exact Context.lastWrite?_cons (n, hold v) ws k

theorem declaredWrites_cons (env : ProcessEnv) (e : String × VariableSource)
    (sources : List (String × VariableSource)) :
    declaredWrites env (e :: sources) =
      ((e.2.resolve env).map fun v => (e.1, Held.plain v)).toList ++ declaredWrites env sources := by
  unfold declaredWrites
  rw [List.filterMap_cons]
  cases e.2.resolve env <;> rfl

theorem lastWrite?_declaredWrites (env : ProcessEnv) {sources : List (String × VariableSource)}
    (hasc : sources.Pairwise fun a b => a.1 < b.1) (k : String) :
    lastWrite? (declaredWrites env sources) k =
      ((Dict.find k sources).bind fun s => s.resolve env).map .plain := by
  induction sources with
  | nil => rfl
  | cons e rest ih =>
    obtain ⟨hlt, hrest⟩ := List.pairwise_cons.mp hasc
    rw [declaredWrites_cons, lastWrite?_toList_append, ih hrest, Dict.find]
    by_cases hk : k = e.1
    · -- the names are distinct, so no later one is `k`
      have hnone : Dict.find k rest = none := Dict.find_eq_none_of_lt (hk ▸ hlt)
      rw [hnone, if_pos hk, if_pos hk.symm]
      rfl
    · rw [if_neg hk, if_neg (Ne.symm hk), Option.or_none]

theorem lastWrite?_declared (p : Pipeline) (env : ProcessEnv) (k : String) :
    lastWrite? (declaredWrites env p.declared.entries) k = (p.declaredOf? env k).map .plain := by
  rw [lastWrite?_declaredWrites env p.declared.ascending]
  show ((p.declared.get? k).bind fun s => s.resolve env).map Held.plain = _
  unfold declaredOf?
  cases p.declared.get? k with
  | none => rfl
  | some source => cases source <;> rfl

theorem lastWrite?_eventWrites (event : TriggerEvent) (k : String) :
    lastWrite? (eventWrites event) k = (eventOf? event k).map .plain := by
  unfold eventWrites eventOf?
  cases event.branch with
  | none => rfl
  | some b =>
    have hslug : Context.branchSlug b =
        String.ofList (b.toList.map fun x => if x = '/' then '-' else x) := by
      rw [← String.toList_inj, String.toList_ofList]
      exact String.toList_map
    show lastWrite? [("branch", .plain b), ("branch_slug", .plain (Context.branchSlug b))] k = _
    rw [hslug, Context.lastWrite?_cons, Context.lastWrite?_singleton, Option.bind_some]
    by_cases hb : k = "branch"
    · subst hb
      rfl
    · by_cases hs : k = "branch_slug"
      · subst hs
        rfl
      · simp [hb, hs, Ne.symm hb, Ne.symm hs]

theorem secretWrites_cons (env : ProcessEnv) (n : String) (names : List String) :
    secretWrites env (n :: names) =
      ((env.get? n).map fun v => (n, Held.secret v)).toList ++ secretWrites env names := by
  unfold secretWrites
  rw [List.filterMap_cons]
  cases env.get? n <;> rfl

theorem lastWrite?_secretWrites (env : ProcessEnv) (names : List String) (k : String) :
    lastWrite? (secretWrites env names) k =
      (if k ∈ names then env.get? k else none).map .secret := by
  induction names with
  | nil => rfl
  | cons n rest ih =>
    rw [secretWrites_cons, lastWrite?_toList_append, ih]
    by_cases hk : k = n
    · subst hk
      by_cases hmem : k ∈ rest
      · simp [hmem]
      · simp [hmem]
    · simp [hk, Ne.symm hk]

theorem lastWrite?_overrideWrites (overrides : List (String × String)) (k : String) :
    lastWrite? (overrideWrites overrides) k = (overrideOf? overrides k).map .plain := by
  unfold lastWrite? overrideWrites overrideOf?
  rw [← List.map_reverse, List.find?_map, Option.map_map, Option.map_map]
  rfl

/-! ### All layers -/

/-- What a name stands for when a run starts: the topmost layer that has it decides. -/
def startsAs? (p : Pipeline) (env : ProcessEnv) (event : TriggerEvent)
    (overrides : List (String × String)) (k : String) : Option Held :=
  match overrideOf? overrides k with
  | some v => some (.plain v)
  | none =>
    match p.secretOf? env k with
    | some v => some (.secret v)
    | none =>
      match eventOf? event k with
      | some v => some (.plain v)
      | none => (p.declaredOf? env k).map .plain

theorem lastWrite?_initialWrites (p : Pipeline) (env : ProcessEnv) (event : TriggerEvent)
    (overrides : List (String × String)) (k : String) :
    lastWrite? (p.initialWrites env event overrides) k = p.startsAs? env event overrides k := by
  unfold initialWrites startsAs?
  rw [Context.lastWrite?_append, Context.lastWrite?_append, Context.lastWrite?_append,
    lastWrite?_overrideWrites, lastWrite?_secretWrites, lastWrite?_eventWrites,
    lastWrite?_declared]
  show _ = match overrideOf? overrides k with
    | some v => _
    | none => _
  cases overrideOf? overrides k with
  | some v => rfl
  | none =>
    show ((p.secretOf? env k).map Held.secret).or _ = _
    cases p.secretOf? env k with
    | some v => rfl
    | none => cases eventOf? event k <;> rfl

theorem mem_initialWrites_secret {p : Pipeline} {env : ProcessEnv} {event : TriggerEvent}
    {overrides : List (String × String)} {k v : String} :
    (k, .secret v) ∈ p.initialWrites env event overrides ↔
      k ∈ p.secrets ∧ env.get? k = some v := by
  have hevent : (k, Held.secret v) ∉ eventWrites event := by
    unfold eventWrites
    cases event.branch <;> simp
  simp only [initialWrites, declaredWrites, secretWrites, overrideWrites, List.mem_append,
    List.mem_filterMap, List.mem_map, Option.map_eq_some_iff, Prod.mk.injEq, reduceCtorEq,
    and_false, exists_false, hevent, false_or, or_false, Held.secret.injEq]
  constructor
  · rintro ⟨n, hn, w, hw, rfl, rfl⟩
    exact ⟨hn, hw⟩
  · rintro ⟨hk, hv⟩
    exact ⟨k, hk, v, hv, rfl, rfl⟩

theorem initialContext_secretNames (p : Pipeline) (env : ProcessEnv) (event : TriggerEvent)
    (overrides : List (String × String)) (n : String) :
    (p.initialContext env event overrides).secretNames.contains n =
      (p.secrets.contains n && env.contains n) := by
  rw [Bool.eq_iff_iff, initialContext_eq, (Context.tracks_ofWrites _).names, Bool.and_eq_true,
    List.contains_iff_mem, Dict.contains_iff_exists]
  simp only [mem_initialWrites_secret, exists_and_left]

theorem initialContext_tracks (p : Pipeline) (env : ProcessEnv) (event : TriggerEvent)
    (overrides : List (String × String)) :
    (p.initialContext env event overrides).Tracks (p.initialWrites env event overrides) := by
  rw [initialContext_eq]
  exact Context.tracks_ofWrites _

theorem initialContext_lookup (p : Pipeline) (env : ProcessEnv) (event : TriggerEvent)
    (overrides : List (String × String)) (k : String) :
    (p.initialContext env event overrides).lookup k =
      (p.startsAs? env event overrides k).map Held.value := by
  rw [(p.initialContext_tracks env event overrides).follows.lookup_eq, lastWrite?_initialWrites]

theorem initialContext_plain? (p : Pipeline) (env : ProcessEnv) (event : TriggerEvent)
    (overrides : List (String × String)) (k : String) :
    (p.initialContext env event overrides).plain? k =
      (p.startsAs? env event overrides k).bind Held.plain? := by
  rw [Context.plain?, (p.initialContext_tracks env event overrides).plain,
    lastWrite?_initialWrites]

theorem initialContext_isSecret_iff (p : Pipeline) (env : ProcessEnv) (event : TriggerEvent)
    (overrides : List (String × String)) (k : String) :
    (p.initialContext env event overrides).isSecret k = true ↔
      overrideOf? overrides k = none ∧ k ∈ p.secrets ∧ env.contains k = true := by
  rw [(p.initialContext_tracks env event overrides).follows.isSecret_iff,
    lastWrite?_initialWrites, startsAs?]
  cases overrideOf? overrides k with
  | some v => simp
  | none =>
    unfold secretOf? Dict.contains
    by_cases hk : k ∈ p.secrets
    · cases env.get? k with
      | some v => simp [hk]
      | none => cases eventOf? event k <;> simp [hk]
    · cases eventOf? event k <;> simp [hk]

/-- A run starts with every name as its topmost layer has it, and with no other names. A name is
secret exactly if the environment sets it, the pipeline declares it as a secret and no override
hides it, and an override that does so does not take it from the names of secrets. -/
theorem initialContext_layers (p : Pipeline) (env : ProcessEnv) (event : TriggerEvent)
    (overrides : List (String × String)) :
    let c := p.initialContext env event overrides
    (∀ k, c.lookup k = (p.startsAs? env event overrides k).map Held.value) ∧
      (∀ k, c.plain? k = (p.startsAs? env event overrides k).bind Held.plain?) ∧
      (∀ k, c.contains k = (p.startsAs? env event overrides k).isSome) ∧
      (∀ k, c.isSecret k = true ↔
        overrideOf? overrides k = none ∧ k ∈ p.secrets ∧ env.contains k = true) ∧
      ∀ k, k ∈ c.secretNames.keys ↔ k ∈ p.secrets ∧ env.contains k = true := by
  intro c
  have hfollows := (p.initialContext_tracks env event overrides).follows
  refine ⟨p.initialContext_lookup env event overrides, p.initialContext_plain? env event overrides,
    fun k => ?_, p.initialContext_isSecret_iff env event overrides, fun k => ?_⟩
  · rw [Bool.eq_iff_iff, hfollows.contains_iff, hfollows.lookup_eq, lastWrite?_initialWrites]
    cases p.startsAs? env event overrides k <;> simp
  · rw [hfollows.mem_secretNames, Dict.contains_iff_exists]
    simp only [mem_initialWrites_secret, exists_and_left]

end PipelineRunner.Pipeline
