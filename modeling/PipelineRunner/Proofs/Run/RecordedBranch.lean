import PipelineRunner.Proofs.History.Memory
import PipelineRunner.Proofs.History.Tables
import PipelineRunner.Proofs.Pipeline.Layers
import PipelineRunner.Proofs.Trigger

/-!
# The branch that a run records

A run that its event does not start records the branch of the event. A run that executes records
what it starts with under the name `branch`, and the event is only one of the layers that can bind
it. `Pipeline.KeepsBranch` says when no other layer puts something else in its place.
-/

namespace PipelineRunner

open Context (Held)

namespace Pipeline

/-! ### The layers under `branch` -/

/-- What a run starts with under `branch` is the branch of the event, or nothing without one: an
override names the same branch; with no override, a secret of that name is set for no run with a
branch; and with neither, a run without a branch has no declared value for the name. -/
structure KeepsBranch (p : Pipeline) (env : ProcessEnv) (event : TriggerEvent)
    (overrides : List (String × String)) : Prop where
  override : ∀ v, overrideOf? overrides "branch" = some v → event.branch = some v
  secret : overrideOf? overrides "branch" = none → ∀ v, p.secretOf? env "branch" = some v →
    event.branch = none
  declared : overrideOf? overrides "branch" = none → p.secretOf? env "branch" = none →
    event.branch = none → p.declaredOf? env "branch" = none

theorem eventOf?_branch (event : TriggerEvent) : eventOf? event "branch" = event.branch := by
  unfold eventOf?
  cases event.branch <;> rfl

theorem startsAs?_branch_iff {p : Pipeline} {env : ProcessEnv} {event : TriggerEvent}
    {overrides : List (String × String)} :
    (p.startsAs? env event overrides "branch").bind Held.plain? = event.branch ↔
      p.KeepsBranch env event overrides := by
  unfold startsAs?
  rw [eventOf?_branch]
  cases ho : overrideOf? overrides "branch" with
  | some v =>
    show some v = event.branch ↔ _
    constructor
    · intro h
      exact ⟨fun w hw => by rw [← h, ← hw, ho], by simp [ho], by simp [ho]⟩
    · intro h
      exact (h.override v ho).symm
  | none =>
    cases hs : p.secretOf? env "branch" with
    | some v =>
      show none = event.branch ↔ _
      constructor
      · intro h
        exact ⟨by simp [ho], fun _ _ _ => h.symm, by simp [hs]⟩
      · intro h
        exact (h.secret ho v hs).symm
    | none =>
      cases he : event.branch with
      | some b =>
        show some b = some b ↔ _
        exact iff_of_true rfl ⟨by simp [ho], by simp [hs], by simp [he]⟩
      | none =>
        constructor
        · intro h
          refine ⟨by simp [ho], by simp [hs], fun _ _ _ => ?_⟩
          cases hd : p.declaredOf? env "branch" with
          | none => rfl
          | some v => simp [hd, Held.plain?] at h
        · intro h
          show ((p.declaredOf? env "branch").map Held.plain).bind Held.plain? = none
          rw [h.declared ho hs he]
          rfl

end Pipeline

/-! ### The branch in a history -/

def HistoryStore.ShowsBranch (σ : Type) [HistoryStore σ] (s : Summary) : Prop :=
  ∀ h h' : σ, HistoryStore.save h s = .ok h' →
    (HistoryStore.load h' s.executionId).map (·.branch) = some s.branch

theorem MemoryHistory.showsBranch (s : Summary) : HistoryStore.ShowsBranch MemoryHistory s := by
  intro m m' hsave
  cases hsave
  show ((m.save s).load s.executionId).map (·.branch) = some s.branch
  rw [load_save, if_pos rfl, Option.map_some]

theorem TableHistory.showsBranch (s : Summary) : HistoryStore.ShowsBranch TableHistory s := by
  intro t t' hsave
  have hsaved : t' = t.withSaved s := by
    have hsave : t.save s = .ok t' := hsave
    rw [save_eq] at hsave
    split at hsave
    · exact (Except.ok.inj hsave).symm
    · cases hsave
  show (t'.load s.executionId).map (·.branch) = some s.branch
  rw [hsaved, load_withSaved, Option.map_some]
  rfl

/-! ### Whole runs -/

/-- A run that its event starts records what it starts with under `branch`, and any other run the
branch of the event. So the record is the branch of the event exactly if the run is not started or
the other layers keep that branch, and a history shows what was recorded. -/
theorem run_records_branch (invoke : Invoker) (clock : Clock) (id : Uuid) (p : Pipeline)
    (env : ProcessEnv) (event : TriggerEvent) (overrides : List (String × String)) :
    let o := (run invoke clock id p event (p.initialContext env event overrides)).outcome
    o.branch = (if p.Admits event then
        (p.startsAs? env event overrides "branch").bind Held.plain?
      else event.branch) ∧
      (o.branch = event.branch ↔ (p.Admits event → p.KeepsBranch env event overrides)) ∧
      (Summary.ofOutcome o).branch = o.branch ∧
      HistoryStore.ShowsBranch MemoryHistory (Summary.ofOutcome o) ∧
      HistoryStore.ShowsBranch TableHistory (Summary.ofOutcome o) := by
  intro o
  have hbranch : o.branch = if p.Admits event then
      (p.startsAs? env event overrides "branch").bind Held.plain? else event.branch := by
    show (run invoke clock id p event (p.initialContext env event overrides)).outcome.branch = _
    unfold run
    by_cases hadmits : p.Admits event
    · rw [if_pos hadmits, if_pos (Pipeline.isTriggeredBy_iff_admits.mpr hadmits)]
      exact p.initialContext_plain? env event overrides "branch"
    · rw [if_neg hadmits,
        if_neg fun ht => hadmits (Pipeline.isTriggeredBy_iff_admits.mp ht)]
      rfl
  refine ⟨hbranch, ?_, rfl, MemoryHistory.showsBranch _, TableHistory.showsBranch _⟩
  rw [hbranch]
  by_cases hadmits : p.Admits event
  · rw [if_pos hadmits, Pipeline.startsAs?_branch_iff]
    exact ⟨fun h _ => h, fun h => h hadmits⟩
  · rw [if_neg hadmits]
    exact iff_of_true rfl fun h => absurd h hadmits

/-- A pipeline that declares a branch for runs without one. -/
def deploying : Pipeline :=
  { name := "deploy", trigger := none, declared := Dict.ofList [("branch", .literal "main")]
    secrets := ["branch"], steps := [Step.ofCommand "push" ["push"]] }

def branchOfDeploying (env : ProcessEnv) (event : TriggerEvent)
    (overrides : List (String × String)) : Option String :=
  (run (fun _ => .ok ⟨some 0, "", ""⟩) (fun n => ⟨n, 0⟩) .nil deploying event
    (deploying.initialContext env event overrides)).outcome.branch

/-- An override, a secret and a declared variable each change the branch that is recorded. -/
theorem branchOfDeploying_not_of_event :
    branchOfDeploying Dict.empty (.push "devel") [("branch", "main")] = some "main" ∧
      branchOfDeploying (Dict.ofList [("branch", "main")]) (.push "devel") [] = none ∧
      (TriggerEvent.push "devel").branch = some "devel" ∧
      branchOfDeploying Dict.empty .manual [] = some "main" ∧
      TriggerEvent.manual.branch = none := by
  decide +kernel

end PipelineRunner
