import PipelineRunner.Proofs.History.Memory
import PipelineRunner.Proofs.History.Tables
import PipelineRunner.Proofs.Run.FinalState
import PipelineRunner.Proofs.Run.Progress
import PipelineRunner.Proofs.Trigger

/-!
# Summaries of finished runs

The counters, the step entries, the status and the failure of a run's summary fit together, however
the run ended. So the entries have keys of their own and the counters are words, and every store
saves such a summary and gives it back as it was.
-/

namespace PipelineRunner

/-! ### The log against the counters -/

namespace RunOutcome

/-- The log has an entry for each step that succeeded, in order, and at most one more. -/
structure Tallied (o : RunOutcome) : Prop where
  index : o.runLog.results.map (·.index) = List.range o.runLog.results.length
  length : o.runLog.results.length = o.state.completedSteps ∨
    o.runLog.results.length = o.state.completedSteps + 1
  succeeded : ∀ r ∈ o.runLog.results,
    r.state.label = "Succeeded" ↔ r.index < o.state.completedSteps

variable {o : RunOutcome} {p : Pipeline}

theorem label_of_logged {r : RunResult} (hlog : o.LogAgrees p) (hr : r ∈ o.runLog.results)
    (hstate : ∃ a z, o.stepStates[r.index]? = some (.succeeded 0 a z)) :
    r.state.label = "Succeeded" := by
  obtain ⟨a, z, hstate⟩ := hstate
  have hagrees := (hlog r hr).1
  rw [hstate, Option.some.injEq] at hagrees
  rw [← hagrees, StepState.label]

theorem Completed.tallied (h : o.Completed p) (hlog : o.LogAgrees p) : o.Tallied where
  index := by rw [length_of_log h.log, h.log]
  length := by rw [length_of_log h.log, h.completedSteps]; exact Or.inl rfl
  succeeded r hr := by
    have hindex := index_lt_of_log h.log hr
    rw [h.completedSteps]
    exact iff_of_true (label_of_logged hlog hr (h.succeeded r.index hindex)) hindex

theorem HaltedBy.tallied {x : StepFailure} (h : o.HaltedBy p x) (hlog : o.LogAgrees p) :
    o.Tallied := by
  have hlength := length_of_log h.log
  refine ⟨by rw [hlength, h.log], ?_, fun r hr => ?_⟩
  · rw [hlength, h.completedSteps]
    split
    · exact Or.inr rfl
    · exact Or.inl rfl
  · rw [h.completedSteps]
    have hindex := index_lt_of_log h.log hr
    by_cases hlt : r.index < x.index
    · exact iff_of_true (label_of_logged hlog hr (h.succeeded r.index hlt)) hlt
    · -- the only other entry is that of the step that failed
      have heq : r.index = x.index := by
        split at hindex <;> omega
      obtain ⟨st, hst, hfailed⟩ := h.failed
      have hagrees := (hlog r hr).1
      rw [heq, hst, Option.some.injEq] at hagrees
      refine iff_of_false ?_ hlt
      rw [← hagrees]
      rcases hfailed with ⟨code, a, z, rfl⟩ | ⟨secs, a, z, rfl⟩
      · simp [StepState.label]
      · simp [StepState.label]

theorem Tallied.index_eq (ht : o.Tallied) {i : Nat} {r : RunResult}
    (h : o.runLog.results[i]? = some r) : r.index = i :=
  index_eq_of_log ht.index h

theorem Tallied.filter_eq (ht : o.Tallied) :
    o.runLog.results.filter (fun r => r.state.label == "Succeeded") =
      o.runLog.results.take o.state.completedSteps := by
  have hfirst : ∀ r ∈ o.runLog.results.take o.state.completedSteps,
      (r.state.label == "Succeeded") = true := by
    intro r hr
    obtain ⟨i, hi⟩ := List.mem_iff_getElem?.mp hr
    rw [List.getElem?_take] at hi
    split at hi
    · rename_i hlt
      rw [beq_iff_eq, ht.succeeded r (List.mem_of_mem_take hr), ht.index_eq hi]
      exact hlt
    · cases hi
  have hlast : ∀ r ∈ o.runLog.results.drop o.state.completedSteps,
      ¬ (r.state.label == "Succeeded") = true := by
    intro r hr
    obtain ⟨i, hi⟩ := List.mem_iff_getElem?.mp hr
    rw [List.getElem?_drop] at hi
    rw [beq_iff_eq, ht.succeeded r (List.mem_of_mem_drop hr), ht.index_eq hi]
    omega
  have hsplit := List.filter_append (p := fun r : RunResult => r.state.label == "Succeeded")
    (o.runLog.results.take o.state.completedSteps) (o.runLog.results.drop o.state.completedSteps)
  rwa [List.take_append_drop, List.filter_eq_self.mpr hfirst, List.filter_eq_nil_iff.mpr hlast,
    List.append_nil] at hsplit

end RunOutcome

/-! ### Consistent summaries -/

namespace Summary

/-- The entries of a summary are about the first steps of `p`, in order. Those that succeeded come
first and are as many as the counter says, and at most one entry follows. -/
structure EntriesFit (s : Summary) (p : Pipeline) : Prop where
  index : ∀ (i : Nat) (st : StepSummary), s.steps[i]? = some st → st.index = i
  stepId : ∀ (i : Nat) (st : StepSummary), s.steps[i]? = some st →
    p.steps[i]?.map (·.id) = some st.stepId
  completedSteps_eq : s.completedSteps = s.steps.countP fun st => st.state == "Succeeded"
  succeeded_first : (s.steps.filter fun st => st.state == "Succeeded") <+: s.steps
  length : s.steps.length = s.completedSteps ∨ s.steps.length = s.completedSteps + 1

/-- The parts of the summary of a run fit together. -/
structure Consistent (s : Summary) (invoke : Invoker) (p : Pipeline) (event : TriggerEvent)
    (context : Context) : Prop extends s.EntriesFit p where
  completedSteps_le : s.completedSteps ≤ s.totalSteps
  totalSteps_eq : s.totalSteps = if p.Admits event then p.steps.length else 0
  completed_iff : s.status = .completed ↔ p.Admits event ∧ s.completedSteps = p.steps.length
  failed_iff : s.status = .failed ↔ s.failedStep.isSome = true
  failedStep_isSome : s.failedStep.isSome = s.error.isSome
  failedStep_eq : ∀ i, s.failedStep = some i → i = s.completedSteps ∧ i < p.steps.length
  notTriggered_iff : s.status = .notTriggered ↔ ¬ p.Admits event
  notTriggered : s.status = .notTriggered →
    s.steps = [] ∧ s.artifacts = [] ∧ s.failedStep = none ∧ s.error = none
  artifacts : s.artifacts = (List.range s.completedSteps).filterMap fun i =>
    ((Stage.initial context).artifactAt? invoke p.steps i).map (·.key)

end Summary

section
variable {o : RunOutcome} {invoke : Invoker} {clock : Clock} {id : Uuid} {p : Pipeline}
  {event : TriggerEvent} {context : Context}

theorem RunOutcome.Tallied.entriesFit (ht : o.Tallied) (hlog : o.LogAgrees p) :
    (Summary.ofOutcome o).EntriesFit p := by
  have hentry : ∀ (i : Nat) (st : StepSummary), (Summary.ofOutcome o).steps[i]? = some st →
      ∃ r, o.runLog.results[i]? = some r ∧ StepSummary.ofResult r = st := by
    intro i st hst
    simpa [Summary.ofOutcome] using hst
  have hfilter : ((Summary.ofOutcome o).steps.filter fun st => st.state == "Succeeded") =
      (Summary.ofOutcome o).steps.take o.state.completedSteps := by
    show (o.runLog.results.map StepSummary.ofResult).filter _ = _
    rw [List.filter_map]
    exact (congrArg _ ht.filter_eq).trans List.map_take
  refine ⟨fun i st hst => ?_, fun i st hst => ?_, ?_, ?_, ?_⟩
  · obtain ⟨r, hr, rfl⟩ := hentry i st hst
    exact ht.index_eq hr
  · obtain ⟨r, hr, rfl⟩ := hentry i st hst
    have hid := (hlog r (List.mem_of_getElem? hr)).2.1
    rwa [ht.index_eq hr] at hid
  · have hle : o.state.completedSteps ≤ (Summary.ofOutcome o).steps.length := by
      have hlength := ht.length
      rw [Summary.ofOutcome, List.length_map]
      omega
    rw [List.countP_eq_length_filter, hfilter, List.length_take]
    exact (Nat.min_eq_left hle).symm
  · rw [hfilter]
    exact List.take_prefix _ _
  · rw [Summary.ofOutcome, List.length_map]
    exact ht.length

theorem RunOutcome.Completed.consistent (ho : o.Completed p) (hlog : o.LogAgrees p)
    (hadmits : p.Admits event)
    (hartifacts : o.artifacts = (List.range o.state.completedSteps).filterMap
      ((Stage.initial context).artifactAt? invoke p.steps)) :
    (Summary.ofOutcome o).Consistent invoke p event context :=
  { (ho.tallied hlog).entriesFit hlog with
    completedSteps_le := Nat.le_of_eq (ho.completedSteps.trans ho.totalSteps.symm)
    totalSteps_eq := ho.totalSteps.trans (if_pos hadmits).symm
    completed_iff := iff_of_true ho.status ⟨hadmits, ho.completedSteps⟩
    failed_iff := by simp [Summary.ofOutcome, ho.status, ho.failedStep]
    failedStep_isSome := by simp [Summary.ofOutcome, ho.failedStep, ho.failure]
    failedStep_eq := by simp [Summary.ofOutcome, ho.failedStep]
    notTriggered_iff := by simp [Summary.ofOutcome, ho.status, hadmits]
    notTriggered := by simp [Summary.ofOutcome, ho.status]
    artifacts := by rw [Summary.ofOutcome, hartifacts, List.map_filterMap] }

theorem RunOutcome.HaltedBy.consistent {x : StepFailure} (ho : o.HaltedBy p x)
    (hlog : o.LogAgrees p) (hadmits : p.Admits event)
    (hartifacts : o.artifacts = (List.range o.state.completedSteps).filterMap
      ((Stage.initial context).artifactAt? invoke p.steps)) :
    (Summary.ofOutcome o).Consistent invoke p event context :=
  have hlt := ho.index_lt
  { (ho.tallied hlog).entriesFit hlog with
    completedSteps_le := by
      show o.state.completedSteps ≤ o.state.totalSteps
      rw [ho.completedSteps, ho.totalSteps]
      exact Nat.le_of_lt hlt
    totalSteps_eq := ho.totalSteps.trans (if_pos hadmits).symm
    completed_iff := by
      refine iff_of_false (fun hc => ?_) fun hc => ?_
      · cases ho.status.symm.trans hc
      · exact Nat.ne_of_lt hlt (ho.completedSteps.symm.trans hc.2)
    failed_iff := by simp [Summary.ofOutcome, ho.status, ho.failedStep]
    failedStep_isSome := by simp [Summary.ofOutcome, ho.failedStep, ho.failure]
    failedStep_eq := by simp [Summary.ofOutcome, ho.failedStep, ho.completedSteps, hlt]
    notTriggered_iff := by simp [Summary.ofOutcome, ho.status, hadmits]
    notTriggered := by simp [Summary.ofOutcome, ho.status]
    artifacts := by rw [Summary.ofOutcome, hartifacts, List.map_filterMap] }

theorem execute_consistent (hadmits : p.Admits event) :
    (Summary.ofOutcome (execute invoke clock id p context).outcome).Consistent invoke p event
      context := by
  have hartifacts : (execute invoke clock id p context).outcome.artifacts =
      (List.range (execute invoke clock id p context).outcome.state.completedSteps).filterMap
        ((Stage.initial context).artifactAt? invoke p.steps) := by
    rw [execute_completedSteps]
    exact Stage.trail_artifacts (s := .initial context)
  cases h : p.steps[(Stage.initial context).halt invoke p.steps]? with
  | none => exact (execute_completed h).consistent execute_logAgrees hadmits hartifacts
  | some step =>
    have hhalted : ∃ x, (execute invoke clock id p context).outcome.HaltedBy p x :=
      execute_halted h
    obtain ⟨x, hx⟩ := hhalted
    exact hx.consistent execute_logAgrees hadmits hartifacts

theorem notTriggeredRun_consistent (hadmits : ¬ p.Admits event) :
    (Summary.ofOutcome (notTriggeredRun clock id p event).outcome).Consistent invoke p event
      context where
  index i st h := by cases h
  stepId i st h := by cases h
  completedSteps_eq := rfl
  succeeded_first := List.nil_prefix
  length := Or.inl rfl
  completedSteps_le := Nat.le_refl 0
  totalSteps_eq := (if_neg hadmits).symm
  completed_iff := iff_of_false (by rintro ⟨⟩) fun h => hadmits h.1
  failed_iff := iff_of_false (by rintro ⟨⟩) (by rintro ⟨⟩)
  failedStep_isSome := rfl
  failedStep_eq i h := by cases h
  notTriggered_iff := iff_of_true rfl hadmits
  notTriggered _ := ⟨rfl, rfl, rfl, rfl⟩
  artifacts := rfl

end

/-! ### Saving the summary -/

namespace Summary.Consistent

variable {s : Summary} {invoke : Invoker} {p : Pipeline} {event : TriggerEvent} {context : Context}

theorem ascending (hs : s.Consistent invoke p event context) :
    s.steps.Pairwise fun a b => a.index < b.index := by
  refine List.pairwise_iff_getElem.mpr fun i j hi hj hij => ?_
  rw [hs.index i _ (List.getElem?_eq_getElem hi), hs.index j _ (List.getElem?_eq_getElem hj)]
  exact hij

theorem index_lt (hs : s.Consistent invoke p event context) :
    ∀ st ∈ s.steps, st.index < p.steps.length := by
  intro st hst
  obtain ⟨i, hi⟩ := List.mem_iff_getElem?.mp hst
  have hid := hs.stepId i st hi
  obtain ⟨step, hstep, -⟩ := Option.map_eq_some_iff.mp hid
  rw [hs.index i st hi]
  exact (List.getElem?_eq_some_iff.mp hstep).1

theorem fits (hs : s.Consistent invoke p event context) (hsteps : p.steps.length < Word.half64) :
    s.Fits := by
  have hhalf : Word.half64 < Word.size64 := by decide
  have hcompleted := hs.completedSteps_le
  have htotal : s.totalSteps ≤ p.steps.length := by
    rw [hs.totalSteps_eq]
    split <;> omega
  refine ⟨by omega, by omega, fun n hn => ?_, fun st hst => ?_⟩
  · have hlt := (hs.failedStep_eq n hn).2
    omega
  · have hlt := hs.index_lt st hst
    omega

end Summary.Consistent

/-- Whatever a store has, it saves the summary and then loads it as it was saved. -/
def HistoryStore.Keeps (σ : Type) [HistoryStore σ] (s : Summary) : Prop :=
  ∀ h : σ, ∃ h' : σ, HistoryStore.save h s = .ok h' ∧
    HistoryStore.load h' s.executionId = some s

theorem MemoryHistory.keeps (s : Summary) : HistoryStore.Keeps MemoryHistory s := by
  intro m
  refine ⟨m.save s, rfl, ?_⟩
  show (m.save s).load s.executionId = some s
  rw [load_save, if_pos rfl]

theorem TableHistory.keeps {s : Summary} (hs : s.Fits) (hprogress : s.progress.isNaN = false)
    (hasc : s.steps.Pairwise fun a b => Word.signed64 a.index < Word.signed64 b.index) :
    HistoryStore.Keeps TableHistory s := by
  intro t
  refine ⟨t.withSaved s, ?_, ?_⟩
  · show t.save s = .ok (t.withSaved s)
    rw [save_eq, if_pos (Summary.keysApart_of_ascending hasc)]
  · show (t.withSaved s).load s.executionId = some s
    rw [load_withSaved_self t hs hprogress, stepsOfRows_of_ascending hs hasc]

/-- The summary of a run is consistent, and both stores keep it. -/
theorem run_summary_consistent_and_kept (invoke : Invoker) (clock : Clock) (id : Uuid)
    (p : Pipeline) (event : TriggerEvent) (context : Context)
    (hsteps : p.steps.length < Word.half64) :
    let s := Summary.ofOutcome (run invoke clock id p event context).outcome
    s.Consistent invoke p event context ∧ HistoryStore.Keeps MemoryHistory s ∧
      HistoryStore.Keeps TableHistory s := by
  intro s
  have hs : s.Consistent invoke p event context := by
    show (Summary.ofOutcome (run invoke clock id p event context).outcome).Consistent _ _ _ _
    unfold run
    split
    · rename_i ht
      exact execute_consistent (Pipeline.isTriggeredBy_iff_admits.mp ht)
    · rename_i ht
      exact notTriggeredRun_consistent fun h => ht (Pipeline.isTriggeredBy_iff_admits.mpr h)
  have hfits := hs.fits hsteps
  have hprogress : s.progress.isNaN = false := RunState.progress_not_nan hfits.totalSteps
  have hasc := Summary.signed_ascending hs.ascending fun st hst =>
    Nat.lt_trans (hs.index_lt st hst) hsteps
  exact ⟨hs, MemoryHistory.keeps s, TableHistory.keeps hfits hprogress hasc⟩

/-- A pipeline that publishes an archive and then tells an owner whom nothing names. -/
def shipping : Pipeline :=
  { name := "ship", trigger := some ⟨["release_*"]⟩, declared := Dict.empty, secrets := []
    steps :=
      [{ Step.ofCommand "pack" ["tar"] with
          publishes := some ⟨"app.tar", "\x7b\x7bbranch\x7d\x7d/app.tar"⟩ },
        Step.ofCommand "tell" ["mail", "\x7b\x7bowner\x7d\x7d"]] }

def shippingContext : Context := shipping.initialContext Dict.empty (.push "release_2") []

def obliging : Invoker := fun _ => .ok ⟨some 0, "", ""⟩

def shipped : Summary :=
  .ofOutcome
    (run obliging (fun n => ⟨n, 0⟩) .nil shipping (.push "release_2") shippingContext).outcome

theorem shipped_consistent_and_kept :
    shipping.steps.length < Word.half64 ∧ shipped.status = .failed ∧
      shipped.failedStep = some 1 ∧ shipped.steps.map (·.state) = ["Succeeded"] ∧
      shipped.artifacts = ["release_2/app.tar"] ∧
      shipped.Consistent obliging shipping (.push "release_2") shippingContext ∧
      HistoryStore.Keeps MemoryHistory shipped ∧ HistoryStore.Keeps TableHistory shipped := by
  have hsteps : shipping.steps.length < Word.half64 := by decide
  have h := run_summary_consistent_and_kept obliging (fun n => ⟨n, 0⟩) .nil shipping
    (.push "release_2") shippingContext hsteps
  exact ⟨hsteps, by decide +kernel, by decide +kernel, by decide +kernel, by decide +kernel, h⟩

end PipelineRunner
