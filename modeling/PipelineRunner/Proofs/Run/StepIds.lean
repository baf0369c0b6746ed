import Mathlib.Data.List.Nodup
import PipelineRunner.Proofs.Config.WellFormed
import PipelineRunner.Proofs.Run.FinalState

/-!
# Step ids

A pipeline and a log look a step up by its id and take the first that has it. The ids of a valid
configuration are distinct, so an id finds its own step and its own entry and nothing else, and the
steps that a run executed, failed to start and never reached are told apart by their ids.
-/

namespace PipelineRunner

theorem find?_key_eq_some_iff {α : Type} {key : α → String} {l : List α}
    (h : (l.map key).Nodup) {k : String} {a : α} :
    (l.find? fun x => key x == k) = some a ↔ a ∈ l ∧ key a = k := by
  constructor
  · intro hfind
    exact ⟨List.mem_of_find?_eq_some hfind, by simpa using List.find?_some hfind⟩
  · rintro ⟨hmem, rfl⟩
    cases hfind : l.find? fun x => key x == key a with
    | none => simpa using List.find?_eq_none.mp hfind a hmem
    | some b =>
      have hkey : key b = key a := by simpa using List.find?_some hfind
      rw [List.inj_on_of_nodup_map h (List.mem_of_find?_eq_some hfind) hmem hkey]

/-! ### What ids tell of a run -/

namespace RunOutcome

/-- The id of the step that failed, if the log has no entry of that step. -/
def unlogged? (o : RunOutcome) : Option String :=
  (o.failure.filter fun x => !o.runLog.results.any fun r => r.index == x.index).map (·.stepId)

/-- The ids of the steps of `p` tell them apart in what a run left: the id of a step finds the
entry with the index of that step, and nothing if there is none, and the executed steps, the one
that failed without an entry and those that were skipped are all steps in order. -/
structure ToldApart (o : RunOutcome) (p : Pipeline) : Prop where
  get? : ∀ (i : Nat) (step : Step), p.steps[i]? = some step →
    ∀ r, o.runLog.get? step.id = some r ↔ r ∈ o.runLog.results ∧ r.index = i
  all : o.runLog.executedSteps ++ o.unlogged?.toList ++ o.skipped = p.steps.map (·.id)

variable {o : RunOutcome} {p : Pipeline} {n : Nat}

theorem executedSteps_eq (hlog : o.runLog.results.map (·.index) = List.range n)
    (hagrees : o.LogAgrees p) : o.runLog.executedSteps = (p.steps.take n).map (·.id) := by
  refine List.ext_getElem? fun i => ?_
  rw [RunLog.executedSteps, List.getElem?_map, List.getElem?_map, List.getElem?_take]
  cases hr : o.runLog.results[i]? with
  | none =>
    have hi : n ≤ i := length_of_log hlog ▸ List.getElem?_eq_none_iff.mp hr
    rw [if_neg (by omega)]
    rfl
  | some r =>
    have hindex := index_eq_of_log hlog hr
    have hmem := List.mem_of_getElem? hr
    have hi : i < n := hindex ▸ index_lt_of_log hlog hmem
    rw [if_pos hi, Option.map_some, ← hindex]
    exact (hagrees r hmem).2.1.symm

theorem any_index_eq (hlog : o.runLog.results.map (·.index) = List.range n) (i : Nat) :
    (o.runLog.results.any fun r => r.index == i) = decide (i < n) := by
  have hmem : i ∈ o.runLog.results.map (·.index) ↔ i < n := by
    rw [hlog, List.mem_range]
  rw [Bool.eq_iff_iff, decide_eq_true_iff, ← hmem]
  simp

theorem Completed.all (h : o.Completed p) (hagrees : o.LogAgrees p) :
    o.runLog.executedSteps ++ o.unlogged?.toList ++ o.skipped = p.steps.map (·.id) := by
  have hunlogged : o.unlogged? = none := by
    rw [unlogged?, h.failure]
    rfl
  rw [executedSteps_eq h.log hagrees, hunlogged, h.skipped, List.take_length]
  simp only [Option.toList_none, List.append_nil]

theorem HaltedBy.all {x : StepFailure} (h : o.HaltedBy p x) (hagrees : o.LogAgrees p) :
    o.runLog.executedSteps ++ o.unlogged?.toList ++ o.skipped = p.steps.map (·.id) := by
  obtain ⟨step, hstep, hid⟩ := Option.map_eq_some_iff.mp h.step
  have hfirst : p.steps.take (x.index + 1) = p.steps.take x.index ++ [step] := by
    rw [List.take_add_one, hstep, Option.toList_some]
  have hsplit : p.steps.map (·.id) =
      (p.steps.take x.index).map (·.id) ++ [x.stepId] ++ o.skipped := by
    rw [h.skipped, ← hid, ← List.map_singleton, ← List.map_append, ← List.map_append, ← hfirst,
      List.take_append_drop]
  rw [hsplit, executedSteps_eq h.log hagrees, unlogged?, h.failure, Option.filter_some,
    any_index_eq h.log]
  -- either the entries end with that of the failed step, or its id comes after them
  cases x.error.processStarted with
  | true => simp [hfirst, hid]
  | false => simp

theorem get?_log_iff (hids : (p.steps.map (·.id)).Nodup) (hagrees : o.LogAgrees p)
    (hall : o.runLog.executedSteps ++ o.unlogged?.toList ++ o.skipped = p.steps.map (·.id))
    {i : Nat} {step : Step} (hstep : p.steps[i]? = some step) (r : RunResult) :
    o.runLog.get? step.id = some r ↔ r ∈ o.runLog.results ∧ r.index = i := by
  have hnodup : (o.runLog.results.map (·.stepId)).Nodup := by
    rw [← hall, List.append_assoc] at hids
    exact (List.nodup_append.mp hids).1
  rw [RunLog.get?, find?_key_eq_some_iff hnodup]
  refine and_congr_right fun hr => ?_
  have hid : p.steps[r.index]?.map (·.id) = some r.stepId := (hagrees r hr).2.1
  constructor
  · intro heq
    -- both places of the list of ids have the same id
    have hsame : (p.steps.map (·.id))[r.index]? = (p.steps.map (·.id))[i]? := by
      rw [List.getElem?_map, List.getElem?_map, hid, hstep, heq, Option.map_some]
    obtain ⟨other, hother, -⟩ := Option.map_eq_some_iff.mp hid
    have hlt := (List.getElem?_eq_some_iff.mp hother).1
    exact (List.getElem?_inj (by rwa [List.length_map]) hids).mp hsame
  · rintro rfl
    rw [hstep, Option.map_some, Option.some.injEq] at hid
    exact hid.symm

end RunOutcome

section
variable {invoke : Invoker} {clock : Clock} {id : Uuid} {p : Pipeline} {event : TriggerEvent}
  {context : Context}

theorem execute_toldApart (hids : (p.steps.map (·.id)).Nodup) :
    (execute invoke clock id p context).outcome.ToldApart p := by
  have hagrees : (execute invoke clock id p context).outcome.LogAgrees p := execute_logAgrees
  have hall : (execute invoke clock id p context).outcome.runLog.executedSteps ++
      (execute invoke clock id p context).outcome.unlogged?.toList ++
      (execute invoke clock id p context).outcome.skipped = p.steps.map (·.id) := by
    cases h : p.steps[(Stage.initial context).halt invoke p.steps]? with
    | none => exact (execute_completed h).all hagrees
    | some step =>
      have hhalted : ∃ x, (execute invoke clock id p context).outcome.HaltedBy p x :=
        execute_halted h
      obtain ⟨x, hx⟩ := hhalted
      exact hx.all hagrees
  exact ⟨fun i step hstep => RunOutcome.get?_log_iff hids hagrees hall hstep, hall⟩

theorem notTriggeredRun_toldApart :
    (notTriggeredRun clock id p event).outcome.ToldApart p where
  get? i step _ r := by simp [notTriggeredRun, RunLog.empty, RunLog.get?]
  all := rfl

end

/-! ### Valid configurations -/

theorem PipelineConfig.ids_toPipeline (c : PipelineConfig) :
    c.toPipeline.steps.map (·.id) = c.steps.map (·.id) := by
  rw [toPipeline, List.map_map]
  rfl

/-- The steps of a valid configuration become those of its pipeline, in order and with distinct ids;
an id finds the step that the configuration describes under it, and any other text finds none. The
ids tell the steps apart in whatever a run leaves, also in a run that no event triggers. -/
theorem valid_ids_tell_steps_apart (pathExists : String → Bool) (c : PipelineConfig)
    (h : c.validate pathExists = .ok ()) :
    let p := c.toPipeline
    p.steps.map (·.id) = c.steps.map (·.id) ∧ (p.steps.map (·.id)).Nodup ∧
      (∀ (i : Nat) (s : StepConfig), c.steps[i]? = some s →
        p.steps[i]? = some (s.toStep c.defaultTimeoutSecs) ∧ p.step? s.id = p.steps[i]?) ∧
      (∀ other, other ∉ c.steps.map (·.id) → p.step? other = none) ∧
      ∀ (invoke : Invoker) (clock : Clock) (id : Uuid) (event : TriggerEvent) (context : Context),
        (execute invoke clock id p context).outcome.ToldApart p ∧
          (run invoke clock id p event context).outcome.ToldApart p := by
  intro p
  have hmap : p.steps.map (·.id) = c.steps.map (·.id) := c.ids_toPipeline
  have hids : (p.steps.map (·.id)).Nodup :=
    hmap ▸ (PipelineConfig.validate_ok_iff_wellFormed.mp h).steps.ids_nodup
  refine ⟨hmap, hids, fun i s hs => ?_, fun other hother => ?_,
    fun invoke clock id event context => ⟨execute_toldApart hids, ?_⟩⟩
  · have hstep : p.steps[i]? = some (s.toStep c.defaultTimeoutSecs) := by
      show (c.steps.map _)[i]? = _
      rw [List.getElem?_map, hs, Option.map_some]
    refine ⟨hstep, ?_⟩
    rw [hstep, Pipeline.step?, find?_key_eq_some_iff hids]
    exact ⟨List.mem_of_getElem? hstep, rfl⟩
  · refine List.find?_eq_none.mpr fun s hs heq => hother ?_
    rw [← hmap]
    exact List.mem_map.mpr ⟨s, hs, by simpa using heq⟩
  · unfold run
    split
    · exact execute_toldApart hids
    · exact notTriggeredRun_toldApart

def mailConfig : PipelineConfig :=
  { PipelineConfig.blank with
    name := "mail"
    steps :=
      [{ StepConfig.blank with id := "pack", run := ["tar"] },
        { StepConfig.blank with id := "tell", run := ["mail", "\x7b\x7bowner\x7d\x7d"] },
        { StepConfig.blank with id := "clean", run := ["rm"] }] }

def mailed : RunOutcome :=
  (run (fun _ => .ok ⟨some 0, "", ""⟩) (fun n => ⟨n, 0⟩) .nil mailConfig.toPipeline .manual
    Context.empty).outcome

theorem mailed_ids_tell_steps_apart :
    mailConfig.validate (fun _ => true) = .ok () ∧
      mailConfig.toPipeline.step? "tell" = mailConfig.toPipeline.steps[1]? ∧
      mailConfig.toPipeline.step? "send" = none ∧
      mailed.runLog.executedSteps = ["pack"] ∧ mailed.unlogged? = some "tell" ∧
      mailed.skipped = ["clean"] ∧ mailed.ToldApart mailConfig.toPipeline := by
  have hvalid : mailConfig.validate (fun _ => true) = .ok () := rfl
  obtain ⟨-, -, hfind, hother, hrun⟩ :=
    valid_ids_tell_steps_apart (fun _ => true) mailConfig hvalid
  refine ⟨hvalid, (hfind 1 _ rfl).2, hother "send" (by decide), by decide +kernel,
    by decide +kernel, by decide +kernel, ?_⟩
  exact (hrun _ _ _ .manual Context.empty).2

end PipelineRunner
