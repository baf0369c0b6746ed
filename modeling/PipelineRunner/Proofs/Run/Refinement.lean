import PipelineRunner.Proofs.Dict
import PipelineRunner.Proofs.Run.Trails

/-!
# A run is a fold over its steps

The commands, captures and artifacts of a run, against the stages of the fold: the run invokes the
command of each step bound in its own stage, up to and including the one at which the fold stops,
and keeps what the steps before that one captured and published.
-/

namespace PipelineRunner

namespace Stage

variable {invoke : Invoker} {clock : Clock} {s : Stage} {base : Nat} {state : RunState}
  {steps : List Step}

theorem next_commands (step : Step) :
    (s.next invoke step).commands = s.commands ++ (s.command? step).toList := rfl

theorem reach_commands {i : Nat} (hi : i ≤ s.halt invoke steps) :
    (s.reach invoke steps i).commands =
      s.commands ++ (s.trail invoke clock base state steps).commands.take i := by
  induction i with
  | zero => simp
  | succ i ih =>
    have hlt : i < steps.length := by
      have := (haltsAt_halt invoke s steps).le_length
      omega
    have hstep : steps[i]? = some steps[i] := List.getElem?_eq_getElem hlt
    have hc : (s.trail invoke clock base state steps).commands[i]? =
        (s.reach invoke steps i).command? steps[i] := by
      rw [trail_commands, if_pos (by omega), commandAt?, hstep, Option.bind_some]
    rw [reach_succ i hstep, next_commands, ih (by omega), List.take_add_one, hc,
      List.append_assoc]

end Stage

/-- The run of a pipeline, field by field, is its fold. With `h` the index at which the fold stops:
the command invoked at an index up to `h` is that of the step there, and there are no others; a name
has the redacted output of the last step before `h` that captured it; the artifacts are those of the
steps before `h`, in order. The context the run started with is still the one its branch is read
from. -/
theorem execute_refines_fold (invoke : Invoker) (clock : Clock) (id : Uuid) (p : Pipeline)
    (context : Context) :
    let s := Stage.initial context
    let x := execute invoke clock id p context
    ∃ h, s.HaltsAt invoke p.steps h ∧
      (∀ i, x.commands[i]? = if i ≤ h then s.commandAt? invoke p.steps i else none) ∧
      (∀ i ≤ h, (s.reach invoke p.steps i).commands = x.commands.take i) ∧
      (∀ name v, x.outcome.captured.get? name = some v ↔
        ∃ i < h, s.captureAt? invoke p.steps i = some (name, v) ∧
          ∀ j < h, i < j → ∀ w, s.captureAt? invoke p.steps j ≠ some (name, w)) ∧
      x.outcome.artifacts = (List.range h).filterMap (s.artifactAt? invoke p.steps) ∧
      x.outcome.branch = context.plain? "branch" := by
  intro s x
  have hcommands : x.commands = (p.trail invoke clock id context).commands := rfl
  have hcaptured : x.outcome.captured =
      Dict.ofList (p.trail invoke clock id context).captured := rfl
  have hartifacts : x.outcome.artifacts = (p.trail invoke clock id context).artifacts := rfl
  refine ⟨s.halt invoke p.steps, Stage.haltsAt_halt invoke s p.steps, ?_, ?_, ?_, ?_, rfl⟩
  · intro i
    rw [hcommands, Stage.trail_commands]
  · intro i hi
    rw [hcommands, Stage.reach_commands hi]
    rfl
  · intro name v
    rw [hcaptured, Stage.trail_captured]
    exact Dict.get?_ofList_range _ _ name v
  · rw [hartifacts, Stage.trail_artifacts]

end PipelineRunner
