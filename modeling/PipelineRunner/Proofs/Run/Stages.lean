import PipelineRunner.Run

/-!
# Stages of a run

A run as a fold over its steps. A stage is what the fold carries from step to step: the context a
step is bound against and the commands invoked before it. `Stage.next` is said through binding, the
invoker and the context alone, and `Stage.HaltsAt` says where the fold stops. `Stage.halt` computes
that place.
-/

namespace PipelineRunner

structure Stage where
  context : Context
  commands : List Command

namespace Stage

def initial (context : Context) : Stage := ⟨context, []⟩

/-! ### One step -/

def command? (s : Stage) (step : Step) : Option Command :=
  match Binding.bind step s.context with
  | .error _ => none
  | .ok b => some b.command

/-- What a step hands on if it succeeds: it can be bound, and the reply to its command is an exit
with the code 0. -/
def yield? (invoke : Invoker) (s : Stage) (step : Step) : Option StepYield :=
  match Binding.bind step s.context with
  | .error _ => none
  | .ok b =>
    match invoke (s.commands ++ [b.command]) with
    | .error _ => none
    | .ok o => if o.exitCode = some 0 then some ⟨o.stdout, b.publish⟩ else none

/-- The stage after a step. The trimmed output of a step that succeeds is bound under the name the
step captures; any other step leaves the context as it is. -/
def next (invoke : Invoker) (s : Stage) (step : Step) : Stage :=
  { context :=
      match s.yield? invoke step, step.capture with
      | some y, some name => s.context.withOutput name (Text.trim y.stdout)
      | _, _ => s.context
    commands := s.commands ++ (s.command? step).toList }

theorem exists_bound_of_yield {invoke : Invoker} {s : Stage} {step : Step} {y : StepYield}
    (h : s.yield? invoke step = some y) :
    ∃ b o, Binding.bind step s.context = .ok b ∧ invoke (s.commands ++ [b.command]) = .ok o ∧
      o.exitCode = some 0 ∧ y = ⟨o.stdout, b.publish⟩ := by
  unfold yield? at h
  split at h
  · simp at h
  · rename_i b hb
    split at h
    · simp at h
    · rename_i o ho
      split at h
      · rename_i hc
        exact ⟨b, o, hb, ho, hc, (Option.some.inj h).symm⟩
      · simp at h

theorem command?_isSome_of_yield {invoke : Invoker} {s : Stage} {step : Step} {y : StepYield}
    (h : s.yield? invoke step = some y) : ∃ c, s.command? step = some c := by
  obtain ⟨b, o, hb, -⟩ := exists_bound_of_yield h
  exact ⟨b.command, by simp only [command?, hb]⟩

/-! ### The steps of a run -/

def reach (invoke : Invoker) (s : Stage) (steps : List Step) (i : Nat) : Stage :=
  (steps.take i).foldl (next invoke) s

def commandAt? (invoke : Invoker) (s : Stage) (steps : List Step) (i : Nat) : Option Command :=
  steps[i]?.bind (s.reach invoke steps i).command?

def yieldAt? (invoke : Invoker) (s : Stage) (steps : List Step) (i : Nat) : Option StepYield :=
  steps[i]?.bind ((s.reach invoke steps i).yield? invoke)

def artifactAt? (invoke : Invoker) (s : Stage) (steps : List Step) (i : Nat) : Option Artifact :=
  (s.yieldAt? invoke steps i).bind (·.publish)

/-- What the step at an index captures, if it succeeds: the name, and the trimmed output with the
secrets of the step's own context redacted. -/
def captureAt? (invoke : Invoker) (s : Stage) (steps : List Step) (i : Nat) :
    Option (String × String) :=
  (s.yieldAt? invoke steps i).bind fun y =>
    (steps[i]?.bind (·.capture)).map fun name =>
      (name, (s.reach invoke steps i).context.redact (Text.trim y.stdout))

def lineAt? (invoke : Invoker) (s : Stage) (steps : List Step) (i : Nat) : Option String :=
  (s.commandAt? invoke steps i).map fun c =>
    (s.reach invoke steps i).context.redact c.displayLine

/-- The fold stops at `h`: the steps before it succeed, and the one at `h` does not or is past the
last. -/
structure HaltsAt (invoke : Invoker) (s : Stage) (steps : List Step) (h : Nat) : Prop where
  le_length : h ≤ steps.length
  succeeds : ∀ i < h, (s.yieldAt? invoke steps i).isSome
  stops : s.yieldAt? invoke steps h = none

/-- How many steps succeed before the first that does not. -/
def halt (invoke : Invoker) (s : Stage) : List Step → Nat
  | [] => 0
  | step :: rest =>
    match s.yield? invoke step with
    | none => 0
    | some _ => halt invoke (s.next invoke step) rest + 1

section
variable {invoke : Invoker} {s : Stage} {step : Step} {rest steps : List Step} {y : StepYield}

@[simp] theorem reach_zero : s.reach invoke steps 0 = s := by
  simp only [reach, List.take_zero, List.foldl_nil]

@[simp] theorem reach_cons_succ (i : Nat) :
    s.reach invoke (step :: rest) (i + 1) = (s.next invoke step).reach invoke rest i := by
  simp only [reach, List.take_succ_cons, List.foldl_cons]

theorem reach_succ (i : Nat) (h : steps[i]? = some step) :
    s.reach invoke steps (i + 1) = (s.reach invoke steps i).next invoke step := by
  simp only [reach, List.take_add_one, h, Option.toList_some, List.foldl_append, List.foldl_cons,
    List.foldl_nil]

@[simp] theorem commandAt?_nil (i : Nat) : s.commandAt? invoke [] i = none := rfl

@[simp] theorem commandAt?_cons_zero :
    s.commandAt? invoke (step :: rest) 0 = s.command? step := by
  simp [commandAt?]

@[simp] theorem commandAt?_cons_succ (i : Nat) :
    s.commandAt? invoke (step :: rest) (i + 1) =
      (s.next invoke step).commandAt? invoke rest i := by
  simp [commandAt?]

@[simp] theorem yieldAt?_nil (i : Nat) : s.yieldAt? invoke [] i = none := rfl

@[simp] theorem yieldAt?_cons_zero :
    s.yieldAt? invoke (step :: rest) 0 = s.yield? invoke step := by
  simp [yieldAt?]

@[simp] theorem yieldAt?_cons_succ (i : Nat) :
    s.yieldAt? invoke (step :: rest) (i + 1) = (s.next invoke step).yieldAt? invoke rest i := by
  simp [yieldAt?]

@[simp] theorem artifactAt?_cons_zero :
    s.artifactAt? invoke (step :: rest) 0 = (s.yield? invoke step).bind (·.publish) := by
  simp [artifactAt?]

@[simp] theorem artifactAt?_cons_succ (i : Nat) :
    s.artifactAt? invoke (step :: rest) (i + 1) =
      (s.next invoke step).artifactAt? invoke rest i := by
  simp [artifactAt?]

@[simp] theorem captureAt?_cons_zero :
    s.captureAt? invoke (step :: rest) 0 =
      (s.yield? invoke step).bind fun y =>
        step.capture.map fun name => (name, s.context.redact (Text.trim y.stdout)) := by
  simp [captureAt?]

@[simp] theorem captureAt?_cons_succ (i : Nat) :
    s.captureAt? invoke (step :: rest) (i + 1) =
      (s.next invoke step).captureAt? invoke rest i := by
  simp [captureAt?]

@[simp] theorem halt_nil : s.halt invoke [] = 0 := rfl

theorem halt_cons_of_none (h : s.yield? invoke step = none) :
    s.halt invoke (step :: rest) = 0 := by
  simp only [halt, h]

theorem halt_cons_of_some (h : s.yield? invoke step = some y) :
    s.halt invoke (step :: rest) = (s.next invoke step).halt invoke rest + 1 := by
  simp only [halt, h]

end

theorem haltsAt_halt (invoke : Invoker) (s : Stage) (steps : List Step) :
    s.HaltsAt invoke steps (s.halt invoke steps) := by
  induction steps generalizing s with
  | nil => exact ⟨by simp, by simp, by simp⟩
  | cons step rest ih =>
    cases hy : s.yield? invoke step with
    | none =>
      rw [halt_cons_of_none hy]
      exact ⟨by simp, by simp, by simp [hy]⟩
    | some y =>
      have hr := ih (s.next invoke step)
      rw [halt_cons_of_some hy]
      refine ⟨by simpa using hr.le_length, fun i hi => ?_, by simpa using hr.stops⟩
      cases i with
      | zero => simp [hy]
      | succ i => simpa using hr.succeeds i (by omega)

theorem HaltsAt.eq_halt {invoke : Invoker} {s : Stage} {steps : List Step} {h : Nat}
    (hh : s.HaltsAt invoke steps h) : h = s.halt invoke steps := by
  have hhalt := haltsAt_halt invoke s steps
  rcases Nat.lt_trichotomy h (s.halt invoke steps) with hlt | heq | hgt
  · have hsome := hhalt.succeeds h hlt
    rw [hh.stops] at hsome
    cases hsome
  · exact heq
  · have hsome := hh.succeeds _ hgt
    rw [hhalt.stops] at hsome
    cases hsome

theorem halt_eq_length {invoke : Invoker} {s : Stage} {steps : List Step}
    (h : steps[s.halt invoke steps]? = none) : s.halt invoke steps = steps.length := by
  have hle := (haltsAt_halt invoke s steps).le_length
  have hge := List.getElem?_eq_none_iff.mp h
  exact Nat.le_antisymm hle hge

end Stage

end PipelineRunner
