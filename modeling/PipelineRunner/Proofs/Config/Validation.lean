import PipelineRunner.Config.Load

/-!
# What a valid configuration promises

A configuration that passes the check has no faults, so each of its steps passes each of the checks
of a step.
-/

namespace PipelineRunner

namespace StepConfig

theorem faults_of_allFaults_nil {secrets seen : List String} {steps : List StepConfig}
    (h : allFaults secrets seen steps = []) :
    ∀ s ∈ steps, ∃ before, s.faults secrets before = [] := by
  induction steps generalizing seen with
  | nil => simp
  | cons x rest ih =>
    rw [allFaults, List.append_eq_nil_iff] at h
    intro s hs
    rcases List.mem_cons.mp hs with rfl | hs
    · exact ⟨seen, h.1⟩
    · exact ih h.2 s hs

theorem not_mem_secrets_of_captureFaults_nil {secrets : List String} {s : StepConfig}
    {name : String} (h : s.captureFaults secrets = []) (hc : s.capture = some name) :
    name ∉ secrets := by
  intro hmem
  simp [captureFaults, hc, hmem] at h

theorem isValidName_of_captureFaults_nil {secrets : List String} {s : StepConfig}
    {name : String} (h : s.captureFaults secrets = []) (hc : s.capture = some name) :
    Template.isValidName name = true := by
  cases hname : Template.isValidName name with
  | true => rfl
  | false => simp [captureFaults, hc, hname] at h

end StepConfig

namespace PipelineConfig

variable {pathExists : String → Bool} {c : PipelineConfig}

theorem validate_ok_iff : c.validate pathExists = .ok () ↔ c.faults pathExists = [] := by
  unfold validate
  split
  · rename_i h
    simp [h]
  · rename_i h
    simp [h]

theorem step_faults_of_validate (h : c.validate pathExists = .ok ()) :
    ∀ s ∈ c.steps, ∃ before, s.faults c.secrets before = [] := by
  have hall := validate_ok_iff.mp h
  rw [faults, List.append_assoc, List.append_eq_nil_iff] at hall
  exact StepConfig.faults_of_allFaults_nil hall.1

theorem captureFaults_of_validate (h : c.validate pathExists = .ok ()) {s : StepConfig}
    (hs : s ∈ c.steps) : s.captureFaults c.secrets = [] := by
  obtain ⟨before, hf⟩ := step_faults_of_validate h s hs
  simp only [StepConfig.faults, List.append_eq_nil_iff] at hf
  exact hf.1.2

theorem capture_not_secret (h : c.validate pathExists = .ok ()) {step : Step}
    (hstep : step ∈ c.toPipeline.steps) {name : String} (hc : step.capture = some name) :
    name ∉ c.toPipeline.secrets := by
  obtain ⟨s, hs, rfl⟩ := List.mem_map.mp hstep
  exact StepConfig.not_mem_secrets_of_captureFaults_nil (captureFaults_of_validate h hs) hc

theorem capture_isValidName (h : c.validate pathExists = .ok ()) {s : StepConfig}
    (hs : s ∈ c.steps) {name : String} (hc : s.capture = some name) :
    Template.isValidName name = true :=
  StepConfig.isValidName_of_captureFaults_nil (captureFaults_of_validate h hs) hc

end PipelineConfig

end PipelineRunner
