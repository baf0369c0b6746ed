import PipelineRunner.History.Memory
import PipelineRunner.Main
import PipelineRunner.Proofs.Dict
import PipelineRunner.Proofs.Run.Refinement
import PipelineRunner.Proofs.Run.FinalState
import PipelineRunner.Proofs.Run.Events
import PipelineRunner.Proofs.Config.Validation
import PipelineRunner.Proofs.Context.Secrets
import PipelineRunner.Proofs.Redaction.Channels
import PipelineRunner.Proofs.Redaction.Removal
import PipelineRunner.Proofs.Binding.Environment
import PipelineRunner.Proofs.Template
import PipelineRunner.Proofs.Binding.Plan
import PipelineRunner.Proofs.Run.Rehearsal
import PipelineRunner.Proofs.Pipeline.Unresolved
import PipelineRunner.Proofs.Context.Writes
import PipelineRunner.Proofs.Pipeline.Layers
import PipelineRunner.Proofs.Run.Confinement
import PipelineRunner.Proofs.Redaction.Wording
import PipelineRunner.Proofs.Binding.Values
import PipelineRunner.Proofs.Binding.Requests
import PipelineRunner.Proofs.Redaction.Disclosure
import PipelineRunner.Proofs.Redaction.ArtifactKeys
import PipelineRunner.Proofs.Trigger
import PipelineRunner.Proofs.Time.Calendar
import PipelineRunner.Proofs.Time.Numerals
import PipelineRunner.Proofs.Time.Order
import PipelineRunner.Proofs.History.Versions
import PipelineRunner.Proofs.History.Memory
import PipelineRunner.Proofs.History.Tables
import PipelineRunner.Proofs.History.Transactions
import PipelineRunner.Proofs.History.Agreement
import PipelineRunner.Proofs.Run.Progress
import PipelineRunner.Proofs.History.Summaries
import PipelineRunner.Proofs.Binding.Arguments
import PipelineRunner.Proofs.Binding.Dependence
import PipelineRunner.Proofs.Pipeline.Unprovided
import PipelineRunner.Proofs.Redaction.Renaming
import PipelineRunner.Proofs.Template.Grammar
import PipelineRunner.Proofs.Template.Occurrences
import PipelineRunner.Proofs.Template.Substitution
import PipelineRunner.Proofs.Config.WellFormed
import PipelineRunner.Proofs.Run.Failures
import PipelineRunner.Proofs.History.Recent
import PipelineRunner.Proofs.Run.RecordedBranch
import PipelineRunner.Proofs.Run.StepIds
import PipelineRunner.Proofs.Pipeline.Overrides
import PipelineRunner.Proofs.Text.Lines
import PipelineRunner.Proofs.RunLog
import PipelineRunner.Proofs.Json.Fields
import PipelineRunner.Proofs.Report.Runs
import PipelineRunner.Proofs.Report.Output
