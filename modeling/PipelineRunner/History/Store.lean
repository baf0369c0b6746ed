import PipelineRunner.History.Summary

/-!
# What a history store does

A store keeps summaries under their execution ids, lists those of a pipeline with the newest first,
and lists the names of the pipelines it knows.
-/

namespace PipelineRunner

inductive SaveError
  | stepResult
  deriving DecidableEq, Repr

def SaveError.message : SaveError → String
  | .stepResult => "Failed to save step result"

/-- Whether the first summary is listed before the second or beside it. -/
def Summary.notOlder (a b : Summary) : Bool := !a.startedAt.before b.startedAt

/-- A store of summaries with state `σ`. -/
class HistoryStore (σ : Type) where
  empty : σ
  save : σ → Summary → Except SaveError σ
  load : σ → Uuid → Option Summary
  list : σ → String → List Summary
  pipelines : σ → List String

end PipelineRunner
