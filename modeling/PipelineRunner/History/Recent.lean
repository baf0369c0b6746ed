import PipelineRunner.History.Store

/-!
# Recent runs

The runs that a history shows: those of one pipeline or of all, the newest first, and no more than
asked for.
-/

namespace PipelineRunner.HistoryStore

variable {σ : Type} [HistoryStore σ]

def selection (h : σ) : Option String → List Summary
  | some pipeline => list h pipeline
  | none => (pipelines h).flatMap (list h)

/-- The newest summaries of a selection, at most `limit` of them. Of two that started together the
one selected first comes first. -/
def recent (h : σ) (pipeline : Option String) (limit : Nat) : List Summary :=
  ((selection h pipeline).mergeSort Summary.notOlder).take limit

end PipelineRunner.HistoryStore
