import PipelineRunner.History.Store

/-!
# History in memory

Summaries by execution id, and for each pipeline the ids that were first saved under its name. A
second save of an id replaces its summary and leaves the lists of ids alone.
-/

namespace PipelineRunner

structure MemoryHistory where
  /-- The last summary saved under each id. -/
  summaries : List (Uuid × Summary)
  /-- The ids first saved under each pipeline name, in order. -/
  idsByPipeline : Dict (List Uuid)

namespace MemoryHistory

def empty : MemoryHistory := ⟨[], Dict.empty⟩

def load (h : MemoryHistory) (id : Uuid) : Option Summary :=
  (h.summaries.find? fun e => e.1 == id).map (·.2)

def save (h : MemoryHistory) (s : Summary) : MemoryHistory :=
  let ids :=
    if (h.load s.executionId).isSome then h.idsByPipeline
    else
      h.idsByPipeline.insert s.pipelineName
        (((h.idsByPipeline.get? s.pipelineName).getD []) ++ [s.executionId])
  ⟨(s.executionId, s) :: h.summaries.filter fun e => e.1 != s.executionId, ids⟩

/-- The summaries listed for a pipeline, newest first; of two that started together the one saved
first comes first. -/
def list (h : MemoryHistory) (pipeline : String) : List Summary :=
  (((h.idsByPipeline.get? pipeline).getD []).filterMap h.load).mergeSort Summary.notOlder

def pipelines (h : MemoryHistory) : List String := h.idsByPipeline.keys

instance : HistoryStore MemoryHistory where
  empty := empty
  save h s := .ok (h.save s)
  load := load
  list := list
  pipelines := pipelines

end MemoryHistory

end PipelineRunner
