import PipelineRunner.History.Tables
import PipelineRunner.Json.Reading
import PipelineRunner.Json.Text

/-!
# Histories as JSON

A history as the list of its summaries, in the order in which they were saved.
-/

namespace PipelineRunner.TableHistory

def summaries (h : TableHistory) : List Summary := h.executions.map h.summaryOf

def toText (h : TableHistory) : String := (Json.arr (h.summaries.map Summary.toJson)).toText

def summariesOfText? (s : String) : Option (List Summary) :=
  (Json.ofText? s).bind (Json.asList? Summary.ofJson?)

end PipelineRunner.TableHistory
