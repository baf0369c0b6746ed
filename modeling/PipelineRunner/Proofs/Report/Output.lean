import PipelineRunner.Proofs.Text.Lines
import PipelineRunner.Report

/-!
# Outputs cut to their tail

A long output is shown by its last lines under a note that counts the others, so that every line is
either counted or shown and none is both; an output that is not too long is shown as it is.
-/

namespace PipelineRunner.Report

def hiddenNote (t : Terminal) (hidden : Nat) : String :=
  t.style .dim "[truncated]" ++ "... (" ++ toString hidden ++ " earlier lines)"

variable {t : Terminal} {text : String} {maxLines : Nat}

theorem output_of_le (h : (Text.lines text).length ≤ maxLines) : output t text maxLines = text := by
  rw [output, if_pos h]

theorem output_of_gt (h : maxLines < (Text.lines text).length) :
    output t text maxLines = hiddenNote t ((Text.lines text).length - maxLines) ++ "\n" ++
      String.intercalate "\n" ((Text.lines text).drop ((Text.lines text).length - maxLines)) := by
  have hend : " earlier lines)\n" = " earlier lines)" ++ "\n" := rfl
  rw [output, if_neg (by omega), hiddenNote]
  simp only [toString, hend, String.append_assoc]

/-- A text has its lines in one way only. If they are not too many, the text is shown unchanged;
otherwise they fall into at least one hidden line and as many shown ones as may be shown, and what is
shown is the note on the number of the hidden ones, a line feed and the others joined by line
feeds. -/
theorem output_keeps_tail (t : Terminal) (text : String) (maxLines : Nat) :
    ∃ ls : List String,
      (∀ ls' : List String, Text.LinesOf text.toList (ls'.map String.toList) ↔ ls' = ls) ∧
      (ls.length ≤ maxLines → output t text maxLines = text) ∧
      (maxLines < ls.length → ∃ hidden shown : List String, ls = hidden ++ shown ∧
        1 ≤ hidden.length ∧ shown.length = maxLines ∧
        output t text maxLines =
          hiddenNote t hidden.length ++ "\n" ++ String.intercalate "\n" shown) := by
  refine ⟨Text.lines text, fun ls' => Text.linesOf_iff, output_of_le, fun h => ?_⟩
  let hidden := (Text.lines text).length - maxLines
  have hlength : ((Text.lines text).take hidden).length = hidden := by
    rw [List.length_take]
    omega
  refine ⟨(Text.lines text).take hidden, (Text.lines text).drop hidden,
    (List.take_append_drop _ _).symm, by omega, ?_, ?_⟩
  · rw [List.length_drop]
    omega
  · rw [output_of_gt h, hlength]

example : output ⟨false, true⟩ "one\r\n\ntwo\n" 1 = "[truncated]... (2 earlier lines)\ntwo" := by
  decide +kernel

end PipelineRunner.Report
