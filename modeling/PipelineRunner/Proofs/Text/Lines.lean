import PipelineRunner.Text.Lines

/-!
# The lines of a text

`LinesOf` says what the lines of a text are without reading it character by character: each line but
the last is ended by a line feed, alone or after a carriage return, and the last may have no end.
`lines` finds them, and every text has its lines in one way only.
-/

namespace PipelineRunner.Text

/-- A text and its lines. A carriage return before a line feed belongs to the end of the line, and
so it stays in the line only if the text ends there. -/
inductive LinesOf : List Char → List (List Char) → Prop
  | nil : LinesOf [] []
  | unended (l : List Char) : l ≠ [] → '\n' ∉ l → LinesOf l [l]
  | lineFeed (l rest : List Char) (ls : List (List Char)) :
    '\n' ∉ l → l.getLast? ≠ some '\r' → LinesOf rest ls → LinesOf (l ++ '\n' :: rest) (l :: ls)
  | returnAndFeed (l rest : List Char) (ls : List (List Char)) :
    '\n' ∉ l → LinesOf rest ls → LinesOf (l ++ '\r' :: '\n' :: rest) (l :: ls)

/-! ### Reading a line -/

theorem linesFrom_line {l : List Char} (hl : '\n' ∉ l) (acc rest : List Char) :
    linesFrom acc (l ++ '\n' :: rest) = closeLine (l.reverse ++ acc) :: linesFrom [] rest := by
  induction l generalizing acc with
  | nil => rfl
  | cons c l ih =>
    rw [List.mem_cons, not_or] at hl
    obtain ⟨hc, hl⟩ := hl
    rw [List.cons_append, linesFrom, if_neg (Ne.symm hc), ih hl, List.reverse_cons,
      List.append_assoc, List.singleton_append]

theorem linesFrom_unended {l : List Char} (hl : '\n' ∉ l) (acc : List Char) :
    linesFrom acc l = if (l.reverse ++ acc).isEmpty then [] else [acc.reverse ++ l] := by
  induction l generalizing acc with
  | nil => simp [linesFrom]
  | cons c l ih =>
    rw [List.mem_cons, not_or] at hl
    obtain ⟨hc, hl⟩ := hl
    rw [linesFrom, if_neg (Ne.symm hc), ih hl, List.reverse_cons, List.reverse_cons,
      List.append_assoc, List.append_assoc, List.singleton_append, List.singleton_append]

theorem closeLine_return (l : List Char) : closeLine (l ++ ['\r']).reverse = l := by
  rw [List.reverse_append, List.reverse_singleton, List.singleton_append, closeLine,
    List.reverse_reverse]

theorem closeLine_of_ne {l : List Char} (h : l.getLast? ≠ some '\r') :
    closeLine l.reverse = l := by
  rw [← List.head?_reverse] at h
  have hkept : closeLine l.reverse = l.reverse.reverse := by
    unfold closeLine
    split
    · rename_i acc hacc
      rw [hacc] at h
      exact absurd rfl h
    · rfl
  rw [hkept, List.reverse_reverse]

/-! ### Reading all lines -/

theorem linesOf_linesFrom {acc : List Char} (hacc : '\n' ∉ acc) (s : List Char) :
    LinesOf (acc.reverse ++ s) (linesFrom acc s) := by
  induction s generalizing acc with
  | nil =>
    rw [List.append_nil, linesFrom]
    cases acc with
    | nil => exact .nil
    | cons c acc => exact .unended _ (by simp) (by rwa [List.mem_reverse])
  | cons c r ih =>
    by_cases hc : c = '\n'
    · subst hc
      rw [linesFrom, if_pos rfl]
      have hrest : LinesOf r (linesFrom [] r) := ih List.not_mem_nil
      unfold closeLine
      split
      · rename_i acc
        rw [List.reverse_cons, List.append_assoc, List.singleton_append]
        refine .returnAndFeed acc.reverse r _ ?_ hrest
        rw [List.mem_reverse]
        exact fun h => hacc (List.mem_cons_of_mem _ h)
      · rename_i hnot
        refine .lineFeed acc.reverse r _ (by rwa [List.mem_reverse]) ?_ hrest
        rw [List.getLast?_reverse]
        intro h
        obtain ⟨acc', rfl⟩ := List.head?_eq_some_iff.mp h
        exact hnot acc' rfl
    · rw [linesFrom, if_neg hc]
      have hmem : '\n' ∉ c :: acc := by simp [hacc, Ne.symm hc]
      have hlines := ih hmem
      rwa [List.reverse_cons, List.append_assoc, List.singleton_append] at hlines

theorem LinesOf.linesFrom_eq {s : List Char} {ls : List (List Char)} (h : LinesOf s ls) :
    linesFrom [] s = ls := by
  induction h with
  | nil => rfl
  | unended l hne hl =>
    rw [linesFrom_unended hl, List.append_nil, List.reverse_nil, List.nil_append, if_neg]
    simpa using hne
  | lineFeed l rest ls hl hlast _ ih =>
    rw [linesFrom_line hl, List.append_nil, closeLine_of_ne hlast, ih]
  | returnAndFeed l rest ls hl _ ih =>
    have hreturn : '\n' ∉ l ++ ['\r'] := by simpa using hl
    have hsplit : l ++ '\r' :: '\n' :: rest = (l ++ ['\r']) ++ '\n' :: rest := by simp
    rw [hsplit, linesFrom_line hreturn, List.append_nil, closeLine_return, ih]

theorem linesOf_iff {s : String} {ls : List String} :
    LinesOf s.toList (ls.map String.toList) ↔ ls = lines s := by
  unfold lines
  constructor
  · intro h
    rw [h.linesFrom_eq, List.map_map]
    exact (List.map_id' ls).symm.trans (List.map_congr_left fun l _ => String.ofList_toList.symm)
  · rintro rfl
    have hback : ((linesFrom [] s.toList).map String.ofList).map String.toList =
        linesFrom [] s.toList := by
      rw [List.map_map]
      exact (List.map_congr_left fun l _ => String.toList_ofList).trans (List.map_id' _)
    rw [hback]
    exact linesOf_linesFrom List.not_mem_nil s.toList

example : lines "a\r\n\nb\r\r\nc\r" = ["a", "", "b\r", "c\r"] := by decide

end PipelineRunner.Text
