import PipelineRunner.Proofs.History.Tables

/-!
# Saves as transactions

The statements of a save change the tables in place, and the first of them already drops the
earlier version of the execution. If a later one is refused, the tables are rolled back. So a save
is made as a whole or leaves no trace, and it touches no other execution.
-/

namespace PipelineRunner

namespace TableHistory

/-! ### The transaction of a save -/

theorem transact_insertSteps (start h : TableHistory) (rows : List StepRow) :
    transact start h (rows.map .insertStep) =
      match h.insertSteps rows with
      | .error e => (start, some e)
      | .ok h' => (h', none) := by
  induction rows generalizing h with
  | nil => rfl
  | cons r rest ih =>
    rw [List.map_cons, transact, insertSteps, Statement.run]
    cases h.insertStep r with
    | error e => rfl
    | ok h' => exact ih h'

/-- The transaction of a save leaves what the save makes of the tables, or the tables. -/
theorem attempt_eq (h : TableHistory) (s : Summary) :
    h.attempt s =
      match h.save s with
      | .error e => (h, some e)
      | .ok h' => (h', none) := by
  have hdelete : Statement.run (h.replaceExecution s) (.deleteSteps s.executionId) =
      .ok (h.replaceExecution s) := by
    simp [Statement.run, replaceExecution]
  unfold attempt statements
  rw [transact, Statement.run]
  dsimp only
  rw [transact, hdelete]
  exact transact_insertSteps h (h.replaceExecution s) s.rows

theorem afterAll_append (saves later : List Summary) :
    afterAll (saves ++ later) = later.foldl (fun h s => (h.attempt s).1) (afterAll saves) :=
  List.foldl_append

theorem afterAll_of_refused {saves : List Summary} {s : Summary} {e : SaveError}
    (h : (afterAll saves).save s = .error e) (later : List Summary) :
    afterAll (saves ++ s :: later) = afterAll (saves ++ later) := by
  rw [afterAll_append, afterAll_append, List.foldl_cons, attempt_eq, h]

/-! ### Lists of other executions -/

section
variable {α : Type} {le : α → α → Bool}

theorem eq_filter_append {a : α} {l m : List α} (hl : ∀ b ∈ l, (!le a b) = true)
    (hm : ∀ b ∈ m, le a b = true) :
    l = (l ++ m).filter (fun b => !le a b) ∧ m = (l ++ m).filter (le a) := by
  rw [List.filter_append, List.filter_append]
  constructor
  · rw [List.filter_eq_self.mpr hl, List.filter_eq_nil_iff.mpr (by simpa using hm),
      List.append_nil]
  · rw [List.filter_eq_self.mpr hm, List.filter_eq_nil_iff.mpr (by simpa using hl),
      List.nil_append]

theorem le_of_mem_after {a : α} {l m : List α}
    (h : (l ++ a :: m).Pairwise fun b c => le b c = true) : ∀ b ∈ m, le a b = true :=
  (List.pairwise_cons.mp (List.pairwise_append.mp h).2.1).1

/-- What is left of a sorted list is in the order in which it would be sorted alone. -/
theorem filter_mergeSort (htrans : ∀ a b c, le a b = true → le b c = true → le a c = true)
    (htotal : ∀ a b, (le a b || le b a) = true) (q : α → Bool) (l : List α) :
    (l.mergeSort le).filter q = (l.filter q).mergeSort le := by
  induction l with
  | nil => simp
  | cons a l ih =>
    obtain ⟨l₁, l₂, hal, hl, hl₁⟩ := List.mergeSort_cons htrans htotal a l
    rw [hl, List.filter_append] at ih
    rw [hal, List.filter_append]
    by_cases hq : q a = true
    · rw [List.filter_cons_of_pos hq, List.filter_cons_of_pos hq]
      obtain ⟨m₁, m₂, ham, hm, hm₁⟩ := List.mergeSort_cons htrans htotal a (l.filter q)
      have hl₂ : ∀ b ∈ l₂, le a b = true :=
        le_of_mem_after (hal ▸ List.pairwise_mergeSort htrans htotal (a :: l))
      have hm₂ : ∀ b ∈ m₂, le a b = true :=
        le_of_mem_after (ham ▸ List.pairwise_mergeSort htrans htotal (a :: l.filter q))
      -- in the whole list and in what is left of it `a` stands at the same cut
      have hcut := eq_filter_append (a := a) (l := l₁.filter q) (m := l₂.filter q)
        (fun b hb => hl₁ b (List.mem_filter.mp hb).1) fun b hb => hl₂ b (List.mem_filter.mp hb).1
      have hcut' := eq_filter_append hm₁ hm₂
      rw [ih, hm] at hcut
      rw [ham, hcut.1, hcut.2, ← hcut'.1, ← hcut'.2]
    · rw [List.filter_cons_of_neg hq, List.filter_cons_of_neg hq, ih]

end

theorem list_withSaved_others (h : TableHistory) (s : Summary) (p : String) :
    ((h.withSaved s).list p).filter (fun v => v.executionId != s.executionId) =
      (h.list p).filter fun v => v.executionId != s.executionId := by
  have hrows : ∀ g : TableHistory, (g.list p).filter (fun v => v.executionId != s.executionId) =
      (((g.executions.filter fun r => r.pipelineName == p).filter
        fun r => r.id != s.executionId).mergeSort ExecutionRow.notEarlier).map g.summaryOf := by
    intro g
    rw [← filter_mergeSort ExecutionRow.notEarlier_trans ExecutionRow.notEarlier_total, list,
      List.filter_map]
    rfl
  have hothers : ((h.withSaved s).executions.filter fun r => r.pipelineName == p).filter
      (fun r => r.id != s.executionId) =
      (h.executions.filter fun r => r.pipelineName == p).filter
        fun r => r.id != s.executionId := by
    have hown : ([ExecutionRow.ofSummary s].filter fun r => r.pipelineName == p).filter
        (fun r => r.id != s.executionId) = [] := by
      refine List.filter_eq_nil_iff.mpr fun r hr => ?_
      rw [List.mem_singleton.mp (List.mem_filter.mp hr).1]
      simp [ExecutionRow.ofSummary]
    unfold withSaved replaceExecution
    dsimp only
    rw [List.filter_append, List.filter_append, hown, List.append_nil, List.filter_filter,
      List.filter_filter, List.filter_filter]
    refine List.filter_congr fun r _ => ?_
    cases r.id != s.executionId <;> simp
  rw [hrows, hrows, hothers]
  refine List.map_congr_left fun r hr => summaryOf_congr ?_
  have hne : r.id ≠ s.executionId := by
    simpa using (List.mem_filter.mp (List.mem_mergeSort.mp hr)).2
  rw [rowsOf_withSaved, if_neg (Ne.symm hne)]

/-! ### What a save does -/

/-- What tables hold after the save of a summary: the summary with its steps by index and no step
row but those, and all other executions as they were. -/
structure Saved (h : TableHistory) (s : Summary) (h' : TableHistory) : Prop where
  loaded : ∃ steps, h'.load s.executionId = some { s with steps } ∧ steps.Perm s.steps ∧
    steps.Pairwise fun a b => Word.signed64 a.index < Word.signed64 b.index
  rows : h'.rowsOf s.executionId = s.rows
  load_others : ∀ id, id ≠ s.executionId → h'.load id = h.load id
  rows_others : ∀ id, id ≠ s.executionId → h'.rowsOf id = h.rowsOf id
  list_others : ∀ p, ((h'.list p).filter fun v => v.executionId != s.executionId) =
    (h.list p).filter fun v => v.executionId != s.executionId

theorem saved_withSaved (h : TableHistory) {s : Summary} (hs : s.Fits)
    (hprogress : s.progress.isNaN = false) (hkeys : s.KeysApart) : Saved h s (h.withSaved s) where
  loaded := ⟨stepsOfRows s.rows, h.load_withSaved_self hs hprogress, stepsOfRows_perm hs,
    stepsOfRows_ascending hs hkeys⟩
  rows := by rw [rowsOf_withSaved, if_pos rfl]
  load_others _ hid := h.load_withSaved_of_ne hid
  rows_others _ hid := by rw [rowsOf_withSaved, if_neg (Ne.symm hid)]
  list_others := h.list_withSaved_others s

/-- After any saves, some of which may have failed, the save of a summary fails exactly if two of
its steps have one index. If it fails, the tables are rolled back, and everything later goes on as
if it had not been tried; else they hold the summary and no trace of an earlier version, and no
other execution has changed. -/
theorem save_all_or_nothing (saves : List Summary) (s : Summary) (hs : s.Fits)
    (hprogress : s.progress.isNaN = false) :
    ((∃ e, (afterAll saves).save s = .error e) ↔ ¬ (s.steps.map (·.index)).Nodup) ∧
    (∀ e, (afterAll saves).save s = .error e →
      (afterAll saves).attempt s = (afterAll saves, some e) ∧
      ∀ later, afterAll (saves ++ s :: later) = afterAll (saves ++ later)) ∧
    ∀ h', (afterAll saves).save s = .ok h' →
      (afterAll saves).attempt s = (h', none) ∧ Saved (afterAll saves) s h' := by
  refine ⟨?_, fun e he => ⟨?_, afterAll_of_refused he⟩, fun h' hok => ⟨?_, ?_⟩⟩
  · rw [← Summary.keysApart_iff hs, save_eq]
    split
    · rename_i hkeys
      simp [hkeys]
    · rename_i hkeys
      exact iff_of_true ⟨.stepResult, rfl⟩ hkeys
  · rw [attempt_eq, he]
  · rw [attempt_eq, hok]
  · rw [save_eq] at hok
    split at hok
    · rename_i hkeys
      cases hok
      exact saved_withSaved _ hs hprogress hkeys
    · cases hok

def builtRun : Summary :=
  { executionId := .nil, pipelineName := "build", branch := some "main", status := .completed,
    startedAt := ⟨0, 0⟩, completedAt := none, progress := 1.0, completedSteps := 2,
    totalSteps := 2, failedStep := none, error := none, artifacts := [],
    steps := [⟨0, "compile", "completed", some 0, 5⟩, ⟨1, "link", "completed", some 0, 7⟩] }

/-- A later version of the run, whose third step has the index of the first. -/
def clashingRun : Summary :=
  { builtRun with
    status := .failed
    steps := builtRun.steps ++ [⟨0, "compile", "failed", some 1, 5⟩] }

/-- The clashing version is refused, and the first one is still loaded with its two steps. -/
theorem clash_keeps_earlier_version :
    builtRun.Fits ∧ clashingRun.Fits ∧
    (afterAll []).attempt builtRun = (afterAll [builtRun], none) ∧
    (∃ e, (afterAll [builtRun]).attempt clashingRun = (afterAll [builtRun], some e)) ∧
      (afterAll [builtRun, clashingRun]).load .nil = some builtRun := by
  have hfits : builtRun.Fits := ⟨by decide, by decide, by simp [builtRun], by decide⟩
  have hfits' : clashingRun.Fits :=
    ⟨by decide, by decide, by simp [builtRun, clashingRun], by decide⟩
  -- the first version is saved
  obtain ⟨hfails, -, hsaves⟩ := save_all_or_nothing [] builtRun hfits (by decide)
  have hfirst : (afterAll []).save builtRun = .ok (afterAll [builtRun]) := by
    cases h : (afterAll []).save builtRun with
    | error e => exact absurd (by decide) (hfails.mp ⟨e, h⟩)
    | ok h' =>
      have hafter : afterAll [builtRun] = h' := by
        show ((afterAll []).attempt builtRun).1 = h'
        rw [attempt_eq, h]
      rw [hafter]
  obtain ⟨hattempt, hsaved⟩ := hsaves _ hfirst
  -- the second is not
  obtain ⟨hclash, hrefused, -⟩ := save_all_or_nothing [builtRun] clashingRun hfits' (by decide)
  obtain ⟨e, he⟩ := hclash.mpr (by decide)
  obtain ⟨hrolled, hlater⟩ := hrefused e he
  refine ⟨hfits, hfits', hattempt, ⟨e, hrolled⟩, ?_⟩
  have hback : afterAll [builtRun, clashingRun] = afterAll [builtRun] := hlater []
  rw [hback]
  obtain ⟨steps, hload, hperm, hasc⟩ := hsaved.loaded
  have hsteps : steps = builtRun.steps := by
    refine List.Perm.eq_of_pairwise (fun a b _ _ hab hba => ?_) hasc (by decide +kernel) hperm
    omega
  rwa [hsteps] at hload

end TableHistory

end PipelineRunner
