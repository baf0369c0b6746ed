import PipelineRunner.History.Tables
import PipelineRunner.Proofs.History.Versions

/-!
# Saving to tables

A save goes through exactly if no two steps of the summary have one index, and then the tables have
the rows of the summary in place of all rows with its id. What is loaded under that id is the
summary with its steps in the order of their indices; all else is loaded as before.
-/

namespace PipelineRunner

/-! ### Rows and summaries -/

/-- The counters of a summary are words of 64 bits. -/
structure Summary.Fits (s : Summary) : Prop where
  completedSteps : s.completedSteps < Word.size64
  totalSteps : s.totalSteps < Word.size64
  failedStep : ∀ n ∈ s.failedStep, n < Word.size64
  index : ∀ st ∈ s.steps, st.index < Word.size64

theorem ExecutionRow.toSummary_ofSummary {s : Summary} (hs : s.Fits)
    (hprogress : s.progress.isNaN = false) (steps : List StepSummary) :
    (ExecutionRow.ofSummary s).toSummary steps = { s with steps } := by
  have hfailed : (s.failedStep.map fun n => Word.signed64 n).map Word.unsigned64 =
      s.failedStep := by
    cases hn : s.failedStep with
    | none => rfl
    | some n => simp [Word.unsigned64_signed64 (hs.failedStep n hn)]
  simp only [ofSummary, toSummary, hprogress, Word.unsigned64_signed64 hs.completedSteps,
    Word.unsigned64_signed64 hs.totalSteps, hfailed]
  rfl

theorem ExecutionRow.notEarlier_trans (a b c : ExecutionRow) (hab : a.notEarlier b = true)
    (hbc : b.notEarlier c = true) : a.notEarlier c = true := by
  simp only [notEarlier, Bool.not_eq_true', decide_eq_false_iff_not,
    String.not_lt] at *
  exact String.le_trans hbc hab

theorem ExecutionRow.notEarlier_total (a b : ExecutionRow) :
    (a.notEarlier b || b.notEarlier a) = true := by
  simp only [notEarlier, Bool.or_eq_true, Bool.not_eq_true', decide_eq_false_iff_not,
    String.not_lt]
  exact String.le_total _ _

theorem StepRow.toStep_ofStep {st : StepSummary} (h : st.index < Word.size64) (id : Uuid) :
    (StepRow.ofStep id st).toStep = st := by
  simp only [ofStep, toStep, Word.unsigned64_signed64 h]

def StepRow.key (r : StepRow) : Uuid × Int := (r.executionId, r.index)

/-- The steps of a summary have keys of their own. -/
def Summary.KeysApart (s : Summary) : Prop :=
  (s.steps.map fun st => Word.signed64 st.index).Nodup

instance (s : Summary) : Decidable s.KeysApart :=
  inferInstanceAs (Decidable (s.steps.map fun st => Word.signed64 st.index).Nodup)

theorem Summary.executionId_of_mem_rows {s : Summary} {r : StepRow} (h : r ∈ s.rows) :
    r.executionId = s.executionId := by
  obtain ⟨st, -, rfl⟩ := List.mem_map.mp h
  rfl

theorem Summary.map_toStep_rows {s : Summary} (hs : s.Fits) :
    s.rows.map StepRow.toStep = s.steps := by
  rw [rows, List.map_map]
  refine (List.map_congr_left fun st hst => ?_).trans (List.map_id s.steps)
  exact StepRow.toStep_ofStep (hs.index st hst) s.executionId

theorem Summary.keysApart_iff_keys (s : Summary) :
    s.KeysApart ↔ (s.rows.map StepRow.key).Nodup := by
  unfold KeysApart rows List.Nodup
  rw [List.map_map, List.pairwise_map, List.pairwise_map]
  simp [StepRow.key, StepRow.ofStep]

theorem Summary.signed_ascending {s : Summary}
    (hasc : s.steps.Pairwise fun a b => a.index < b.index)
    (hlt : ∀ st ∈ s.steps, st.index < Word.half64) :
    s.steps.Pairwise fun a b => Word.signed64 a.index < Word.signed64 b.index := by
  refine hasc.imp_of_mem fun {a b} ha hb hab => ?_
  rw [Word.signed64_of_lt_half (hlt a ha), Word.signed64_of_lt_half (hlt b hb)]
  omega

theorem Summary.keysApart_of_ascending {s : Summary}
    (hasc : s.steps.Pairwise fun a b => Word.signed64 a.index < Word.signed64 b.index) :
    s.KeysApart :=
  List.pairwise_map.mpr (hasc.imp fun hab => by omega)

theorem Summary.keysApart_iff {s : Summary} (hs : s.Fits) :
    s.KeysApart ↔ (s.steps.map (·.index)).Nodup := by
  unfold KeysApart List.Nodup
  rw [List.pairwise_map, List.pairwise_map]
  refine List.Pairwise.iff_of_mem fun {a b} ha hb => ?_
  rw [Ne, Ne, Word.signed64_inj (hs.index a ha) (hs.index b hb)]

namespace TableHistory

variable {h : TableHistory} {s : Summary} {id : Uuid}

/-! ### Inserting rows -/

theorem insertStep_eq (h : TableHistory) (r : StepRow) :
    h.insertStep r =
      if r.key ∈ h.stepResults.map StepRow.key then .error .stepResult
      else .ok { h with stepResults := h.stepResults ++ [r] } := by
  have htaken : (h.stepResults.any fun t => t.executionId == r.executionId && t.index == r.index) =
      true ↔ r.key ∈ h.stepResults.map StepRow.key := by
    simp [StepRow.key]
  unfold insertStep
  simp only [htaken]

/-- Rows can be inserted in order exactly if no two of them have one key and none of their keys is
taken. -/
theorem insertSteps_eq (h : TableHistory) (rows : List StepRow) :
    h.insertSteps rows =
      if (rows.map StepRow.key).Nodup ∧ ∀ r ∈ rows, r.key ∉ h.stepResults.map StepRow.key then
        .ok { h with stepResults := h.stepResults ++ rows }
      else .error .stepResult := by
  induction rows generalizing h with
  | nil => simp [insertSteps]
  | cons r rest ih =>
    rw [insertSteps, insertStep_eq]
    by_cases htaken : r.key ∈ h.stepResults.map StepRow.key
    · rw [if_pos htaken, if_neg fun hok => hok.2 r List.mem_cons_self htaken]
    · rw [if_neg htaken]
      dsimp only
      -- from here on the key of `r` is taken too
      rw [ih]
      have hiff : ((rest.map StepRow.key).Nodup ∧
            ∀ x ∈ rest, x.key ∉ (h.stepResults ++ [r]).map StepRow.key) ↔
          (((r :: rest).map StepRow.key).Nodup ∧
            ∀ x ∈ r :: rest, x.key ∉ h.stepResults.map StepRow.key) := by
        simp only [List.map_append, List.map_cons, List.map_nil, List.mem_append,
          List.mem_singleton, not_or, List.nodup_cons, List.forall_mem_cons]
        constructor
        · rintro ⟨hrest, hx⟩
          refine ⟨⟨fun hr => ?_, hrest⟩, htaken, fun x hmem => (hx x hmem).1⟩
          obtain ⟨x, hmem, heq⟩ := List.mem_map.mp hr
          exact (hx x hmem).2 heq
        · rintro ⟨⟨hr, hrest⟩, -, hx⟩
          refine ⟨hrest, fun x hmem => ⟨hx x hmem, fun heq => hr ?_⟩⟩
          exact List.mem_map.mpr ⟨x, hmem, heq⟩
      simp only [hiff, List.append_assoc, List.singleton_append]

/-! ### One save -/

/-- The tables with the rows of a summary in place of those with its id. -/
def withSaved (h : TableHistory) (s : Summary) : TableHistory :=
  { h.replaceExecution s with stepResults := (h.replaceExecution s).stepResults ++ s.rows }

theorem save_eq (h : TableHistory) (s : Summary) :
    h.save s = if s.KeysApart then .ok (h.withSaved s) else .error .stepResult := by
  -- the rows of an earlier version are gone, so they are in the way of no new one
  have hfree : ∀ r ∈ s.rows, r.key ∉ (h.replaceExecution s).stepResults.map StepRow.key := by
    intro r hr hmem
    obtain ⟨t, ht, heq⟩ := List.mem_map.mp hmem
    have hid : t.executionId = r.executionId := congrArg Prod.fst heq
    have hne : t.executionId ≠ s.executionId := by
      simpa using (List.mem_filter.mp ht).2
    exact hne (hid.trans (Summary.executionId_of_mem_rows hr))
  have hiff : (s.rows.map StepRow.key).Nodup ∧
      (∀ r ∈ s.rows, r.key ∉ (h.replaceExecution s).stepResults.map StepRow.key) ↔
      s.KeysApart := by
    rw [s.keysApart_iff_keys]
    exact and_iff_left hfree
  show (h.replaceExecution s).insertSteps s.rows = _
  rw [insertSteps_eq]
  simp only [hiff]
  rfl

def rowsOf (h : TableHistory) (id : Uuid) : List StepRow :=
  h.stepResults.filter fun r => r.executionId == id

theorem rowsOf_withSaved (h : TableHistory) (s : Summary) (id : Uuid) :
    (h.withSaved s).rowsOf id = if s.executionId = id then s.rows else h.rowsOf id := by
  unfold rowsOf withSaved replaceExecution
  dsimp only
  rw [List.filter_append, List.filter_filter]
  by_cases hid : s.executionId = id
  · subst hid
    have hown : s.rows.filter (fun r => r.executionId == s.executionId) = s.rows :=
      List.filter_eq_self.mpr fun r hr => beq_iff_eq.mpr (Summary.executionId_of_mem_rows hr)
    rw [if_pos rfl, hown]
    simp
  · have hothers : s.rows.filter (fun r => r.executionId == id) = [] := by
      refine List.filter_eq_nil_iff.mpr fun r hr heq => hid ?_
      rw [← Summary.executionId_of_mem_rows hr]
      exact beq_iff_eq.mp heq
    rw [if_neg hid, hothers, List.append_nil]
    refine List.filter_congr fun r _ => ?_
    by_cases hr : r.executionId = id
    · simp [hr, Ne.symm hid]
    · simp [hr]

/-! ### Loading -/

def stepsOfRows (rows : List StepRow) : List StepSummary :=
  (rows.mergeSort fun a b => decide (a.index ≤ b.index)).map StepRow.toStep

theorem stepsOf_eq (h : TableHistory) (id : Uuid) : h.stepsOf id = stepsOfRows (h.rowsOf id) :=
  rfl

theorem summaryOf_congr {g : TableHistory} {r : ExecutionRow} (heq : g.rowsOf r.id = h.rowsOf r.id) :
    g.summaryOf r = h.summaryOf r := by
  rw [summaryOf, summaryOf, stepsOf_eq, stepsOf_eq, heq]

theorem stepsOfRows_perm (hs : s.Fits) : (stepsOfRows s.rows).Perm s.steps := by
  have hperm := (List.mergeSort_perm s.rows fun a b => decide (a.index ≤ b.index)).map
    StepRow.toStep
  rwa [Summary.map_toStep_rows hs] at hperm

theorem index_le_trans (a b c : StepRow) (hab : decide (a.index ≤ b.index) = true)
    (hbc : decide (b.index ≤ c.index) = true) : decide (a.index ≤ c.index) = true := by
  simp only [decide_eq_true_eq] at *
  omega

theorem index_le_total (a b : StepRow) :
    (decide (a.index ≤ b.index) || decide (b.index ≤ a.index)) = true := by
  simp only [Bool.or_eq_true, decide_eq_true_eq]
  omega

theorem signed64_toStep_of_mem_rows (hs : s.Fits) {r : StepRow} (hr : r ∈ s.rows) :
    Word.signed64 r.toStep.index = r.index := by
  obtain ⟨st, hst, rfl⟩ := List.mem_map.mp hr
  rw [StepRow.toStep_ofStep (hs.index st hst)]
  rfl

theorem stepsOfRows_ascending (hs : s.Fits) (hkeys : s.KeysApart) :
    (stepsOfRows s.rows).Pairwise fun a b => Word.signed64 a.index < Word.signed64 b.index := by
  have hperm := List.mergeSort_perm s.rows fun a b => decide (a.index ≤ b.index)
  have hle := List.pairwise_mergeSort index_le_trans index_le_total s.rows
  have hne : (s.rows.mergeSort fun a b => decide (a.index ≤ b.index)).Pairwise
      fun a b => a.index ≠ b.index := by
    have hrows : (s.rows.map (·.index)).Nodup := by
      rw [Summary.rows, List.map_map]
      exact hkeys
    exact List.pairwise_map.mp ((hperm.map _).nodup_iff.mpr hrows)
  refine List.pairwise_map.mpr ((hle.and hne).imp_of_mem fun {a b} ha hb hab => ?_)
  rw [signed64_toStep_of_mem_rows hs (hperm.mem_iff.mp ha),
    signed64_toStep_of_mem_rows hs (hperm.mem_iff.mp hb)]
  have hle := of_decide_eq_true hab.1
  have hne := hab.2
  omega

theorem stepsOfRows_of_ascending (hs : s.Fits)
    (hasc : s.steps.Pairwise fun a b => Word.signed64 a.index < Word.signed64 b.index) :
    stepsOfRows s.rows = s.steps := by
  have hkeys := Summary.keysApart_of_ascending hasc
  refine List.Perm.eq_of_pairwise (fun a b _ _ hab hba => ?_) (stepsOfRows_ascending hs hkeys) hasc
    (stepsOfRows_perm hs)
  omega

/-- A summary as it is read from its rows: with its steps by index, its counters as words and a
progress that is a number. -/
def readBack (s : Summary) : Summary := (ExecutionRow.ofSummary s).toSummary (stepsOfRows s.rows)

theorem readBack_eq_self (hs : s.Fits) (hprogress : s.progress.isNaN = false)
    (hasc : s.steps.Pairwise fun a b => Word.signed64 a.index < Word.signed64 b.index) :
    readBack s = s := by
  rw [readBack, ExecutionRow.toSummary_ofSummary hs hprogress, stepsOfRows_of_ascending hs hasc]

theorem load_eq (h : TableHistory) (id : Uuid) :
    h.load id = (h.executions.find? fun r => r.id == id).map h.summaryOf := rfl

theorem load_withSaved (h : TableHistory) (s : Summary) :
    (h.withSaved s).load s.executionId = some (readBack s) := by
  have hgone : (h.executions.filter fun r => r.id != s.executionId).find?
      (fun r => r.id == s.executionId) = none := by
    simp
  have hfound : (h.withSaved s).executions.find? (fun r => r.id == s.executionId) =
      some (.ofSummary s) := by
    unfold withSaved replaceExecution
    dsimp only
    rw [List.find?_append, hgone]
    simp [ExecutionRow.ofSummary]
  have hid : (ExecutionRow.ofSummary s).id = s.executionId := rfl
  rw [load_eq, hfound, Option.map_some, summaryOf, stepsOf_eq, hid, rowsOf_withSaved, if_pos rfl,
    readBack]

theorem load_withSaved_self (h : TableHistory) (hs : s.Fits)
    (hprogress : s.progress.isNaN = false) :
    (h.withSaved s).load s.executionId = some { s with steps := stepsOfRows s.rows } := by
  rw [load_withSaved, readBack, ExecutionRow.toSummary_ofSummary hs hprogress]

theorem load_withSaved_of_ne (h : TableHistory) (hid : id ≠ s.executionId) :
    (h.withSaved s).load id = h.load id := by
  have hfound : (h.withSaved s).executions.find? (fun r => r.id == id) =
      h.executions.find? fun r => r.id == id := by
    have hkeeps : ∀ r : ExecutionRow, (r.id == id) = true → (r.id != s.executionId) = true := by
      intro r hr
      rw [beq_iff_eq] at hr
      simpa [hr] using hid
    have hother : [ExecutionRow.ofSummary s].find? (fun r => r.id == id) = none := by
      simpa [ExecutionRow.ofSummary] using Ne.symm hid
    unfold withSaved replaceExecution
    dsimp only
    rw [List.find?_append, find?_filter_of_imp hkeeps, hother, Option.or_none]
  rw [load_eq, load_eq, hfound]
  refine Option.map_congr fun r hr => summaryOf_congr ?_
  have hrid : r.id = id := by simpa using List.find?_some hr
  rw [rowsOf_withSaved, hrid, if_neg (Ne.symm hid)]

end TableHistory

end PipelineRunner
