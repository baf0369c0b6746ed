import Mathlib.Data.List.Induction
import Mathlib.Data.List.Nodup
import PipelineRunner.History.Store
import PipelineRunner.Proofs.Time.Order

/-!
# What a history should answer

Summaries are saved one after the other, and the last one saved under an id is the version of that
execution. `HistoryStore.Records` says that a store answers with these versions and no others. Two
stores that do so give the same answers, as long as no two executions of a pipeline started
together.
-/

namespace PipelineRunner

/-! ### Versions -/

def lastVersion (saves : List Summary) (id : Uuid) : Option Summary :=
  saves.reverse.find? fun s => s.executionId == id

/-- The name of the pipeline in the first summary saved under an id. -/
def firstName (saves : List Summary) (id : Uuid) : Option String :=
  (saves.find? fun s => s.executionId == id).map (·.pipelineName)

/-- A summary takes the place of the earlier version of its execution. -/
def supersede (vs : List Summary) (s : Summary) : List Summary :=
  (vs.filter fun v => v.executionId != s.executionId) ++ [s]

/-- The last versions of all executions, in the order in which they were saved. -/
def versions (saves : List Summary) : List Summary := saves.foldl supersede []

theorem find?_filter_of_imp {α : Type} {p q : α → Bool} (h : ∀ a, q a = true → p a = true)
    (l : List α) : (l.filter p).find? q = l.find? q := by
  rw [List.find?_filter]
  congr 1
  funext a
  cases hq : q a with
  | false => simp
  | true => simp [h a hq]

section
variable {saves : List Summary} {s : Summary} {id : Uuid}

@[simp] theorem lastVersion_nil : lastVersion [] id = none := rfl

theorem lastVersion_concat :
    lastVersion (saves ++ [s]) id =
      if s.executionId = id then some s else lastVersion saves id := by
  unfold lastVersion
  rw [List.reverse_append, List.reverse_singleton, List.singleton_append, List.find?_cons]
  by_cases h : s.executionId = id
  · simp [h]
  · simp [beq_eq_false_iff_ne.mpr h, h]

theorem executionId_of_lastVersion (h : lastVersion saves id = some s) : s.executionId = id := by
  simpa using List.find?_some h

theorem mem_of_lastVersion (h : lastVersion saves id = some s) : s ∈ saves :=
  List.mem_reverse.mp (List.mem_of_find?_eq_some h)

@[simp] theorem firstName_nil : firstName [] id = none := rfl

theorem firstName_concat :
    firstName (saves ++ [s]) id =
      (firstName saves id).or (if s.executionId = id then some s.pipelineName else none) := by
  unfold firstName
  rw [List.find?_append, List.find?_singleton]
  by_cases h : s.executionId = id
  · cases saves.find? fun s => s.executionId == id <;> simp [h]
  · cases saves.find? fun s => s.executionId == id <;> simp [h]

theorem firstName_eq_none_iff : firstName saves id = none ↔ lastVersion saves id = none := by
  simp [firstName, lastVersion]

theorem exists_firstName (h : lastVersion saves id = some s) :
    ∃ name, firstName saves id = some name := by
  refine Option.ne_none_iff_exists'.mp fun hnone => ?_
  rw [firstName_eq_none_iff, h] at hnone
  cases hnone

theorem versions_concat : versions (saves ++ [s]) = supersede (versions saves) s := by
  rw [versions, List.foldl_append, List.foldl_cons, List.foldl_nil]
  rfl

theorem mem_versions_iff {v : Summary} :
    v ∈ versions saves ↔ lastVersion saves v.executionId = some v := by
  induction saves using List.reverseRecOn with
  | nil => simp [versions]
  | append_singleton saves s ih =>
    rw [versions_concat, supersede, lastVersion_concat, List.mem_append, List.mem_filter, ih,
      List.mem_singleton]
    by_cases h : s.executionId = v.executionId
    · simp [h, eq_comm]
    · have hne : v ≠ s := fun heq => h (heq ▸ rfl)
      simp [h, hne, Ne.symm h]

theorem find?_versions :
    ((versions saves).find? fun v => v.executionId == id) = lastVersion saves id := by
  induction saves using List.reverseRecOn with
  | nil => rfl
  | append_singleton saves s ih =>
    rw [versions_concat, supersede, List.find?_append, lastVersion_concat]
    by_cases h : s.executionId = id
    · have hgone : ((versions saves).filter fun v => v.executionId != s.executionId).find?
          (fun v => v.executionId == id) = none := by
        simp [h]
      rw [hgone, if_pos h]
      simp [h]
    · have hkeeps : ∀ v : Summary, (v.executionId == id) = true →
          (v.executionId != s.executionId) = true := by
        intro v hv
        rw [beq_iff_eq] at hv
        simpa [hv] using Ne.symm h
      rw [find?_filter_of_imp hkeeps, ih, if_neg h]
      simp [h]

theorem versions_nodup : ((versions saves).map (·.executionId)).Nodup := by
  induction saves using List.reverseRecOn with
  | nil => exact List.nodup_nil
  | append_singleton saves s ih =>
    rw [versions_concat, supersede, List.map_append, List.nodup_append]
    refine ⟨ih.sublist (List.Sublist.map _ List.filter_sublist), by simp, ?_⟩
    intro a ha b hb
    obtain ⟨v, hv, rfl⟩ := List.mem_map.mp ha
    have hne : v.executionId ≠ s.executionId := by simpa using (List.mem_filter.mp hv).2
    rw [List.map_singleton, List.mem_singleton] at hb
    rwa [hb]

end

/-! ### Answers -/

namespace HistoryStore

variable {σ τ : Type} [HistoryStore σ] [HistoryStore τ]

/-- The store that summaries saved one after the other leave, or the error of the first that is
not saved. -/
def replay (saves : List Summary) : Except SaveError σ := saves.foldlM save empty

theorem replay_concat (saves : List Summary) (s : Summary) :
    (replay (saves ++ [s]) : Except SaveError σ) = replay saves >>= fun h => save h s := by
  rw [replay, List.foldlM_append]
  exact bind_congr fun h => bind_pure _

theorem newest_first_mergeSort (l : List Summary) :
    (l.mergeSort Summary.notOlder).Pairwise
      fun a b => a.startedAt.before b.startedAt = false := by
  have htrans : ∀ a b c : Summary, a.notOlder b = true → b.notOlder c = true →
      a.notOlder c = true := by
    intro a b c
    simp only [Summary.notOlder, Bool.not_eq_true']
    exact Instant.not_before_trans
  have htotal : ∀ a b : Summary, (a.notOlder b || b.notOlder a) = true := by
    intro a b
    simpa [Summary.notOlder] using Instant.not_before_total a.startedAt b.startedAt
  exact (List.pairwise_mergeSort htrans htotal l).imp fun hab => by
    simpa [Summary.notOlder] using hab

/-- A store answers with the last version of each execution. -/
structure Records (h : σ) (saves : List Summary) : Prop where
  load_eq : ∀ id, load h id = lastVersion saves id
  mem_list : ∀ p s, s ∈ list h p ↔ lastVersion saves s.executionId = some s ∧ s.pipelineName = p
  nodup : ∀ p, ((list h p).map (·.executionId)).Nodup
  newest_first : ∀ p, (list h p).Pairwise fun a b => a.startedAt.before b.startedAt = false
  ascending : (pipelines h).Pairwise (· < ·)
  mem_pipelines : ∀ p, p ∈ pipelines h ↔ list h p ≠ []

structure SameAnswers (g : σ) (h : τ) : Prop where
  load : ∀ id, load g id = load h id
  list : ∀ p, list g p = list h p
  pipelines : pipelines g = pipelines h

theorem nodup_of_ascending {l : List String} (hl : l.Pairwise (· < ·)) : l.Nodup := by
  refine hl.imp fun {a b} hab heq => ?_
  rw [heq] at hab
  exact String.lt_irrefl _ hab

theorem eq_of_ascending {l l' : List String} (hl : l.Pairwise (· < ·)) (hl' : l'.Pairwise (· < ·))
    (h : ∀ n, n ∈ l ↔ n ∈ l') : l = l' := by
  have hperm : l.Perm l' :=
    (List.perm_ext_iff_of_nodup (nodup_of_ascending hl) (nodup_of_ascending hl')).mpr h
  refine List.Perm.eq_of_pairwise (fun a b _ _ hab hba => ?_) hl hl' hperm
  exact absurd (String.lt_trans hab hba) (String.lt_irrefl _)

/-- No two executions of a pipeline started together. -/
def StartsApart (saves : List Summary) : Prop :=
  ∀ s t, lastVersion saves s.executionId = some s → lastVersion saves t.executionId = some t →
    s.pipelineName = t.pipelineName → s.startedAt = t.startedAt → s.executionId = t.executionId

theorem Records.list_eq {g : σ} {h : τ} {saves : List Summary} (hg : Records g saves)
    (hh : Records h saves) (hapart : StartsApart saves) (p : String) : list g p = list h p := by
  have hperm : (list g p).Perm (list h p) := by
    refine (List.perm_ext_iff_of_nodup (List.Nodup.of_map _ (hg.nodup p))
      (List.Nodup.of_map _ (hh.nodup p))).mpr ?_
    intro s
    rw [hg.mem_list, hh.mem_list]
  refine List.Perm.eq_of_pairwise (fun s t hs ht hst hts => ?_) (hg.newest_first p)
    (hh.newest_first p) hperm
  -- neither started after the other, so they are the same execution
  obtain ⟨hs, hps⟩ := (hg.mem_list p s).mp hs
  obtain ⟨ht, hpt⟩ := (hh.mem_list p t).mp ht
  have hid := hapart s t hs ht (hps.trans hpt.symm) (Instant.eq_of_not_before hst hts)
  rw [hid, ht] at hs
  exact (Option.some.inj hs).symm

theorem Records.sameAnswers {g : σ} {h : τ} {saves : List Summary} (hg : Records g saves)
    (hh : Records h saves) (hapart : StartsApart saves) : SameAnswers g h where
  load id := by rw [hg.load_eq, hh.load_eq]
  list := hg.list_eq hh hapart
  pipelines := by
    refine eq_of_ascending hg.ascending hh.ascending fun p => ?_
    rw [hg.mem_pipelines, hh.mem_pipelines, hg.list_eq hh hapart]

end HistoryStore

end PipelineRunner
