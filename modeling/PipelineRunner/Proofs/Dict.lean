import PipelineRunner.Dict

/-!
# Entries, values and last writes of dictionaries

What a dictionary lists agrees with what its look-ups find, and a dictionary built from a list of
writes finds the last write to each name.
-/

namespace PipelineRunner.Dict

variable {α : Type}

/-! ### Entries -/

theorem find_eq_some_iff {l : List (String × α)} (h : l.Pairwise fun a b => a.1 < b.1)
    {k : String} {v : α} : find k l = some v ↔ (k, v) ∈ l := by
  induction l with
  | nil => simp [find]
  | cons x r ih =>
    obtain ⟨hx, hr⟩ := List.pairwise_cons.mp h
    by_cases hk : k = x.1
    · have hn : (k, v) ∉ r := fun he => String.lt_irrefl _ (hk ▸ hx (k, v) he)
      simp only [find, if_pos hk, List.mem_cons, hn, or_false, Option.some.injEq]
      constructor
      · intro hv
        exact Prod.ext hk hv.symm
      · intro hv
        rw [← hv]
    · have hn : (k, v) ≠ x := fun he => hk (congrArg Prod.fst he)
      simp only [find, if_neg hk, List.mem_cons, hn, false_or]
      exact ih hr

theorem mem_entries_iff {d : Dict α} {k : String} {v : α} :
    (k, v) ∈ d.entries ↔ d.get? k = some v :=
  (find_eq_some_iff d.ascending).symm

theorem mem_values_iff {d : Dict α} {v : α} : v ∈ d.values ↔ ∃ k, d.get? k = some v := by
  simp only [values, List.mem_map]
  constructor
  · rintro ⟨e, he, rfl⟩
    exact ⟨e.1, mem_entries_iff.mp he⟩
  · rintro ⟨k, hk⟩
    exact ⟨(k, v), mem_entries_iff.mpr hk, rfl⟩

theorem erase_eq_self {d : Dict α} {k : String} (h : d.get? k = none) : d.erase k = d := by
  apply ext
  intro q
  rw [get?_erase]
  split
  · rename_i hq
    rw [hq, h]
  · rfl

/-! ### Names -/

@[simp] theorem contains_empty (k : String) : (empty : Dict α).contains k = false := rfl

@[simp] theorem contains_insert (d : Dict α) (k : String) (v : α) (q : String) :
    (d.insert k v).contains q = (q == k || d.contains q) := by
  unfold contains
  rw [get?_insert]
  by_cases hq : q = k
  · simp [hq]
  · simp [hq]

@[simp] theorem contains_erase (d : Dict α) (k q : String) :
    (d.erase k).contains q = (q != k && d.contains q) := by
  unfold contains
  rw [get?_erase]
  by_cases hq : q = k
  · simp [hq]
  · simp [hq]

theorem contains_iff_exists {d : Dict α} {k : String} :
    d.contains k = true ↔ ∃ v, d.get? k = some v :=
  Option.isSome_iff_exists

theorem mem_keys_iff {d : Dict α} {k : String} : k ∈ d.keys ↔ d.contains k = true := by
  rw [contains_iff_exists, keys, List.mem_map]
  constructor
  · rintro ⟨e, he, rfl⟩
    exact ⟨e.2, mem_entries_iff.mp he⟩
  · rintro ⟨v, hv⟩
    exact ⟨(k, v), mem_entries_iff.mpr hv, rfl⟩

theorem keys_ascending (d : Dict α) : d.keys.Pairwise (· < ·) :=
  List.pairwise_map.mpr d.ascending

theorem contains_keys (d : Dict α) (k : String) : d.keys.contains k = d.contains k := by
  rw [Bool.eq_iff_iff, List.contains_iff_mem]
  exact mem_keys_iff

theorem nameSet_ext {d e : NameSet} (h : ∀ k, d.contains k = e.contains k) : d = e := by
  apply ext
  intro k
  have hk := h k
  unfold contains at hk
  cases hd : d.get? k <;> cases he : e.get? k <;> simp_all

theorem get?_map {β : Type} (f : α → β) (d : Dict α) (k : String) :
    (d.map f).get? k = (d.get? k).map f := by
  obtain ⟨l, hl⟩ := d
  simp only [get?, map]
  clear hl
  induction l with
  | nil => rfl
  | cons x r ih =>
    simp only [List.map_cons, find, ih]
    split
    · rfl
    · rfl

theorem keys_eq_of_contains {β : Type} {d : Dict α} {e : Dict β}
    (h : ∀ k, d.contains k = e.contains k) : d.keys = e.keys := by
  have hmap : (d.map fun _ => ()) = e.map fun _ => () := by
    apply nameSet_ext
    intro k
    simpa [contains, get?_map] using h k
  calc d.keys = (d.map fun _ => ()).keys := by simp [keys, map]
    _ = (e.map fun _ => ()).keys := by rw [hmap]
    _ = e.keys := by simp [keys, map]

theorem get?_foldl_erase (l : List String) (d : Dict α) (k : String) :
    (l.foldl (fun d n => d.erase n) d).get? k = if k ∈ l then none else d.get? k := by
  induction l generalizing d with
  | nil => simp
  | cons n rest ih =>
    rw [List.foldl_cons, ih, get?_erase]
    by_cases hk : k = n
    · simp [hk]
    · simp [hk]

theorem contains_foldl_erase (l : List String) (d : Dict α) (k : String) :
    (l.foldl (fun d n => d.erase n) d).contains k = (!l.contains k && d.contains k) := by
  unfold contains
  rw [get?_foldl_erase]
  by_cases hk : k ∈ l
  · simp [hk]
  · simp [hk]

theorem contains_foldl_insert (l : List (String × α)) (d : Dict α) (k : String) :
    (l.foldl (fun d e => d.insert e.1 e.2) d).contains k =
      ((l.map (·.1)).contains k || d.contains k) := by
  induction l generalizing d with
  | nil => simp
  | cons e rest ih =>
    rw [List.foldl_cons, ih, contains_insert, List.map_cons, List.contains_cons]
    cases (k == e.1) <;> simp

/-! ### Lists of writes -/

theorem ofList_concat (l : List (String × α)) (e : String × α) :
    ofList (l ++ [e]) = (ofList l).insert e.1 e.2 := by
  simp only [ofList, List.foldl_append, List.foldl_cons, List.foldl_nil]

/-- Of the writes that `f` makes at the indices below `n`, the last to `k` is of `v`. -/
def LastWrite (f : Nat → Option (String × α)) (n : Nat) (k : String) (v : α) : Prop :=
  ∃ i < n, f i = some (k, v) ∧ ∀ j < n, i < j → ∀ w, f j ≠ some (k, w)

section
variable {f : Nat → Option (String × α)} {n : Nat} {k : String} {v w : α}

theorem lastWrite_succ_of_write (h : f n = some (k, w)) :
    LastWrite f (n + 1) k v ↔ w = v := by
  constructor
  · rintro ⟨i, hi, he, hlast⟩
    have hin : i = n := by
      by_cases hlt : i < n
      · exact absurd h (hlast n (by omega) hlt w)
      · omega
    rw [hin, h, Option.some.injEq] at he
    exact congrArg Prod.snd he
  · rintro rfl
    exact ⟨n, by omega, h, fun j hj hnj => by omega⟩

theorem lastWrite_succ_of_no_write (h : ∀ w, f n ≠ some (k, w)) :
    LastWrite f (n + 1) k v ↔ LastWrite f n k v := by
  constructor
  · rintro ⟨i, hi, he, hlast⟩
    have hin : i ≠ n := fun heq => h v (heq ▸ he)
    exact ⟨i, by omega, he, fun j hj => hlast j (by omega)⟩
  · rintro ⟨i, hi, he, hlast⟩
    refine ⟨i, by omega, he, fun j hj hij w => ?_⟩
    by_cases hjn : j = n
    · rw [hjn]
      exact h w
    · exact hlast j (by omega) hij w

end

/-- A dictionary built from writes finds the last one to a name. -/
theorem get?_ofList_range (f : Nat → Option (String × α)) (n : Nat) (k : String) (v : α) :
    (ofList ((List.range n).filterMap f)).get? k = some v ↔ LastWrite f n k v := by
  induction n with
  | zero => simp [ofList, LastWrite]
  | succ n ih =>
    rw [List.range_succ, List.filterMap_append]
    cases hf : f n with
    | none =>
      simp only [List.filterMap_cons, hf, List.filterMap_nil, List.append_nil]
      rw [ih, lastWrite_succ_of_no_write (by simp [hf])]
    | some e =>
      simp only [List.filterMap_cons, hf, List.filterMap_nil]
      rw [ofList_concat, get?_insert]
      by_cases hk : k = e.1
      · have hwrite : f n = some (k, e.2) := by rw [hf, hk]
        rw [if_pos hk, lastWrite_succ_of_write hwrite, Option.some.injEq]
      · have hother : ∀ w, f n ≠ some (k, w) := by
          intro w hw
          rw [hf, Option.some.injEq] at hw
          exact hk (congrArg Prod.fst hw).symm
        rw [if_neg hk, ih, lastWrite_succ_of_no_write hother]

theorem written_of_get?_foldl {l : List (String × α)} {d : Dict α} {k : String} {v : α}
    (h : (l.foldl (fun d e => d.insert e.1 e.2) d).get? k = some v) :
    (∃ e ∈ l, e.2 = v) ∨ d.get? k = some v := by
  induction l generalizing d with
  | nil => exact Or.inr h
  | cons x r ih =>
    rcases ih h with ⟨e, he, hv⟩ | hd
    · exact Or.inl ⟨e, List.mem_cons_of_mem _ he, hv⟩
    · rw [get?_insert] at hd
      split at hd
      · exact Or.inl ⟨x, List.mem_cons_self, Option.some.inj hd⟩
      · exact Or.inr hd

theorem written_of_mem_values {l : List (String × α)} {v : α} (h : v ∈ (ofList l).values) :
    ∃ e ∈ l, e.2 = v := by
  obtain ⟨k, hk⟩ := mem_values_iff.mp h
  rcases written_of_get?_foldl hk with h | h
  · exact h
  · simp at h

end PipelineRunner.Dict
