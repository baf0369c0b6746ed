/-!
# Dictionaries

Finite maps from names to values, kept as a list with strictly ascending names. The names are
ordered by code point. `get?_insert` and `get?_erase` say what a look-up finds after a change, and
`ext` that a dictionary is what its look-ups find.
-/

namespace PipelineRunner

/-- A finite map from names to values; its entries have strictly ascending names. -/
structure Dict (α : Type) where
  entries : List (String × α)
  ascending : entries.Pairwise fun a b => a.1 < b.1

namespace Dict

variable {α β : Type}

/-! ### Entry lists -/

def put (k : String) (v : α) : List (String × α) → List (String × α)
  | [] => [(k, v)]
  | e :: r =>
    if k < e.1 then (k, v) :: e :: r
    else if k = e.1 then (k, v) :: r
    else e :: put k v r

def find (k : String) : List (String × α) → Option α
  | [] => none
  | e :: r => if k = e.1 then some e.2 else find k r

theorem mem_put {k : String} {v : α} {e : String × α} {l : List (String × α)}
    (h : e ∈ put k v l) : e = (k, v) ∨ e ∈ l := by
  induction l with
  | nil => simpa [put] using h
  | cons x r ih =>
    unfold put at h
    split at h
    · simpa using h
    · split at h
      · rcases List.mem_cons.mp h with h | h
        · exact Or.inl h
        · exact Or.inr (List.mem_cons_of_mem _ h)
      · rcases List.mem_cons.mp h with h | h
        · exact Or.inr (h ▸ List.mem_cons_self)
        · rcases ih h with h | h
          · exact Or.inl h
          · exact Or.inr (List.mem_cons_of_mem _ h)

theorem lt_of_not_lt_of_ne {a b : String} (h : ¬ a < b) (hne : a ≠ b) : b < a := by
  rcases Std.lt_trichotomy a b with hlt | heq | hgt
  · exact absurd hlt h
  · exact absurd heq hne
  · exact hgt

theorem ascending_put (k : String) (v : α) {l : List (String × α)}
    (h : l.Pairwise fun a b => a.1 < b.1) : (put k v l).Pairwise fun a b => a.1 < b.1 := by
  induction l with
  | nil => simp [put]
  | cons x r ih =>
    obtain ⟨hx, hr⟩ := List.pairwise_cons.mp h
    unfold put
    split
    · rename_i hlt
      refine List.pairwise_cons.mpr ⟨fun e he => ?_, h⟩
      rcases List.mem_cons.mp he with rfl | he
      · exact hlt
      · exact String.lt_trans hlt (hx e he)
    · rename_i hlt
      split
      · rename_i heq
        refine List.pairwise_cons.mpr ⟨fun e he => ?_, hr⟩
        exact heq ▸ hx e he
      · rename_i hne
        refine List.pairwise_cons.mpr ⟨fun e he => ?_, ih hr⟩
        rcases mem_put he with rfl | he
        · exact lt_of_not_lt_of_ne hlt hne
        · exact hx e he

theorem find_put (k : String) (v : α) (l : List (String × α)) (q : String) :
    find q (put k v l) = if q = k then some v else find q l := by
  induction l with
  | nil => simp [put, find]
  | cons x r ih =>
    unfold put
    split
    · simp [find]
    · split
      · rename_i heq
        simp only [find, ← heq]
        split <;> rfl
      · rename_i hne
        simp only [find, ih]
        by_cases hq : q = x.1
        · subst hq
          simp [Ne.symm hne]
        · simp [hq]

theorem find_eq_none_of_lt {l : List (String × α)} {k : String}
    (h : ∀ e ∈ l, k < e.1) : find k l = none := by
  induction l with
  | nil => rfl
  | cons x r ih =>
    have hx := h x List.mem_cons_self
    have hne : k ≠ x.1 := fun heq => String.lt_irrefl _ (heq ▸ hx)
    simp only [find, if_neg hne]
    exact ih fun e he => h e (List.mem_cons_of_mem _ he)

theorem find_filter_ne (k : String) (l : List (String × α)) (q : String) :
    find q (l.filter fun e => e.1 ≠ k) = if q = k then none else find q l := by
  induction l with
  | nil => simp [find]
  | cons x r ih =>
    by_cases hx : x.1 = k
    · rw [List.filter_cons_of_neg (by simpa using hx), ih]
      by_cases hq : q = k
      · simp [hq]
      · simp [find, hq, hx]
    · rw [List.filter_cons_of_pos (by simpa using hx)]
      simp only [find, ih]
      by_cases hq : q = x.1
      · simp [hq, hx]
      · simp [hq]

theorem entries_eq_of_find {l m : List (String × α)}
    (hl : l.Pairwise fun a b => a.1 < b.1) (hm : m.Pairwise fun a b => a.1 < b.1)
    (h : ∀ k, find k l = find k m) : l = m := by
  induction l generalizing m with
  | nil =>
    cases m with
    | nil => rfl
    | cons y s => simpa [find] using h y.1
  | cons x r ih =>
    cases m with
    | nil => simpa [find] using h x.1
    | cons y s =>
      obtain ⟨hx, hr⟩ := List.pairwise_cons.mp hl
      obtain ⟨hy, hs⟩ := List.pairwise_cons.mp hm
      have hxy : x.1 = y.1 := by
        rcases Std.lt_trichotomy x.1 y.1 with hlt | heq | hgt
        · have hn := h x.1
          rw [find_eq_none_of_lt (l := y :: s) (fun e he => by
            rcases List.mem_cons.mp he with rfl | he
            · exact hlt
            · exact String.lt_trans hlt (hy e he))] at hn
          simp [find] at hn
        · exact heq
        · have hn := h y.1
          rw [find_eq_none_of_lt (l := x :: r) (fun e he => by
            rcases List.mem_cons.mp he with rfl | he
            · exact hgt
            · exact String.lt_trans hgt (hx e he))] at hn
          simp [find] at hn
      have hv : x.2 = y.2 := by simpa [find, hxy] using h x.1
      have hrest : r = s := by
        refine ih hr hs fun k => ?_
        by_cases hk : k = x.1
        · rw [find_eq_none_of_lt fun e he => hk ▸ hx e he,
            find_eq_none_of_lt fun e he => (hk.trans hxy) ▸ hy e he]
        · have := h k
          simp only [find, if_neg hk, if_neg (hxy ▸ hk : k ≠ y.1)] at this
          exact this
      rw [hrest, Prod.ext hxy hv]

/-! ### Operations -/

def empty : Dict α := ⟨[], List.Pairwise.nil⟩

instance : Inhabited (Dict α) := ⟨empty⟩

def get? (d : Dict α) (k : String) : Option α := find k d.entries

def contains (d : Dict α) (k : String) : Bool := (d.get? k).isSome

def insert (d : Dict α) (k : String) (v : α) : Dict α :=
  ⟨put k v d.entries, ascending_put k v d.ascending⟩

def erase (d : Dict α) (k : String) : Dict α :=
  ⟨d.entries.filter fun e => e.1 ≠ k, d.ascending.filter _⟩

def keys (d : Dict α) : List String := d.entries.map (·.1)

def values (d : Dict α) : List α := d.entries.map (·.2)

/-- The dictionary of a list of entries; of two with one name the later wins. -/
def ofList (l : List (String × α)) : Dict α := l.foldl (fun d e => d.insert e.1 e.2) empty

def map (f : α → β) (d : Dict α) : Dict β :=
  ⟨d.entries.map fun e => (e.1, f e.2), List.pairwise_map.mpr d.ascending⟩

/-! ### Look-ups -/

@[simp] theorem get?_empty (k : String) : (empty : Dict α).get? k = none := rfl

@[simp] theorem get?_insert (d : Dict α) (k : String) (v : α) (q : String) :
    (d.insert k v).get? q = if q = k then some v else d.get? q :=
  find_put k v d.entries q

@[simp] theorem get?_erase (d : Dict α) (k q : String) :
    (d.erase k).get? q = if q = k then none else d.get? q :=
  find_filter_ne k d.entries q

theorem ext {d e : Dict α} (h : ∀ k, d.get? k = e.get? k) : d = e := by
  obtain ⟨l, hl⟩ := d
  obtain ⟨m, hm⟩ := e
  have : l = m := entries_eq_of_find hl hm h
  subst this
  rfl

end Dict

abbrev NameSet := Dict Unit

end PipelineRunner
