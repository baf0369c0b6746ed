import Mathlib.Data.List.Nodup
import PipelineRunner.Json.Text

/-!
# Fields of objects

An object whose fields have names of their own finds each of them under its name, in whatever order
they stand. So sorting an object moves its fields and loses none.
-/

namespace PipelineRunner.Json

def get? : Json → String → Option Json
  | obj fields, name => field? fields name
  | _, _ => none

variable {fields : List (String × Json)} {name : String} {j : Json}

theorem field?_eq_some_iff (hnames : (fields.map (·.1)).Nodup) :
    field? fields name = some j ↔ (name, j) ∈ fields := by
  constructor
  · intro h
    obtain ⟨e, he, rfl⟩ := Option.map_eq_some_iff.mp h
    have hname : e.1 = name := by simpa using List.find?_some he
    have hmem : e ∈ fields := List.mem_reverse.mp (List.mem_of_find?_eq_some he)
    rwa [← hname]
  · intro hj
    have hfound : (fields.reverse.find? fun e => e.1 == name).isSome = true :=
      List.find?_isSome.mpr ⟨(name, j), List.mem_reverse.mpr hj, beq_self_eq_true name⟩
    obtain ⟨e, he⟩ := Option.isSome_iff_exists.mp hfound
    have hname : e.1 = name := by simpa using List.find?_some he
    have hmem : e ∈ fields := List.mem_reverse.mp (List.mem_of_find?_eq_some he)
    have heq : e = (name, j) := List.inj_on_of_nodup_map hnames hmem hj hname
    rw [field?, he, heq]
    rfl

/-! ### Sorting -/

theorem sortedItems_eq (items : List Json) : sortedItems items = items.map sorted := by
  induction items with
  | nil => rfl
  | cons j rest ih => rw [sortedItems, ih, List.map_cons]

theorem sortedFields_eq (fields : List (String × Json)) :
    sortedFields fields = fields.map fun e => (e.1, e.2.sorted) := by
  induction fields with
  | nil => rfl
  | cons e rest ih => rw [sortedFields, ih, List.map_cons]

theorem sortFields_perm (fields : List (String × Json)) : (sortFields fields).Perm fields :=
  List.mergeSort_perm ..

@[simp] theorem sorted_str (s : String) : (str s).sorted = str s := rfl

@[simp] theorem sorted_int (n : Int) : (int n).sorted = int n := rfl

@[simp] theorem sorted_ofNat (n : Nat) : (ofNat n).sorted = ofNat n := rfl

@[simp] theorem sorted_arr (items : List Json) : (arr items).sorted = arr (items.map sorted) := by
  rw [sorted, sortedItems_eq]

theorem sorted_ofOption {α : Type} {f : α → Json} (hf : ∀ a, (f a).sorted = f a) (o : Option α) :
    (ofOption f o).sorted = ofOption f o := by
  cases o with
  | none => rfl
  | some a => exact hf a

theorem get?_sorted (hnames : (fields.map (·.1)).Nodup) (name : String) :
    (obj fields).sorted.get? name = (field? fields name).map sorted := by
  let moved := sortFields (sortedFields fields)
  have hperm : moved.Perm (fields.map fun e => (e.1, e.2.sorted)) :=
    (sortFields_perm _).trans (sortedFields_eq fields ▸ List.Perm.refl _)
  have hmoved : (moved.map (·.1)).Nodup := by
    rw [(hperm.map _).nodup_iff, List.map_map]
    exact hnames
  refine Option.ext fun k => ?_
  have hmem : (name, k) ∈ moved ↔ ∃ j, (name, j) ∈ fields ∧ j.sorted = k := by
    simp [hperm.mem_iff]
  have hfield : (field? fields name).map sorted = some k ↔
      ∃ j, (name, j) ∈ fields ∧ j.sorted = k := by
    simp only [Option.map_eq_some_iff, field?_eq_some_iff hnames]
  rw [hfield, ← hmem]
  exact field?_eq_some_iff hmoved

end PipelineRunner.Json
