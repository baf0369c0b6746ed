import PipelineRunner.Proofs.Template
import PipelineRunner.Proofs.Text.Scan

/-!
# The form of a slot

A slot is two opening braces, blanks, a name, blanks and two closing braces; a name is a letter of
ASCII or `_`, then letters, digits, `_`, `.` and `-`. `slot?` takes exactly such a text off the
start of a template. A slot has no opening brace behind its first two, so no other one starts inside
it.
-/

namespace PipelineRunner.Template

/-! ### Names -/

def IsLetter (c : Char) : Prop := ('A' ≤ c ∧ c ≤ 'Z') ∨ ('a' ≤ c ∧ c ≤ 'z')

def IsDigit (c : Char) : Prop := '0' ≤ c ∧ c ≤ '9'

/-- A letter or `_`, followed by letters, digits, `_`, `.` and `-`. -/
def IsName : List Char → Prop
  | [] => False
  | c :: r => (IsLetter c ∨ c = '_') ∧ ∀ d ∈ r, IsLetter d ∨ IsDigit d ∨ d ∈ ['_', '.', '-']

theorem isUpper_iff (c : Char) : c.isUpper = true ↔ 'A' ≤ c ∧ c ≤ 'Z' := by
  show decide (c.val ≥ 'A'.val ∧ c.val ≤ 'Z'.val) = true ↔ _
  rw [decide_eq_true_eq]
  exact Iff.rfl

theorem isLower_iff (c : Char) : c.isLower = true ↔ 'a' ≤ c ∧ c ≤ 'z' := by
  show (decide (c.val ≥ 'a'.val) && decide (c.val ≤ 'z'.val)) = true ↔ _
  rw [Bool.and_eq_true, decide_eq_true_eq, decide_eq_true_eq]
  exact Iff.rfl

theorem isAlpha_iff (c : Char) : c.isAlpha = true ↔ IsLetter c := by
  rw [IsLetter, ← isUpper_iff, ← isLower_iff]
  exact Bool.or_eq_true_iff

theorem isDigit_iff (c : Char) : c.isDigit = true ↔ IsDigit c := by
  show (decide (c.val ≥ '0'.val) && decide (c.val ≤ '9'.val)) = true ↔ _
  rw [Bool.and_eq_true, decide_eq_true_eq, decide_eq_true_eq]
  exact Iff.rfl

theorem isNameStart_iff (c : Char) : isNameStart c = true ↔ IsLetter c ∨ c = '_' := by
  rw [isNameStart, Bool.or_eq_true, isAlpha_iff, beq_iff_eq]

theorem isNameChar_iff (c : Char) :
    isNameChar c = true ↔ IsLetter c ∨ IsDigit c ∨ c ∈ ['_', '.', '-'] := by
  simp only [isNameChar, Char.isAlphanum, Bool.or_eq_true, isAlpha_iff, isDigit_iff, beq_iff_eq,
    List.mem_cons, List.not_mem_nil, or_false, or_assoc]

theorem isNameChars_iff (s : List Char) : isNameChars s = true ↔ IsName s := by
  cases s with
  | nil => simp [isNameChars, IsName]
  | cons c r =>
    simp only [isNameChars, IsName, Bool.and_eq_true, isNameStart_iff, List.all_eq_true,
      isNameChar_iff]

theorem isValidName_iff (n : String) : isValidName n = true ↔ IsName n.toList :=
  isNameChars_iff n.toList

theorem isNameChar_of_isName {s : List Char} (h : IsName s) : ∀ c ∈ s, isNameChar c = true := by
  cases s with
  | nil => cases h
  | cons c r =>
    obtain ⟨hc, hr⟩ := h
    intro d hd
    rw [isNameChar_iff]
    rcases List.mem_cons.mp hd with rfl | hd
    · rcases hc with hc | rfl
      · exact Or.inl hc
      · exact Or.inr (Or.inr List.mem_cons_self)
    · exact hr d hd

theorem isNameChar_of_isBlank {c : Char} (h : Text.isBlank c = true) : isNameChar c = false := by
  rw [← Bool.not_eq_true, isNameChar_iff]
  have hblank : (9 ≤ c.toNat ∧ c.toNat ≤ 13) ∨ c.toNat = 32 ∨ 133 ≤ c.toNat := by
    simp only [Text.isBlank, Bool.or_eq_true, Bool.and_eq_true, decide_eq_true_eq,
      beq_iff_eq] at h
    omega
  rintro (hletter | hdigit | hsign)
  · have hrange : (65 ≤ c.toNat ∧ c.toNat ≤ 90) ∨ (97 ≤ c.toNat ∧ c.toNat ≤ 122) := hletter
    omega
  · have hrange : 48 ≤ c.toNat ∧ c.toNat ≤ 57 := hdigit
    omega
  · have hcode : c.toNat = 95 ∨ c.toNat = 46 ∨ c.toNat = 45 := by
      simp only [List.mem_cons, List.not_mem_nil, or_false] at hsign
      rcases hsign with rfl | rfl | rfl
      · exact Or.inl rfl
      · exact Or.inr (Or.inl rfl)
      · exact Or.inr (Or.inr rfl)
    omega

/-! ### Slots -/

def Blanks (s : List Char) : Prop := ∀ c ∈ s, Text.isBlank c = true

/-- `m` is a slot with the name `n`. -/
def SlotText (n : String) (m : List Char) : Prop :=
  ∃ u w, Blanks u ∧ IsName n.toList ∧ Blanks w ∧
    m = '{' :: '{' :: (u ++ (n.toList ++ (w ++ ['}', '}'])))

section
variable {n : String} {m : List Char}

theorem dropBlanks_append {u s : List Char} (hu : Blanks u)
    (hs : ∀ c, s.head? = some c → Text.isBlank c = false) : Text.dropBlanks (u ++ s) = s := by
  rw [Text.dropBlanks, List.dropWhile_append_of_pos hu]
  cases s with
  | nil => rfl
  | cons c r =>
    have hc : ¬ Text.isBlank c = true := by
      rw [hs c rfl]
      exact Bool.false_ne_true
    exact List.dropWhile_cons_of_neg hc

theorem span_name {s r : List Char} (hs : IsName s)
    (hr : ∀ c, r.head? = some c → isNameChar c = false) :
    (s ++ r).takeWhile isNameChar = s ∧ (s ++ r).dropWhile isNameChar = r := by
  have hall := isNameChar_of_isName hs
  rw [List.takeWhile_append_of_pos hall, List.dropWhile_append_of_pos hall]
  cases r with
  | nil => exact ⟨List.append_nil s, rfl⟩
  | cons c r =>
    have hc : ¬ isNameChar c = true := by
      rw [hr c rfl]
      exact Bool.false_ne_true
    rw [List.takeWhile_cons_of_neg hc, List.dropWhile_cons_of_neg hc, List.append_nil]
    exact ⟨rfl, rfl⟩

theorem head?_name {s r : List Char} (hs : IsName s) :
    ∀ c, (s ++ r).head? = some c → Text.isBlank c = false := by
  cases s with
  | nil => cases hs
  | cons d s =>
    intro c hc
    cases hc
    rw [← Bool.not_eq_true]
    intro hblank
    have hchar := isNameChar_of_isName hs d List.mem_cons_self
    rw [isNameChar_of_isBlank hblank] at hchar
    cases hchar

theorem head?_blanks_close {w r : List Char} (hw : Blanks w) :
    ∀ c, (w ++ ('}' :: r)).head? = some c → isNameChar c = false := by
  cases w with
  | nil =>
    intro c hc
    cases hc
    rfl
  | cons d w =>
    intro c hc
    cases hc
    exact isNameChar_of_isBlank (hw d List.mem_cons_self)

theorem SlotText.slot? (h : SlotText n m) (rest : List Char) :
    Template.slot? (m ++ rest) = some (n.toList, rest) := by
  obtain ⟨u, w, hu, hn, hw, rfl⟩ := h
  have hbody : Text.dropBlanks (u ++ (n.toList ++ (w ++ ('}' :: '}' :: rest)))) =
      n.toList ++ (w ++ ('}' :: '}' :: rest)) := dropBlanks_append hu (head?_name hn)
  have hspan := span_name hn (head?_blanks_close (r := '}' :: rest) hw)
  have hclose : Text.dropBlanks (w ++ ('}' :: '}' :: rest)) = '}' :: '}' :: rest := by
    apply dropBlanks_append hw
    intro c hc
    cases hc
    rfl
  have hname : isNameChars n.toList = true := (isNameChars_iff _).mpr hn
  simp only [List.cons_append, List.append_assoc, List.nil_append]
  rw [Template.slot?]
  simp only [hbody, hspan.1, hspan.2, hclose, hname, if_true, close?, Option.map_some]

theorem slotText_of_slot? {s name rest : List Char} (h : slot? s = some (name, rest)) :
    ∃ m, SlotText (String.ofList name) m ∧ s = m ++ rest := by
  unfold slot? at h
  split at h
  · rename_i r
    dsimp only at h
    split at h
    · rename_i hname
      obtain ⟨after, hclose, heq⟩ := Option.map_eq_some_iff.mp h
      cases heq
      have hblanks : ∀ t : List Char, Blanks (t.takeWhile Text.isBlank) :=
        fun t => List.all_eq_true.mp List.all_takeWhile
      have hcut : ∀ t : List Char, t.takeWhile Text.isBlank ++ Text.dropBlanks t = t :=
        fun t => List.takeWhile_append_dropWhile
      have hend : ∀ t : List Char, close? t = some rest → t = '}' :: '}' :: rest := by
        intro t ht
        unfold close? at ht
        split at ht
        · cases ht
          rfl
        · cases ht
      let body := Text.dropBlanks r
      let after := body.dropWhile isNameChar
      refine ⟨'{' :: '{' :: (r.takeWhile Text.isBlank ++ (body.takeWhile isNameChar ++
        (after.takeWhile Text.isBlank ++ ['}', '}']))),
        ⟨_, _, hblanks r, ?_, hblanks after, ?_⟩, ?_⟩
      · rw [String.toList_ofList]
        exact (isNameChars_iff _).mp hname
      · rw [String.toList_ofList]
      · have hafter : after.takeWhile Text.isBlank ++ '}' :: '}' :: rest = after := by
          rw [← hend _ hclose]
          exact hcut after
        have hbody : body.takeWhile isNameChar ++ after = body :=
          List.takeWhile_append_dropWhile
        have hr : r.takeWhile Text.isBlank ++ body = r := hcut r
        simp only [List.cons_append, List.append_assoc, List.nil_append]
        rw [hafter, hbody, hr]
    · cases h
  · cases h

theorem slot?_eq_none_iff {s : List Char} : slot? s = none ↔ ∀ n m, SlotText n m → ¬ m <+: s := by
  constructor
  · rintro hnone n m hm ⟨rest, rfl⟩
    rw [hm.slot?] at hnone
    cases hnone
  · intro h
    cases hs : slot? s with
    | none => rfl
    | some p =>
      obtain ⟨m, hm, rfl⟩ := slotText_of_slot? hs
      exact absurd (List.prefix_append m p.2) (h _ m hm)

theorem SlotText.unique {n' : String} {m' s : List Char} (h : SlotText n m) (h' : SlotText n' m')
    (hs : m <+: s) (hs' : m' <+: s) : n = n' ∧ m = m' := by
  obtain ⟨r, rfl⟩ := hs
  obtain ⟨r', hr'⟩ := hs'
  have hslot := h.slot? r
  rw [← hr', h'.slot?, Option.some.injEq, Prod.mk.injEq, String.toList_inj] at hslot
  obtain ⟨hn, hr⟩ := hslot
  rw [hr, List.append_cancel_right_eq] at hr'
  exact ⟨hn.symm, hr'.symm⟩

theorem SlotText.exists_tail (h : SlotText n m) :
    ∃ r, m = '{' :: '{' :: r ∧ r ≠ [] ∧ '{' ∉ r := by
  obtain ⟨u, w, hu, hn, hw, rfl⟩ := h
  have hblank : ∀ s, Blanks s → '{' ∉ s := by
    intro s hs hmem
    cases hs '{' hmem
  have hname : '{' ∉ n.toList := by
    intro hmem
    cases isNameChar_of_isName hn '{' hmem
  refine ⟨_, rfl, by simp, ?_⟩
  simp only [List.mem_append, not_or]
  exact ⟨hblank u hu, hname, hblank w hw, by decide⟩

theorem SlotText.ne_nil (h : SlotText n m) : m ≠ [] := by
  obtain ⟨r, rfl, -, -⟩ := h.exists_tail
  exact List.cons_ne_nil _ _

/-- No slot starts inside a slot. -/
theorem SlotText.not_inside {n' : String} {m' : List Char} (h : SlotText n m)
    (h' : SlotText n' m') {i : Nat} (hi : 0 < i) (hlt : i < m.length) (rest : List Char) :
    ¬ m' <+: (m ++ rest).drop i := by
  rintro ⟨rest', heq⟩
  obtain ⟨r, rfl, hr, hbrace⟩ := h.exists_tail
  obtain ⟨r', rfl, -, -⟩ := h'.exists_tail
  obtain ⟨c, r, rfl⟩ := List.exists_cons_of_ne_nil hr
  -- the two braces of the second slot would stand at `i` and `i + 1`, one of them in `c :: r`
  have hin : ∀ j, j < (c :: r).length → ((c :: r) ++ rest)[j]? ≠ some '{' := by
    intro j hj hget
    rw [List.getElem?_append_left hj] at hget
    exact hbrace (List.mem_of_getElem? hget)
  have hget : ∀ j, j < 2 → (('{' :: '{' :: (c :: r)) ++ rest)[i + j]? = some '{' := by
    intro j hj
    rw [← List.getElem?_drop, ← heq]
    match j, hj with
    | 0, _ => rfl
    | 1, _ => rfl
  have hlen : ('{' :: '{' :: (c :: r)).length = (c :: r).length + 2 := rfl
  by_cases hone : i = 1
  · have h1 := hget 1 (by omega)
    rw [hone] at h1
    exact hin 0 (by simp) h1
  · have h0 := hget 0 (by omega)
    have hsub : i + 0 = (i - 2) + 2 := by omega
    rw [hsub] at h0
    exact hin (i - 2) (by omega) h0

end

/-! ### The pieces of a template -/

theorem piecesFrom_eq_drop (skip : Nat) (s : List Char) :
    piecesFrom skip s = piecesFrom 0 (s.drop skip) := by
  induction skip generalizing s with
  | zero => rw [List.drop_zero]
  | succ skip ih =>
    cases s with
    | nil => rw [List.drop_nil, piecesFrom, piecesFrom]
    | cons c r => rw [piecesFrom, ih, List.drop_succ_cons]

theorem piecesFrom_kept {c : Char} {s : List Char} (h : slot? (c :: s) = none) :
    piecesFrom 0 (c :: s) = .char c :: piecesFrom 0 s := by
  rw [piecesFrom, h]

theorem piecesFrom_found {n : String} {m : List Char} (h : SlotText n m) (s : List Char) :
    piecesFrom 0 (m ++ s) = .slot n :: piecesFrom 0 s := by
  have hslot := h.slot? s
  obtain ⟨c, r, rfl⟩ := List.exists_cons_of_ne_nil h.ne_nil
  rw [List.cons_append] at hslot
  have hskip : (r ++ s).length - s.length = r.length := by
    rw [List.length_append]
    omega
  rw [List.cons_append, piecesFrom, hslot]
  dsimp only
  rw [hskip, piecesFrom_eq_drop, List.drop_left, String.ofList_toList]

theorem slot_induction {P : List Char → Prop} (nil : P [])
    (found : ∀ n m s, SlotText n m → P s → P (m ++ s))
    (kept : ∀ c s, slot? (c :: s) = none → P s → P (c :: s)) (s : List Char) : P s := by
  have hne : ∀ m, (∃ n, SlotText n m) → m ≠ [] := fun m ⟨n, hm⟩ => hm.ne_nil
  refine Text.scan_induction hne nil (fun m s ⟨n, hm⟩ => found n m s hm) (fun c s hnone => ?_) s
  exact kept c s (slot?_eq_none_iff.mpr fun n m hm => hnone m ⟨n, hm⟩)

end PipelineRunner.Template
