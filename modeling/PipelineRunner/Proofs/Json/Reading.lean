import PipelineRunner.Json.Reading
import PipelineRunner.Json.Text
import PipelineRunner.Proofs.Text.Digits

/-!
# Reading written values

Every value without floating-point numbers is read back from its text, at any depth and whatever
follows it. So no two such values have the same text.
-/

namespace PipelineRunner.Json

/-! ### Strings -/

theorem character?_toNat (c : Char) : character? c.toNat = some c := by
  have hvalid : c.toNat.isValidChar := c.valid
  rw [character?, if_pos hvalid, Char.ofNat_toNat]

theorem codePoint?_append {s : List Char} {n : Nat} (h : codePoint? s = some (n, []))
    (rest : List Char) : codePoint? (s ++ rest) = some (n, rest) := by
  unfold codePoint? at h
  split at h
  · rename_i a b c d s
    simp only [Option.map_eq_some_iff, Prod.mk.injEq] at h
    obtain ⟨m, hm, rfl, rfl⟩ := h
    simp only [List.cons_append, codePoint?, hm, Option.map_some, List.nil_append]
  · cases h

theorem codePoint?_control : ∀ n < 0x20,
    codePoint? ('0' :: '0' :: (List.replicate (if n < 0x10 then 1 else 0) '0' ++
      Nat.toDigits 16 n)) = some (n, []) := by
  decide

theorem string?_escape {s rest : List Char} {c : Char} (h : escape? s = some (c, rest))
    (fuel : Nat) :
    string? (fuel + 1) ('\\' :: s) = (string? fuel rest).map fun p => (c :: p.1, p.2) := by
  rw [string?, h, Option.map_eq_bind]
  rfl

theorem escape?_codePoint {s rest : List Char} {c : Char}
    (h : codePoint? s = some (c.toNat, rest)) : escape? ('u' :: s) = some (c, rest) := by
  simp only [escape?.eq_def, h, Option.bind_eq_bind, Option.bind_some, character?_toNat]

theorem string?_escaped (c : Char) (fuel : Nat) (rest : List Char) :
    string? (fuel + 1) (escaped c ++ rest) =
      (string? fuel rest).map fun p => (c :: p.1, p.2) := by
  unfold escaped
  split
  case h_8 hquote hbackslash _ _ _ _ _ =>
    split
    · rename_i hlt
      have hcode := codePoint?_append (codePoint?_control c.toNat hlt) rest
      exact string?_escape (escape?_codePoint hcode) fuel
    · rename_i hge
      rw [List.singleton_append, string?, if_neg hge, Option.map_eq_bind]
      · rfl
      · rintro rfl
        exact hquote rfl
      · rintro rfl
        exact hbackslash rfl
  -- the characters that have a letter of their own
  all_goals
    rename_i h
    rw [← Char.ofNat_toNat c, h]
    exact string?_escape rfl fuel

theorem string?_flatMap_escaped {cs : List Char} {fuel : Nat} (h : cs.length < fuel)
    (rest : List Char) :
    string? fuel (cs.flatMap escaped ++ '"' :: rest) = some (cs, rest) := by
  induction cs generalizing fuel with
  | nil =>
    cases fuel with
    | zero => cases h
    | succ fuel => rfl
  | cons c cs ih =>
    cases fuel with
    | zero => cases h
    | succ fuel =>
      rw [List.flatMap_cons, List.append_assoc, string?_escaped,
        ih (Nat.lt_of_succ_lt_succ h)]
      rfl

/-! ### Blanks -/

theorem dropSpace_append {sp : List Char} (h : ∀ c ∈ sp, isSpace c = true) (s : List Char) :
    dropSpace (sp ++ s) = dropSpace s :=
  List.dropWhile_append_of_pos h

theorem dropSpace_of_not {c : Char} (h : isSpace c = false) (s : List Char) :
    dropSpace (c :: s) = c :: s :=
  List.dropWhile_cons_of_neg (by simp [h])

theorem isSpace_newLine (depth : Nat) : ∀ c ∈ (newLine depth).toList, isSpace c = true := by
  intro c h
  rw [newLine, String.toList_ofList] at h
  rcases List.mem_cons.mp h with rfl | h
  · rfl
  · rw [List.eq_of_mem_replicate h]
    rfl

theorem value?_space {sp : List Char} (h : ∀ c ∈ sp, isSpace c = true) (fuel : Nat)
    (s : List Char) : value? fuel (sp ++ s) = value? fuel s := by
  cases fuel with
  | zero => rfl
  | succ fuel => rw [value?, value?, dropSpace_append h]

theorem items?_space {sp : List Char} (h : ∀ c ∈ sp, isSpace c = true) (fuel : Nat)
    (s : List Char) : items? fuel (sp ++ s) = items? fuel s := by
  cases fuel with
  | zero => rfl
  | succ fuel => rw [items?, items?, value?_space h]

theorem fields?_space {sp : List Char} (h : ∀ c ∈ sp, isSpace c = true) (fuel : Nat)
    (s : List Char) : fields? fuel (sp ++ s) = fields? fuel s := by
  cases fuel with
  | zero => rfl
  | succ fuel => rw [fields?, fields?, dropSpace_append h]

/-! ### Texts of values -/

/-- The text is one of a value: it starts that value and is read as it, up to a character that
cannot be part of a number. -/
structure ReadsAs (text : List Char) (j : Json) : Prop where
  start : ∃ c s, text = c :: s ∧ isSpace c = false ∧ c ≠ ']'
  reads : ∀ {fuel : Nat} {rest : List Char}, text.length < fuel →
    (∀ c ∈ rest.head?, isNumeral c = false) → value? fuel (text ++ rest) = some (j, rest)

theorem readsAs_null : ReadsAs "null".toList null where
  start := ⟨'n', _, rfl, rfl, by decide⟩
  reads {fuel rest} h _ := by
    obtain ⟨fuel, rfl⟩ := Nat.exists_eq_add_of_lt h
    rfl

theorem readsAs_bool (b : Bool) : ReadsAs (if b then "true" else "false").toList (bool b) where
  start := by cases b <;> exact ⟨_, _, rfl, rfl, by decide⟩
  reads {fuel rest} h _ := by
    obtain ⟨fuel, rfl⟩ := Nat.exists_eq_add_of_lt h
    cases b <;> rfl

theorem isNumeral_of_isDigit {c : Char} (h : c.isDigit = true) : isNumeral c = true := by
  rw [isNumeral, h, Bool.true_or]

theorem toList_toString (n : Int) :
    (toString n).toList = Nat.toDigits 10 n.toNat ∧ 0 ≤ n ∨
      (toString n).toList = '-' :: Nat.toDigits 10 n.natAbs ∧ n < 0 := by
  cases n with
  | ofNat m =>
    refine Or.inl ⟨?_, Int.natCast_nonneg m⟩
    show (toString m).toList = Nat.toDigits 10 m
    rw [Nat.toString_eq_ofList_toDigits, String.toList_ofList]
  | negSucc m =>
    refine Or.inr ⟨?_, Int.negSucc_lt_zero m⟩
    show ("-" ++ toString (m + 1)).toList = '-' :: Nat.toDigits 10 (m + 1)
    simp only [String.toList_append, Nat.toString_eq_ofList_toDigits, String.toList_ofList]
    rfl

theorem all_isDigit_toDigits (n : Nat) : (Nat.toDigits 10 n).all Char.isDigit = true :=
  List.all_eq_true.mpr fun c hc => Nat.isDigit_of_mem_toDigits (by decide) (by decide) hc

theorem number?_toString (n : Int) : number? (toString n).toList = some (int n) := by
  rcases toList_toString n with ⟨htext, hn⟩ | ⟨htext, hn⟩
  · have hhead : (Nat.toDigits 10 n.toNat).head? ≠ some '-' := by
      intro h
      have hdigit := List.all_eq_true.mp (all_isDigit_toDigits n.toNat) '-'
        (List.mem_of_mem_head? h)
      exact absurd hdigit (by decide)
    rw [htext, number?]
    simp only [hhead, if_false, List.isEmpty_iff, Nat.toDigits_ne_nil, all_isDigit_toDigits,
      if_true, Nat.lt_irrefl, Text.ofDigits_toDigits, Int.toNat_of_nonneg hn]
  · rw [htext, number?]
    simp only [List.head?_cons, if_true, List.drop_succ_cons, List.drop_zero, List.isEmpty_iff,
      Nat.toDigits_ne_nil, if_false, all_isDigit_toDigits, Text.ofDigits_toDigits,
      List.length_cons, Nat.lt_succ_self]
    rw [show -(n.natAbs : Int) = n by omega]

theorem isNumeral_of_mem_toString {n : Int} {c : Char} (h : c ∈ (toString n).toList) :
    isNumeral c = true := by
  have hdigits : ∀ {m : Nat}, c ∈ Nat.toDigits 10 m → isNumeral c = true := fun {m} hc =>
    isNumeral_of_isDigit (List.all_eq_true.mp (all_isDigit_toDigits m) c hc)
  rcases toList_toString n with ⟨htext, -⟩ | ⟨htext, -⟩
  · exact hdigits (htext ▸ h)
  · rw [htext] at h
    rcases List.mem_cons.mp h with rfl | h
    · rfl
    · exact hdigits h

theorem not_isSpace_of_isNumeral {c : Char} (h : isNumeral c = true) : isSpace c = false := by
  rw [← Bool.not_eq_true]
  intro hc
  simp only [isSpace, Bool.or_eq_true, decide_eq_true_eq] at hc
  rcases hc with ((rfl | rfl) | rfl) | rfl <;> exact absurd h (by decide)

theorem value?_numeral {c : Char} (h : isNumeral c = true) (fuel : Nat) (s : List Char) :
    value? (fuel + 1) (c :: s) =
      (number? ((c :: s).takeWhile isNumeral)).map fun n => (n, (c :: s).dropWhile isNumeral) := by
  rw [value?, dropSpace_of_not (not_isSpace_of_isNumeral h)]
  split
  case h_7 => rfl
  -- no other value starts as a number does
  all_goals
    rename_i heq
    cases heq
    exact absurd h (by decide)

theorem readsAs_int (n : Int) : ReadsAs (toString n).toList (int n) := by
  have hall : ∀ c ∈ (toString n).toList, isNumeral c = true := fun c => isNumeral_of_mem_toString
  have hne : (toString n).toList ≠ [] := by
    rcases toList_toString n with ⟨htext, -⟩ | ⟨htext, -⟩
    · rw [htext]
      exact Nat.toDigits_ne_nil
    · rw [htext]
      exact List.cons_ne_nil _ _
  obtain ⟨c, s, hcons⟩ := List.exists_cons_of_ne_nil hne
  have hc : isNumeral c = true := hall c (hcons ▸ List.mem_cons_self)
  constructor
  · refine ⟨c, s, hcons, not_isSpace_of_isNumeral hc, ?_⟩
    rintro rfl
    exact absurd hc (by decide)
  · intro fuel rest h hrest
    obtain ⟨fuel, rfl⟩ := Nat.exists_eq_add_of_lt h
    have hread := value?_numeral hc ((toString n).toList.length + fuel) (s ++ rest)
    rw [← List.cons_append, ← hcons, Text.takeWhile_run hall hrest, Text.dropWhile_run hall hrest,
      number?_toString, Option.map_some] at hread
    exact hread

theorem length_le_flatMap_escaped (cs : List Char) : cs.length ≤ (cs.flatMap escaped).length := by
  induction cs with
  | nil => exact Nat.le_refl 0
  | cons c cs ih =>
    have hc : 1 ≤ (escaped c).length := by
      unfold escaped
      split <;> simp
      split <;> simp
    rw [List.flatMap_cons, List.length_append, List.length_cons]
    omega

theorem toList_quoted (s : String) :
    (quoted s).toList = '"' :: (s.toList.flatMap escaped ++ ['"']) := by
  rw [quoted, String.toList_ofList, List.cons_append]

theorem string?_quoted {s : String} {fuel : Nat} (h : (quoted s).toList.length ≤ fuel)
    (rest : List Char) :
    string? fuel (s.toList.flatMap escaped ++ '"' :: rest) = some (s.toList, rest) := by
  have hlen := length_le_flatMap_escaped s.toList
  rw [toList_quoted, List.length_cons, List.length_append] at h
  exact string?_flatMap_escaped (by omega) rest

theorem readsAs_str (s : String) : ReadsAs (quoted s).toList (str s) where
  start := ⟨'"', _, toList_quoted s, rfl, by decide⟩
  reads {fuel rest} h _ := by
    obtain ⟨fuel, rfl⟩ := Nat.exists_eq_add_of_lt h
    have hlen : (quoted s).toList.length ≤ (quoted s).toList.length + fuel + 1 := by omega
    have hread := string?_quoted hlen rest
    rw [toList_quoted s] at hread ⊢
    rw [value?, List.cons_append, dropSpace_of_not rfl, List.append_assoc]
    simp only [List.singleton_append, hread, Option.map_some, String.ofList_toList]

/-! ### Lists between brackets -/

theorem not_isNumeral_of_mem_head? {sp rest : List Char} {c d : Char}
    (hsp : ∀ c ∈ sp, isSpace c = true) (hc : isNumeral c = false)
    (hd : d ∈ (sp ++ c :: rest).head?) : isNumeral d = false := by
  cases sp with
  | nil =>
    cases hd
    exact hc
  | cons b sp =>
    cases hd
    rw [← Bool.not_eq_true]
    intro hb
    have hspace := hsp d List.mem_cons_self
    rw [not_isSpace_of_isNumeral hb] at hspace
    cases hspace

section
variable {sp t rest : List Char} {j : Json} {fuel : Nat}

theorem ReadsAs.before_comma (ht : ReadsAs t j) (h : t.length < fuel) :
    value? fuel (t ++ ',' :: rest) = some (j, ',' :: rest) :=
  ht.reads h fun d hd => by
    cases hd
    rfl

theorem items?_last (hsp : ∀ c ∈ sp, isSpace c = true) (ht : ReadsAs t j) (h : t.length < fuel) :
    items? (fuel + 1) (t ++ (sp ++ ']' :: rest)) = some ([j], rest) := by
  rw [items?, ht.reads h fun d => not_isNumeral_of_mem_head? hsp rfl]
  simp only [Option.bind_eq_bind, Option.bind_some, dropSpace_append hsp]
  rfl

theorem items?_cons (hsp : ∀ c ∈ sp, isSpace c = true) (ht : ReadsAs t j) (h : t.length < fuel) :
    items? (fuel + 1) (t ++ ',' :: (sp ++ rest)) =
      (items? fuel rest).map fun p => (j :: p.1, p.2) := by
  rw [items?, ht.before_comma h]
  simp only [Option.bind_eq_bind, Option.bind_some, dropSpace_of_not (c := ',') rfl,
    items?_space hsp]

variable {name : String}

def fieldChars (name : String) (t : List Char) : List Char :=
  (quoted name).toList ++ (": ".toList ++ t)

theorem length_lt_of_fieldChars (h : (fieldChars name t).length < fuel) :
    (quoted name).toList.length ≤ fuel + 1 ∧ t.length < fuel := by
  simp only [fieldChars, List.length_append] at h
  omega

theorem toList_fieldChars_append : fieldChars name t ++ rest =
    '"' :: (name.toList.flatMap escaped ++ '"' :: (": ".toList ++ (t ++ rest))) := by
  rw [fieldChars, toList_quoted]
  simp only [List.cons_append, List.append_assoc, List.nil_append]

theorem dropSpace_colon : dropSpace (": ".toList ++ rest) = ':' :: ' ' :: rest := rfl

theorem value?_blank : value? fuel (' ' :: rest) = value? fuel rest :=
  @value?_space [' '] (by simp; rfl) fuel rest

theorem fields?_last (hsp : ∀ c ∈ sp, isSpace c = true) (ht : ReadsAs t j)
    (h : (fieldChars name t).length < fuel) :
    fields? (fuel + 1) (fieldChars name t ++ (sp ++ '\x7d' :: rest)) =
      some ([(name, j)], rest) := by
  obtain ⟨hname, hvalue⟩ := length_lt_of_fieldChars h
  have hread : value? fuel (t ++ (sp ++ '\x7d' :: rest)) = some (j, sp ++ '\x7d' :: rest) :=
    ht.reads hvalue fun d => not_isNumeral_of_mem_head? hsp rfl
  rw [toList_fieldChars_append, fields?, dropSpace_of_not rfl]
  simp only [string?_quoted hname, Option.bind_eq_bind, Option.bind_some, dropSpace_colon,
    value?_blank, hread, dropSpace_append hsp, String.ofList_toList]
  rfl

theorem fields?_cons (hsp : ∀ c ∈ sp, isSpace c = true) (ht : ReadsAs t j)
    (h : (fieldChars name t).length < fuel) :
    fields? (fuel + 1) (fieldChars name t ++ ',' :: (sp ++ rest)) =
      (fields? fuel rest).map fun p => ((name, j) :: p.1, p.2) := by
  obtain ⟨hname, hvalue⟩ := length_lt_of_fieldChars h
  rw [toList_fieldChars_append, fields?, dropSpace_of_not rfl]
  simp only [string?_quoted hname, Option.bind_eq_bind, Option.bind_some, dropSpace_colon,
    value?_blank, ht.before_comma hvalue, dropSpace_of_not (c := ',') rfl, fields?_space hsp,
    String.ofList_toList]

end

theorem intercalate_map_cons {α : Type} (sep : List Char) (f : α → List Char) (a b : α)
    (l : List α) : sep.intercalate ((a :: b :: l).map f) =
      f a ++ (sep ++ sep.intercalate ((b :: l).map f)) := by
  rw [List.map_cons, List.map_cons, List.intercalate_cons_cons, List.append_assoc]

section
variable {sp sp' : List Char} (text : Json → List Char)

theorem items?_intercalate (hsp : ∀ c ∈ sp, isSpace c = true) (hsp' : ∀ c ∈ sp', isSpace c = true)
    {items : List Json} (hne : items ≠ []) (hitems : ∀ j ∈ items, ReadsAs (text j) j) (fuel : Nat)
    (h : ((',' :: sp).intercalate (items.map text)).length + 1 < fuel) (rest : List Char) :
    items? fuel ((',' :: sp).intercalate (items.map text) ++ (sp' ++ ']' :: rest)) =
      some (items, rest) := by
  induction items generalizing fuel with
  | nil => exact absurd rfl hne
  | cons j items ih =>
    have hj := hitems j List.mem_cons_self
    cases fuel with
    | zero => cases h
    | succ fuel =>
      cases items with
      | nil =>
        rw [List.map_singleton, List.intercalate_singleton] at h ⊢
        exact items?_last hsp' hj (by omega)
      | cons k items =>
        rw [intercalate_map_cons] at h ⊢
        simp only [List.length_append, List.length_cons] at h
        simp only [List.append_assoc, List.cons_append]
        rw [items?_cons hsp hj (by omega), ih (List.cons_ne_nil k items)
          (fun k hk => hitems k (List.mem_cons_of_mem j hk)) fuel (by omega), Option.map_some]

theorem fields?_intercalate (hsp : ∀ c ∈ sp, isSpace c = true)
    (hsp' : ∀ c ∈ sp', isSpace c = true) {fields : List (String × Json)} (hne : fields ≠ [])
    (hfields : ∀ e ∈ fields, ReadsAs (text e.2) e.2) (fuel : Nat)
    (h : ((',' :: sp).intercalate (fields.map fun e => fieldChars e.1 (text e.2))).length + 1 <
      fuel) (rest : List Char) :
    fields? fuel ((',' :: sp).intercalate (fields.map fun e => fieldChars e.1 (text e.2)) ++
      (sp' ++ '\x7d' :: rest)) = some (fields, rest) := by
  induction fields generalizing fuel with
  | nil => exact absurd rfl hne
  | cons e fields ih =>
    have he := hfields e List.mem_cons_self
    cases fuel with
    | zero => cases h
    | succ fuel =>
      cases fields with
      | nil =>
        rw [List.map_singleton, List.intercalate_singleton] at h ⊢
        exact fields?_last hsp' he (by omega)
      | cons f fields =>
        rw [intercalate_map_cons] at h ⊢
        simp only [List.length_append, List.length_cons] at h
        simp only [List.append_assoc, List.cons_append]
        rw [fields?_cons hsp he (by omega), ih (List.cons_ne_nil f fields)
          (fun f hf => hfields f (List.mem_cons_of_mem e hf)) fuel (by omega), Option.map_some]

end

/-! ### Whole values -/

theorem itemTexts_eq_map (depth : Nat) (items : List Json) :
    itemTexts depth items = items.map (textAt depth) := by
  induction items with
  | nil => rfl
  | cons j items ih => rw [itemTexts, ih, List.map_cons]

theorem fieldTexts_eq_map (depth : Nat) (fields : List (String × Json)) :
    fieldTexts depth fields = fields.map fun e => quoted e.1 ++ ": " ++ textAt depth e.2 := by
  induction fields with
  | nil => rfl
  | cons e fields ih => rw [fieldTexts, ih, List.map_cons]

/-- Values without floating-point numbers. -/
inductive Exact : Json → Prop
  | null : Exact null
  | bool (b : Bool) : Exact (bool b)
  | int (n : Int) : Exact (int n)
  | str (s : String) : Exact (str s)
  | arr {items : List Json} : (∀ j ∈ items, Exact j) → Exact (arr items)
  | obj {fields : List (String × Json)} : (∀ e ∈ fields, Exact e.2) → Exact (obj fields)

attribute [simp] Exact.null Exact.bool Exact.int Exact.str

@[simp] theorem exact_arr_iff {items : List Json} : (arr items).Exact ↔ ∀ j ∈ items, j.Exact := by
  refine ⟨fun h => ?_, .arr⟩
  cases h with
  | arr hitems => exact hitems

@[simp] theorem exact_obj_iff {fields : List (String × Json)} :
    (obj fields).Exact ↔ ∀ e ∈ fields, e.2.Exact := by
  refine ⟨fun h => ?_, .obj⟩
  cases h with
  | obj hfields => exact hfields

theorem toList_enclosed (depth : Nat) (left right : String) {parts : List String}
    (h : parts ≠ []) :
    (enclosed depth left right parts).toList = left.toList ++ ((newLine (depth + 1)).toList ++
      ((',' :: (newLine (depth + 1)).toList).intercalate (parts.map String.toList) ++
        ((newLine depth).toList ++ right.toList))) := by
  rw [enclosed, if_neg (by simpa using h)]
  simp only [String.toList_append, String.toList_intercalate, List.append_assoc]
  rfl

theorem value?_bracket {sp : List Char} {c : Char} (hsp : ∀ c ∈ sp, isSpace c = true)
    (hc : isSpace c = false) (hend : c ≠ ']') (fuel : Nat) (s : List Char) :
    value? (fuel + 1) ('[' :: (sp ++ c :: s)) =
      (items? fuel (c :: s)).map fun p => (arr p.1, p.2) := by
  rw [value?, dropSpace_of_not rfl]
  simp only [dropSpace_append hsp, dropSpace_of_not hc]
  split
  · rename_i heq
    cases heq
    exact absurd rfl hend
  · rfl

theorem value?_brace {sp : List Char} (hsp : ∀ c ∈ sp, isSpace c = true) (fuel : Nat)
    (s : List Char) : value? (fuel + 1) ('\x7b' :: (sp ++ '"' :: s)) =
      (fields? fuel ('"' :: s)).map fun p => (obj p.1, p.2) := by
  rw [value?, dropSpace_of_not rfl]
  simp only [dropSpace_append hsp, dropSpace_of_not (c := '"') rfl]
  rfl

theorem intercalate_map_start {α : Type} (sep : List Char) (f : α → List Char) (a : α)
    (l : List α) : ∃ s, sep.intercalate ((a :: l).map f) = f a ++ s := by
  cases l with
  | nil => exact ⟨[], by rw [List.map_singleton, List.intercalate_singleton, List.append_nil]⟩
  | cons b l => exact ⟨_, intercalate_map_cons sep f a b l⟩

section
variable (depth : Nat) {items : List Json} {fields : List (String × Json)}

theorem toList_textAt_arr (h : items ≠ []) :
    (textAt depth (arr items)).toList = '[' :: ((newLine (depth + 1)).toList ++
      ((',' :: (newLine (depth + 1)).toList).intercalate
        (items.map fun j => (textAt (depth + 1) j).toList) ++
          ((newLine depth).toList ++ [']']))) := by
  rw [textAt, itemTexts_eq_map, toList_enclosed depth "[" "]" (by simpa using h), List.map_map]
  rfl

theorem toList_textAt_obj (h : fields ≠ []) :
    (textAt depth (obj fields)).toList = '\x7b' :: ((newLine (depth + 1)).toList ++
      ((',' :: (newLine (depth + 1)).toList).intercalate
        (fields.map fun e => fieldChars e.1 (textAt (depth + 1) e.2).toList) ++
          ((newLine depth).toList ++ ['\x7d']))) := by
  rw [textAt, fieldTexts_eq_map, toList_enclosed depth "\x7b" "\x7d" (by simpa using h),
    List.map_map]
  simp only [Function.comp_def, String.toList_append, List.append_assoc]
  rfl

theorem readsAs_nil : ReadsAs (textAt depth (arr [])).toList (arr []) ∧
    ReadsAs (textAt depth (obj [])).toList (obj []) := by
  have harr : (textAt depth (arr [])).toList = ['[', ']'] := by
    rw [textAt, itemTexts, enclosed, if_pos List.isEmpty_nil, String.toList_append]
    rfl
  have hobj : (textAt depth (obj [])).toList = ['\x7b', '\x7d'] := by
    rw [textAt, fieldTexts, enclosed, if_pos List.isEmpty_nil, String.toList_append]
    rfl
  rw [harr, hobj]
  refine ⟨⟨⟨'[', [']'], rfl, rfl, by decide⟩, fun {fuel rest} h _ => ?_⟩,
    ⟨⟨'\x7b', ['\x7d'], rfl, rfl, by decide⟩, fun {fuel rest} h _ => ?_⟩⟩
  all_goals
    obtain ⟨fuel, rfl⟩ := Nat.exists_eq_add_of_lt h
    rfl

theorem readsAs_arr (h : ∀ j ∈ items, ReadsAs (textAt (depth + 1) j).toList j) :
    ReadsAs (textAt depth (arr items)).toList (arr items) := by
  cases items with
  | nil => exact (readsAs_nil depth).1
  | cons k items =>
    rw [toList_textAt_arr depth (List.cons_ne_nil k items)]
    refine ⟨⟨'[', _, rfl, rfl, by decide⟩, fun {fuel rest} hfuel _ => ?_⟩
    cases fuel with
    | zero => cases hfuel
    | succ fuel =>
      obtain ⟨c, s, hcs, hc, hend⟩ := (h k List.mem_cons_self).start
      obtain ⟨s', hs'⟩ := intercalate_map_start (',' :: (newLine (depth + 1)).toList)
        (fun j => (textAt (depth + 1) j).toList) k items
      have hitems := items?_intercalate (fun j => (textAt (depth + 1) j).toList)
        (isSpace_newLine (depth + 1)) (isSpace_newLine depth) (List.cons_ne_nil k items) h fuel
        (by simp only [List.length_append, List.length_cons] at hfuel ⊢; omega) rest
      rw [hs', hcs] at hitems ⊢
      simp only [List.cons_append, List.append_assoc, List.nil_append] at hitems ⊢
      rw [value?_bracket (isSpace_newLine (depth + 1)) hc hend, hitems, Option.map_some]

theorem readsAs_obj (h : ∀ e ∈ fields, ReadsAs (textAt (depth + 1) e.2).toList e.2) :
    ReadsAs (textAt depth (obj fields)).toList (obj fields) := by
  cases fields with
  | nil => exact (readsAs_nil depth).2
  | cons e fields =>
    rw [toList_textAt_obj depth (List.cons_ne_nil e fields)]
    refine ⟨⟨'\x7b', _, rfl, rfl, by decide⟩, fun {fuel rest} hfuel _ => ?_⟩
    cases fuel with
    | zero => cases hfuel
    | succ fuel =>
      obtain ⟨s', hs'⟩ := intercalate_map_start (',' :: (newLine (depth + 1)).toList)
        (fun e => fieldChars e.1 (textAt (depth + 1) e.2).toList) e fields
      have hfields := fields?_intercalate (fun j => (textAt (depth + 1) j).toList)
        (isSpace_newLine (depth + 1)) (isSpace_newLine depth) (List.cons_ne_nil e fields) h fuel
        (by simp only [List.length_append, List.length_cons] at hfuel ⊢; omega) rest
      rw [hs', fieldChars, toList_quoted] at hfields ⊢
      simp only [List.cons_append, List.append_assoc, List.nil_append] at hfields ⊢
      rw [value?_brace (isSpace_newLine (depth + 1)), hfields, Option.map_some]

end

theorem readsAs_textAt {j : Json} (h : j.Exact) (depth : Nat) :
    ReadsAs (textAt depth j).toList j := by
  induction h generalizing depth with
  | null => exact readsAs_null
  | bool b => exact readsAs_bool b
  | int n => exact readsAs_int n
  | str s => exact readsAs_str s
  | arr _ ih => exact readsAs_arr depth fun j hj => ih j hj (depth + 1)
  | obj _ ih => exact readsAs_obj depth fun e he => ih e he (depth + 1)

theorem ofText?_toText {j : Json} (h : j.Exact) : ofText? j.toText = some j := by
  have hread : value? ((textAt 0 j).toList.length + 1) ((textAt 0 j).toList ++ []) =
      some (j, []) := (readsAs_textAt h 0).reads (Nat.lt_succ_self _) nofun
  rw [List.append_nil] at hread
  rw [ofText?, toText]
  simp only [Option.bind_eq_bind, hread, Option.bind_some]
  rfl

theorem toText_inj {j k : Json} (hj : j.Exact) (hk : k.Exact) : j.toText = k.toText ↔ j = k := by
  refine ⟨fun h => ?_, fun h => h ▸ rfl⟩
  have hread := ofText?_toText hj
  rw [h, ofText?_toText hk, Option.some.injEq] at hread
  exact hread.symm

end PipelineRunner.Json
