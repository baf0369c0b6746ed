import PipelineRunner.Template

/-!
# Filling templates

What filling a template asks of the look-up, and what it writes. It asks for the slots from left to
right, so an error names the first slot without a value; and every character it writes is one of the
template's own or belongs to the value of a slot.
-/

namespace PipelineRunner.Template

variable {value? : String → Option String}

/-! ### What filling asks for -/

theorem fill_of_find?_none {ps : List Piece}
    (h : (ps.filterMap Piece.name?).find? (fun n => (value? n).isNone) = none) :
    ∃ s, fill value? ps = .ok s := by
  induction ps with
  | nil => exact ⟨[], rfl⟩
  | cons p rest ih =>
    cases p with
    | char c =>
      obtain ⟨s, hs⟩ := ih h
      exact ⟨c :: s, by rw [fill, hs]; rfl⟩
    | slot n =>
      rw [List.filterMap_cons_some (rfl : (Piece.slot n).name? = some n), List.find?_cons] at h
      cases hv : value? n with
      | none => simp [hv] at h
      | some v =>
        simp only [hv, Option.isNone_some] at h
        obtain ⟨s, hs⟩ := ih h
        exact ⟨v.toList ++ s, by simp only [fill, hv, hs]; rfl⟩

theorem fill_of_find?_some {ps : List Piece} {name : String}
    (h : (ps.filterMap Piece.name?).find? (fun n => (value? n).isNone) = some name) :
    fill value? ps = .error name := by
  induction ps with
  | nil => cases h
  | cons p rest ih =>
    cases p with
    | char c => rw [fill, ih h]; rfl
    | slot n =>
      rw [List.filterMap_cons_some (rfl : (Piece.slot n).name? = some n), List.find?_cons] at h
      cases hv : value? n with
      | none =>
        simp only [hv, Option.isNone_none, Option.some.injEq] at h
        subst h
        simp only [fill, hv]
      | some v =>
        simp only [hv, Option.isNone_some] at h
        simp only [fill, hv, ih h]
        rfl

theorem render_of_find?_none {t : String}
    (h : (slots t).find? (fun n => (value? n).isNone) = none) : ∃ s, render t value? = .ok s := by
  obtain ⟨s, hs⟩ := fill_of_find?_none h
  exact ⟨String.ofList s, by rw [render, hs]; rfl⟩

theorem render_of_find?_some {t name : String}
    (h : (slots t).find? (fun n => (value? n).isNone) = some name) :
    render t value? = .error name := by
  rw [render, fill_of_find?_some h]
  rfl

/-! ### What filling writes -/

theorem fill_char_eq_ok {ps : List Piece} {c : Char} {s : List Char}
    (h : fill value? (.char c :: ps) = .ok s) : ∃ r, fill value? ps = .ok r ∧ s = c :: r := by
  cases hr : fill value? ps with
  | error name =>
    rw [fill, hr] at h
    cases h
  | ok r =>
    rw [fill, hr] at h
    cases h
    exact ⟨r, rfl, rfl⟩

theorem fill_slot_eq_ok {ps : List Piece} {n : String} {s : List Char}
    (h : fill value? (.slot n :: ps) = .ok s) :
    ∃ v r, value? n = some v ∧ fill value? ps = .ok r ∧ s = v.toList ++ r := by
  cases hv : value? n with
  | none => simp [fill, hv] at h
  | some v =>
    cases hr : fill value? ps with
    | error name =>
      simp only [fill, hv, hr] at h
      cases h
    | ok r =>
      simp only [fill, hv, hr] at h
      cases h
      exact ⟨v, r, rfl, rfl, rfl⟩

def Piece.written (value? : String → Option String) : Piece → List Char
  | .char c => [c]
  | .slot n => ((value? n).getD "").toList

/-- A template with the value of each slot in its place. -/
def written (value? : String → Option String) (t : String) : String :=
  String.ofList ((pieces t).flatMap (Piece.written value?))

theorem written_congr {v w : String → Option String} {t : String} (h : ∀ n ∈ slots t, v n = w n) :
    written v t = written w t := by
  have hpieces : (pieces t).map (Piece.written v) = (pieces t).map (Piece.written w) := by
    apply List.map_congr_left
    intro p hp
    cases p with
    | char c => rfl
    | slot n => rw [Piece.written, Piece.written, h n (List.mem_filterMap.mpr ⟨_, hp, rfl⟩)]
  rw [written, written, List.flatMap_def, List.flatMap_def, hpieces]

theorem fill_eq_written {ps : List Piece} {s : List Char} (h : fill value? ps = .ok s) :
    s = ps.flatMap (Piece.written value?) := by
  induction ps generalizing s with
  | nil =>
    cases h
    rfl
  | cons p rest ih =>
    cases p with
    | char c =>
      obtain ⟨r, hr, rfl⟩ := fill_char_eq_ok h
      rw [List.flatMap_cons, ← ih hr]
      rfl
    | slot n =>
      obtain ⟨v, r, hv, hr, rfl⟩ := fill_slot_eq_ok h
      rw [List.flatMap_cons, ← ih hr, Piece.written, hv, Option.getD_some]

theorem mem_fill {ps : List Piece} {s : List Char} {c : Char} (h : fill value? ps = .ok s)
    (hc : c ∈ s) :
    .char c ∈ ps ∨ ∃ n ∈ ps.filterMap Piece.name?, ∃ v, value? n = some v ∧ c ∈ v.toList := by
  rw [fill_eq_written h] at hc
  obtain ⟨p, hp, hc⟩ := List.mem_flatMap.mp hc
  cases p with
  | char d =>
    rw [List.mem_singleton.mp hc]
    exact Or.inl hp
  | slot n =>
    refine Or.inr ⟨n, List.mem_filterMap.mpr ⟨_, hp, rfl⟩, ?_⟩
    cases hv : value? n with
    | none =>
      rw [Piece.written, hv] at hc
      cases hc
    | some v =>
      rw [Piece.written, hv] at hc
      exact ⟨v, rfl, hc⟩

theorem infix_fill {ps : List Piece} {s : List Char} {n v : String}
    (h : fill value? ps = .ok s) (hn : n ∈ ps.filterMap Piece.name?) (hv : value? n = some v) :
    v.toList <:+: s := by
  obtain ⟨p, hp, hname⟩ := List.mem_filterMap.mp hn
  cases p with
  | char d => cases hname
  | slot m =>
    cases hname
    have hwritten : (Piece.slot n).written value? = v.toList := by
      rw [Piece.written, hv, Option.getD_some]
    rw [fill_eq_written h, ← hwritten, List.flatMap_def]
    exact List.infix_of_mem_flatten (List.mem_map_of_mem hp)

theorem slot?_subset {s name rest : List Char} (h : slot? s = some (name, rest)) : name ⊆ s := by
  unfold slot? at h
  split at h
  · rename_i r
    dsimp only at h
    split at h
    · obtain ⟨x, -, hx⟩ := Option.map_eq_some_iff.mp h
      cases hx
      intro c hc
      have hbody : c ∈ Text.dropBlanks r := (List.takeWhile_sublist _).subset hc
      have hr : c ∈ r := (List.dropWhile_sublist _).subset hbody
      exact List.mem_cons_of_mem _ (List.mem_cons_of_mem _ hr)
    · cases h
  · cases h

/-- The characters that a piece shows. -/
def Piece.chars : Piece → List Char
  | .char c => [c]
  | .slot n => n.toList

theorem chars_subset_of_mem_piecesFrom {s : List Char} {skip : Nat} {p : Piece}
    (h : p ∈ piecesFrom skip s) : p.chars ⊆ s := by
  induction s generalizing skip with
  | nil =>
    cases skip <;> simp [piecesFrom] at h
  | cons c r ih =>
    cases skip with
    | succ skip =>
      rw [piecesFrom] at h
      exact fun x hx => List.mem_cons_of_mem c (ih h hx)
    | zero =>
      rw [piecesFrom] at h
      split at h
      · rename_i name rest hslot
        rcases List.mem_cons.mp h with rfl | h
        · rw [Piece.chars, String.toList_ofList]
          exact slot?_subset hslot
        · exact fun x hx => List.mem_cons_of_mem c (ih h hx)
      · rcases List.mem_cons.mp h with rfl | h
        · intro x hx
          rw [List.mem_singleton.mp hx]
          exact List.mem_cons_self
        · exact fun x hx => List.mem_cons_of_mem c (ih h hx)

theorem mem_of_mem_slot {t n : String} {c : Char} (hn : n ∈ slots t) (hc : c ∈ n.toList) :
    c ∈ t.toList := by
  obtain ⟨p, hp, hname⟩ := List.mem_filterMap.mp hn
  cases p with
  | char d => cases hname
  | slot m =>
    cases hname
    exact chars_subset_of_mem_piecesFrom hp hc

theorem render_eq_ok {t s : String} (h : render t value? = .ok s) :
    fill value? (pieces t) = .ok s.toList := by
  unfold render at h
  cases hf : fill value? (pieces t) with
  | error name =>
    rw [hf] at h
    cases h
  | ok r =>
    rw [hf] at h
    cases h
    rw [String.toList_ofList]

theorem render_eq_written {t s : String} (h : render t value? = .ok s) : s = written value? t := by
  rw [written, ← fill_eq_written (render_eq_ok h), String.ofList_toList]

theorem render_of_isSome {t : String} (h : ∀ n ∈ slots t, (value? n).isSome = true) :
    render t value? = .ok (written value? t) := by
  have hnone : (slots t).find? (fun n => (value? n).isNone) = none := by
    rw [List.find?_eq_none]
    intro n hn
    rw [← Option.not_isSome, h n hn]
    exact Bool.false_ne_true
  obtain ⟨s, hs⟩ := render_of_find?_none hnone
  rw [← render_eq_written hs]
  exact hs

theorem mem_render {t s : String} {c : Char} (h : render t value? = .ok s) (hc : c ∈ s.toList) :
    c ∈ t.toList ∨ ∃ n ∈ slots t, ∃ v, value? n = some v ∧ c ∈ v.toList := by
  rcases mem_fill (render_eq_ok h) hc with hp | hn
  · exact Or.inl (chars_subset_of_mem_piecesFrom hp List.mem_cons_self)
  · exact Or.inr hn

theorem infix_render {t s n v : String} (h : render t value? = .ok s) (hn : n ∈ slots t)
    (hv : value? n = some v) : v.toList <:+: s.toList :=
  infix_fill (render_eq_ok h) hn hv

end PipelineRunner.Template
