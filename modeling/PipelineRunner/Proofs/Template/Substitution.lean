import PipelineRunner.Proofs.Template.Occurrences

/-!
# Filling as substitution

A template that is cut at its slots is filled by putting the value of each slot in its place: the
texts around the slots are kept as they are, and the values are not read again. It cannot be filled
exactly if some slot has no value, and then the first such slot is named.
-/

namespace PipelineRunner.Template

variable {value? : String → Option String} {t : String} {lead : List Char} {segs : List Segment}

/-- A text and segments with the values of the slots in their places. -/
def substituted (value : String → String) (lead : List Char) (segs : List Segment) : String :=
  String.ofList (lead ++ segs.flatMap fun g => (value g.name).toList ++ g.literal)

theorem flatMap_written_char (value? : String → Option String) (l : List Char) :
    (l.map Piece.char).flatMap (Piece.written value?) = l := by
  induction l with
  | nil => rfl
  | cons c r ih =>
    rw [List.map_cons, List.flatMap_cons, ih]
    rfl

theorem Division.written (h : Division t.toList lead segs) {value : String → String}
    (hvalue : ∀ g ∈ segs, value? g.name = some (value g.name)) :
    written value? t = substituted value lead segs := by
  have hsegs : (segs.flatMap fun g => Piece.slot g.name :: g.literal.map Piece.char).flatMap
      (Piece.written value?) = segs.flatMap fun g => (value g.name).toList ++ g.literal := by
    clear h
    induction segs with
    | nil => rfl
    | cons g rest ih =>
      have hg : Piece.written value? (.slot g.name) = (value g.name).toList := by
        rw [Piece.written, hvalue g List.mem_cons_self, Option.getD_some]
      have hrest : ∀ g ∈ rest, value? g.name = some (value g.name) :=
        fun x hx => hvalue x (List.mem_cons_of_mem g hx)
      rw [List.flatMap_cons, List.flatMap_append, ih hrest, List.flatMap_cons, hg,
        flatMap_written_char, List.flatMap_cons]
  rw [Template.written, Template.pieces, h.pieces, List.flatMap_append, flatMap_written_char, hsegs,
    substituted]

theorem Division.render_ok (h : Division t.toList lead segs) {value : String → String}
    (hvalue : ∀ g ∈ segs, value? g.name = some (value g.name)) :
    render t value? = .ok (substituted value lead segs) := by
  have hsome : ∀ n ∈ Template.slots t, (value? n).isSome = true := by
    intro n hn
    rw [h.slots] at hn
    obtain ⟨g, hg, rfl⟩ := List.mem_map.mp hn
    rw [hvalue g hg]
    rfl
  rw [render_of_isSome hsome, h.written hvalue]

theorem Division.render_error {before after : List Segment} {g : Segment}
    (h : Division t.toList lead (before ++ g :: after))
    (hbefore : ∀ e ∈ before, (value? e.name).isSome = true) (hg : value? g.name = none) :
    render t value? = .error g.name := by
  apply render_of_find?_some
  rw [h.slots, List.map_append, List.map_cons, List.find?_eq_some_iff_append]
  refine ⟨by rw [hg]; rfl, before.map (·.name), after.map (·.name), rfl, fun n hn => ?_⟩
  obtain ⟨e, he, rfl⟩ := List.mem_map.mp hn
  rw [Option.not_isNone, hbefore e he]

/-- A template is cut at its slots, in one way as far as filling goes: the names are its slots, with
a value for each of them it becomes the texts around the slots with the values between, and else its
filling names the first slot without a value. -/
theorem render_substitutes (t : String) (value? : String → Option String) :
    (∃ lead segs, Division t.toList lead segs) ∧
      ∀ lead segs, Division t.toList lead segs →
        slots t = segs.map (·.name) ∧
        (∀ value : String → String, (∀ g ∈ segs, value? g.name = some (value g.name)) →
          render t value? = .ok (substituted value lead segs)) ∧
        ∀ before g after, segs = before ++ g :: after →
          (∀ e ∈ before, (value? e.name).isSome = true) → value? g.name = none →
          render t value? = .error g.name := by
  refine ⟨exists_division t.toList, fun lead segs h => ⟨h.slots, fun value hvalue => ?_, ?_⟩⟩
  · exact h.render_ok hvalue
  · rintro before g after rfl hbefore hg
    exact h.render_error hbefore hg

-- a value that makes a slot together with the braces around it stays as it is
example :
    render "\x7b\x7b\x7b a \x7d\x7d\x7d" (fun _ => some "\x7b b \x7d") =
      .ok "\x7b\x7b b \x7d\x7d" := by
  decide +kernel

end PipelineRunner.Template
