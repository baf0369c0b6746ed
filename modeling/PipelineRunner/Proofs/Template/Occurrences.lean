import PipelineRunner.Proofs.Config.Validation
import PipelineRunner.Proofs.Template.Grammar

/-!
# The slots of a template where they stand

Every place in a template where a slot stands is found, and no two slots overlap. So a template is
cut into its slots and the texts before, between and after them in one way, which its pieces follow.
-/

namespace PipelineRunner.Template

/-! ### Slots at places -/

@[ext] structure Occurrence where
  start : Nat
  name : String
  text : List Char
  deriving DecidableEq, Repr

namespace Occurrence

def stop (o : Occurrence) : Nat := o.start + o.text.length

/-- The occurrence has the form of a slot and stands at its place in a template. -/
structure In (o : Occurrence) (s : List Char) : Prop where
  form : SlotText o.name o.text
  here : o.text <+: s.drop o.start

def shift (k : Nat) (o : Occurrence) : Occurrence := { o with start := k + o.start }

theorem shift_inj {k : Nat} {o p : Occurrence} : o.shift k = p.shift k ↔ o = p := by
  constructor
  · intro h
    have hstart : (o.shift k).start = (p.shift k).start := by rw [h]
    have hname : (o.shift k).name = (p.shift k).name := by rw [h]
    have htext : (o.shift k).text = (p.shift k).text := by rw [h]
    exact Occurrence.ext (Nat.add_left_cancel hstart) hname htext
  · rintro rfl
    rfl

section
variable {o p : Occurrence} {s t : List Char}

theorem shift_in_append : (o.shift t.length).In (t ++ s) ↔ o.In s := by
  have hdrop : (t ++ s).drop (t.length + o.start) = s.drop o.start := by
    rw [← List.drop_drop, List.drop_left]
  constructor
  · rintro ⟨hform, hhere⟩
    exact ⟨hform, hdrop ▸ hhere⟩
  · rintro ⟨hform, hhere⟩
    exact ⟨hform, show o.text <+: (t ++ s).drop (t.length + o.start) from hdrop ▸ hhere⟩

theorem exists_shift (hle : t.length ≤ o.start) (h : o.In (t ++ s)) :
    ∃ p : Occurrence, p.In s ∧ o = p.shift t.length := by
  have hshift : o = Occurrence.shift t.length { o with start := o.start - t.length } := by
    have hstart : o.start = t.length + (o.start - t.length) := by omega
    exact Occurrence.ext hstart rfl rfl
  refine ⟨_, ?_, hshift⟩
  rw [hshift] at h
  exact shift_in_append.mp h

theorem not_in_nil : ¬ o.In [] := by
  rintro ⟨hform, hhere⟩
  rw [List.drop_nil, List.prefix_nil] at hhere
  exact hform.ne_nil hhere

theorem in_cons_iff {c : Char} (hc : slot? (c :: s) = none) :
    o.In (c :: s) ↔ ∃ p : Occurrence, p.In s ∧ o = p.shift 1 := by
  constructor
  · intro h
    have hle : ([c] : List Char).length ≤ o.start := by
      by_contra hlt
      have hzero : o.start = 0 := by
        rw [List.length_singleton] at hlt
        omega
      have hhere := h.here
      rw [hzero, List.drop_zero] at hhere
      exact slot?_eq_none_iff.mp hc _ _ h.form hhere
    exact exists_shift (t := [c]) hle h
  · rintro ⟨p, hp, rfl⟩
    exact shift_in_append (t := [c]).mpr hp

theorem in_slot_append_iff {n : String} {m : List Char} (hm : SlotText n m) :
    o.In (m ++ s) ↔ o = ⟨0, n, m⟩ ∨ ∃ p : Occurrence, p.In s ∧ o = p.shift m.length := by
  constructor
  · intro h
    by_cases hzero : o.start = 0
    · have hhere := h.here
      rw [hzero, List.drop_zero] at hhere
      obtain ⟨hname, htext⟩ := h.form.unique hm hhere (List.prefix_append m s)
      exact Or.inl (Occurrence.ext hzero hname htext)
    · have hle : m.length ≤ o.start := by
        by_contra hlt
        exact hm.not_inside h.form (by omega) (by omega) s h.here
      exact Or.inr (exists_shift hle h)
  · rintro (rfl | ⟨p, hp, rfl⟩)
    · exact ⟨hm, List.prefix_append m s⟩
    · exact shift_in_append.mpr hp

theorem In.stop_le (h : o.In s) (h' : p.In s) (hlt : o.start < p.start) : o.stop ≤ p.start := by
  by_contra hover
  -- else the second slot would start inside the first one
  have hinside : p.start - o.start < o.text.length := by
    unfold stop at hover
    omega
  obtain ⟨rest, hrest⟩ := h.here
  have hdrop : (o.text ++ rest).drop (p.start - o.start) = s.drop p.start := by
    have hadd : o.start + (p.start - o.start) = p.start := by omega
    rw [hrest, List.drop_drop, hadd]
  refine h.form.not_inside h'.form (by omega) hinside rest ?_
  rw [hdrop]
  exact h'.here

theorem In.stop_le_or (h : o.In s) (h' : p.In s) (hne : o ≠ p) :
    o.stop ≤ p.start ∨ p.stop ≤ o.start := by
  rcases Nat.lt_trichotomy o.start p.start with hlt | heq | hgt
  · exact Or.inl (h.stop_le h' hlt)
  · have hhere := h.here
    rw [heq] at hhere
    obtain ⟨hname, htext⟩ := h.form.unique h'.form hhere h'.here
    exact absurd (Occurrence.ext heq hname htext) hne
  · exact Or.inr (h'.stop_le h hgt)

end

end Occurrence

/-! ### Templates cut at their slots -/

/-- A slot with the text from its end to the next slot. -/
structure Segment where
  slot : List Char
  name : String
  literal : List Char

/-- The places of the slots of some segments, the first of which starts at `i`. -/
def starts : Nat → List Segment → List Occurrence
  | _, [] => []
  | i, g :: rest => ⟨i, g.name, g.slot⟩ :: starts (i + g.slot.length + g.literal.length) rest

theorem starts_add (k i : Nat) (segs : List Segment) :
    starts (k + i) segs = (starts i segs).map (Occurrence.shift k) := by
  induction segs generalizing i with
  | nil => rfl
  | cons g rest ih =>
    have hnext : k + i + g.slot.length + g.literal.length =
        k + (i + g.slot.length + g.literal.length) := by omega
    rw [starts, starts, hnext, ih]
    rfl

theorem shift_mem_starts {k i : Nat} {segs : List Segment} {o : Occurrence} :
    o.shift k ∈ starts (k + i) segs ↔ o ∈ starts i segs := by
  rw [starts_add, List.mem_map]
  constructor
  · rintro ⟨p, hp, heq⟩
    rwa [← Occurrence.shift_inj.mp heq]
  · intro ho
    exact ⟨o, ho, rfl⟩

theorem map_name_starts (i : Nat) (segs : List Segment) :
    (starts i segs).map (·.name) = segs.map (·.name) := by
  induction segs generalizing i with
  | nil => rfl
  | cons g rest ih => rw [starts, List.map_cons, ih, List.map_cons]

theorem le_of_mem_starts {i : Nat} {segs : List Segment} {o : Occurrence}
    (h : o ∈ starts i segs) : i ≤ o.start := by
  induction segs generalizing i with
  | nil => cases h
  | cons g rest ih =>
    rw [starts, List.mem_cons] at h
    rcases h with rfl | h
    · exact Nat.le_refl i
    · have hle := ih h
      omega

/-- A template is a text and then segments, whose slots are all the slots in it. -/
structure Division (s lead : List Char) (segs : List Segment) : Prop where
  text : s = lead ++ segs.flatMap fun g => g.slot ++ g.literal
  occurrences : ∀ o : Occurrence, o.In s ↔ o ∈ starts lead.length segs

theorem division_nil : Division [] [] [] where
  text := rfl
  occurrences := fun o => by
    constructor
    · intro h
      exact absurd h Occurrence.not_in_nil
    · intro h
      cases h

section
variable {s lead : List Char} {segs rest : List Segment} {g : Segment}

theorem Division.kept {c : Char} (hc : slot? (c :: s) = none) (h : Division s lead segs) :
    Division (c :: s) (c :: lead) segs where
  text := by rw [h.text, List.cons_append]
  occurrences := fun o => by
    have hlen : (c :: lead).length = 1 + lead.length := by
      rw [List.length_cons]
      omega
    rw [Occurrence.in_cons_iff hc, hlen, starts_add, List.mem_map]
    constructor
    · rintro ⟨p, hp, rfl⟩
      exact ⟨p, (h.occurrences p).mp hp, rfl⟩
    · rintro ⟨p, hp, rfl⟩
      exact ⟨p, (h.occurrences p).mpr hp, rfl⟩

theorem Division.found {n : String} {m : List Char} (hm : SlotText n m)
    (h : Division s lead segs) : Division (m ++ s) [] (⟨m, n, lead⟩ :: segs) where
  text := by rw [h.text, List.flatMap_cons, List.nil_append, List.append_assoc]
  occurrences := fun o => by
    have hlen : ([] : List Char).length + m.length + lead.length = m.length + lead.length := by
      rw [List.length_nil, Nat.zero_add]
    rw [Occurrence.in_slot_append_iff hm, starts, List.mem_cons]
    dsimp only
    rw [hlen, starts_add, List.mem_map]
    constructor
    · rintro (rfl | ⟨p, hp, rfl⟩)
      · exact Or.inl rfl
      · exact Or.inr ⟨p, (h.occurrences p).mp hp, rfl⟩
    · rintro (rfl | ⟨p, hp, rfl⟩)
      · exact Or.inl rfl
      · exact Or.inr ⟨p, (h.occurrences p).mpr hp, rfl⟩

theorem exists_division (s : List Char) : ∃ lead segs, Division s lead segs := by
  induction s using slot_induction with
  | nil => exact ⟨[], [], division_nil⟩
  | found n m s hm ih =>
    obtain ⟨lead, segs, h⟩ := ih
    exact ⟨[], _, h.found hm⟩
  | kept c s hc ih =>
    obtain ⟨lead, segs, h⟩ := ih
    exact ⟨c :: lead, segs, h.kept hc⟩

theorem Division.slotText (h : Division s lead (g :: rest)) : SlotText g.name g.slot :=
  have hfirst : ⟨lead.length, g.name, g.slot⟩ ∈ starts lead.length (g :: rest) :=
    List.mem_cons_self
  ((h.occurrences _).mpr hfirst).form

theorem Division.tail (h : Division s lead (g :: rest)) :
    Division (g.literal ++ rest.flatMap fun g => g.slot ++ g.literal) g.literal rest where
  text := rfl
  occurrences := fun o => by
    have hs : s = (lead ++ g.slot) ++
        (g.literal ++ rest.flatMap fun g => g.slot ++ g.literal) := by
      rw [h.text, List.flatMap_cons, List.append_assoc, List.append_assoc]
    have hpos : 0 < g.slot.length := List.length_pos_iff.mpr h.slotText.ne_nil
    have hlen : (lead ++ g.slot).length = lead.length + g.slot.length := List.length_append
    rw [← Occurrence.shift_in_append (t := lead ++ g.slot), ← hs, h.occurrences, starts,
      List.mem_cons, ← hlen, shift_mem_starts]
    constructor
    · rintro (heq | ho)
      · have hstart : (lead ++ g.slot).length + o.start = lead.length :=
          congrArg Occurrence.start heq
        omega
      · exact ho
    · exact Or.inr

theorem Division.starts_ascending (h : Division s lead segs) :
    (starts lead.length segs).Pairwise fun o p => o.start < p.start := by
  induction segs generalizing s lead with
  | nil => exact List.Pairwise.nil
  | cons g rest ih =>
    have hpos : 0 < g.slot.length := List.length_pos_iff.mpr h.slotText.ne_nil
    rw [starts, starts_add, List.pairwise_cons, List.pairwise_map]
    refine ⟨fun o ho => ?_, (ih h.tail).imp fun {o p} hlt => ?_⟩
    · obtain ⟨p, -, rfl⟩ := List.mem_map.mp ho
      show lead.length < lead.length + g.slot.length + p.start
      omega
    · show lead.length + g.slot.length + o.start < lead.length + g.slot.length + p.start
      omega

/-! ### The pieces of a template cut at its slots -/

theorem piecesFrom_lead {lead s : List Char}
    (h : ∀ o : Occurrence, o.In (lead ++ s) → lead.length ≤ o.start) :
    piecesFrom 0 (lead ++ s) = lead.map Piece.char ++ piecesFrom 0 s := by
  induction lead with
  | nil => rfl
  | cons c lead ih =>
    have hc : slot? (c :: (lead ++ s)) = none := by
      rw [slot?_eq_none_iff]
      intro n m hm hpre
      have hle := h ⟨0, n, m⟩ ⟨hm, hpre⟩
      cases hle
    have hrest : ∀ o : Occurrence, o.In (lead ++ s) → lead.length ≤ o.start := by
      intro o ho
      have hle := h (o.shift 1) (Occurrence.shift_in_append (t := [c]).mpr ho)
      change lead.length + 1 ≤ 1 + o.start at hle
      omega
    rw [List.cons_append, piecesFrom_kept hc, ih hrest, List.map_cons, List.cons_append]

/-- The pieces of a template are the characters and names of the segments that it is cut into. -/
theorem Division.pieces (h : Division s lead segs) :
    piecesFrom 0 s = lead.map Piece.char ++
      segs.flatMap fun g => Piece.slot g.name :: g.literal.map Piece.char := by
  induction segs generalizing s lead with
  | nil =>
    have hs : s = lead ++ [] := h.text
    have hle : ∀ o : Occurrence, o.In (lead ++ []) → lead.length ≤ o.start := by
      intro o ho
      rw [← hs, h.occurrences] at ho
      cases ho
    rw [hs, piecesFrom_lead hle, piecesFrom]
    rfl
  | cons g rest ih =>
    have hs : s = lead ++ (g.slot ++ (g.literal ++ rest.flatMap fun g => g.slot ++ g.literal)) := by
      rw [h.text, List.flatMap_cons, List.append_assoc]
    have hle : ∀ o : Occurrence, o.In s → lead.length ≤ o.start :=
      fun o ho => le_of_mem_starts ((h.occurrences o).mp ho)
    rw [hs] at hle
    rw [hs, piecesFrom_lead hle, piecesFrom_found h.slotText, ih h.tail, List.flatMap_cons,
      List.cons_append]

theorem Division.slots {t : String} (h : Division t.toList lead segs) :
    slots t = segs.map (·.name) := by
  have hchars : ∀ l : List Char, (l.map Piece.char).filterMap Piece.name? = [] := by
    intro l
    rw [List.filterMap_map, List.filterMap_eq_nil_iff]
    intro c _
    rfl
  have hsegs : ∀ segs : List Segment, (segs.flatMap fun g =>
      Piece.slot g.name :: g.literal.map Piece.char).filterMap Piece.name? =
        segs.map (·.name) := by
    intro segs
    induction segs with
    | nil => rfl
    | cons g rest ih =>
      rw [List.flatMap_cons, List.filterMap_append, ih,
        List.filterMap_cons_some (rfl : (Piece.slot g.name).name? = some g.name), hchars]
      rfl
  rw [Template.slots, Template.pieces, h.pieces, List.filterMap_append, hchars, hsegs,
    List.nil_append]

end

/-! ### What the slots of a template are -/

def slotOf (u n w : String) : String := "\x7b\x7b" ++ u ++ n ++ w ++ "\x7d\x7d"

theorem slotText_slotOf {u n w : String} (hu : Text.isBlankText u = true)
    (hn : isValidName n = true) (hw : Text.isBlankText w = true) :
    SlotText n (slotOf u n w).toList := by
  refine ⟨u.toList, w.toList, List.all_eq_true.mp hu, (isValidName_iff n).mp hn,
    List.all_eq_true.mp hw, ?_⟩
  simp [slotOf]

theorem division_slotOf {u n w : String} (hu : Text.isBlankText u = true)
    (hn : isValidName n = true) (hw : Text.isBlankText w = true) :
    Division (slotOf u n w).toList [] [⟨(slotOf u n w).toList, n, []⟩] := by
  have hslot := slotText_slotOf hu hn hw
  have hdivision := division_nil.found hslot
  rwa [List.append_nil] at hdivision

theorem lookup_withOutput (c : Context) (n v : String) : (c.withOutput n v).lookup n = some v := by
  simp [Context.withOutput, Context.setVariable, Context.lookup, Context.plain?]

theorem render_slotOf {u n w : String} (hu : Text.isBlankText u = true)
    (hn : isValidName n = true) (hw : Text.isBlankText w = true) (c : Context) (v : String) :
    render (slotOf u n w) (c.withOutput n v).lookup = .ok v := by
  have hpieces : pieces (slotOf u n w) = [.slot n] := (division_slotOf hu hn hw).pieces
  rw [render, hpieces, fill, lookup_withOutput]
  simp [fill, Except.map]

/-- No two slots of a template overlap, its slots are all the places that have the form of one, from
left to right, and have valid names. Every valid name, and so every one that a valid configuration
captures into, is the one slot of a text in the form of a slot, which stands for its value. -/
theorem slots_are_occurrences (t : String) :
    (∀ o p : Occurrence, o.In t.toList → p.In t.toList → o ≠ p →
      o.stop ≤ p.start ∨ p.stop ≤ o.start) ∧
    (∃ os : List Occurrence, (os.Pairwise fun o p => o.start < p.start) ∧
      (∀ o, o ∈ os ↔ o.In t.toList) ∧ slots t = os.map (·.name)) ∧
    (∀ n ∈ slots t, isValidName n = true) ∧
    (∀ n, isValidName n = true → ∀ u w, Text.isBlankText u = true → Text.isBlankText w = true →
      slots (slotOf u n w) = [n] ∧
      ∀ (c : Context) v, render (slotOf u n w) (c.withOutput n v).lookup = .ok v) ∧
    ∀ pathExists (config : PipelineConfig), config.validate pathExists = .ok () →
      ∀ s ∈ config.steps, ∀ n, s.capture = some n → isValidName n = true := by
  obtain ⟨lead, segs, h⟩ := exists_division t.toList
  have hslots : slots t = (starts lead.length segs).map (·.name) := by
    rw [map_name_starts, h.slots]
  refine ⟨fun o p ho hp hne => ho.stop_le_or hp hne, ⟨starts lead.length segs,
    h.starts_ascending, fun o => (h.occurrences o).symm, hslots⟩, fun n hn => ?_,
    fun n hn u w hu hw => ?_, fun pathExists config hvalid s hs n hc => ?_⟩
  · rw [hslots] at hn
    obtain ⟨o, ho, rfl⟩ := List.mem_map.mp hn
    obtain ⟨-, -, -, hname, -⟩ := ((h.occurrences o).mpr ho).form
    exact (isValidName_iff o.name).mpr hname
  · exact ⟨(division_slotOf hu hn hw).slots, render_slotOf hu hn hw⟩
  · exact PipelineConfig.capture_isValidName hvalid hs hc

example :
    slots "\x7b\x7b\x7b a \x7d\x7d\x7d \x7b\x7b \x7b\x7b b \x7d\x7d \x7b\x7b 1 \x7d\x7d" =
      ["a", "b"] := by
  decide +kernel

end PipelineRunner.Template
