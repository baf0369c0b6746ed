import PipelineRunner.Override
import PipelineRunner.Proofs.Pipeline.Layers

/-!
# Overrides given as texts

A text is read as an override exactly if it is a key, a `=` and a value, where the key is what
stands before the first `=` and is not empty. Among several texts the last one with a key decides,
and it hides whatever else the pipeline, the event or the environment has under that key.
-/

namespace PipelineRunner

/-! ### The first separator -/

theorem Text.splitFirst_eq_none_iff {sep : Char} {s : List Char} :
    splitFirst sep s = none ↔ sep ∉ s := by
  induction s with
  | nil => simp [splitFirst]
  | cons c r ih =>
    by_cases hc : c = sep
    · simp [splitFirst, hc]
    · simp [splitFirst, hc, ih, Ne.symm hc]

theorem Text.splitFirst_eq_some_iff {sep : Char} {s before after : List Char} :
    splitFirst sep s = some (before, after) ↔ s = before ++ sep :: after ∧ sep ∉ before := by
  induction s generalizing before with
  | nil => simp [splitFirst]
  | cons c r ih =>
    by_cases hc : c = sep
    · subst hc
      rw [splitFirst, if_pos rfl, Option.some.injEq, Prod.mk.injEq]
      constructor
      · rintro ⟨rfl, rfl⟩
        exact ⟨rfl, List.not_mem_nil⟩
      · rintro ⟨heq, hnot⟩
        cases before with
        | nil => exact ⟨rfl, (List.cons.inj heq).2⟩
        | cons b before =>
          obtain ⟨rfl, -⟩ := List.cons.inj heq
          exact absurd List.mem_cons_self hnot
    · rw [splitFirst, if_neg hc, Option.map_eq_some_iff]
      constructor
      · rintro ⟨⟨before', after'⟩, hsplit, heq⟩
        obtain ⟨rfl, rfl⟩ := Prod.mk.inj heq
        obtain ⟨rfl, hnot⟩ := ih.mp hsplit
        refine ⟨rfl, fun hmem => ?_⟩
        rcases List.mem_cons.mp hmem with h | h
        · exact hc h.symm
        · exact hnot h
      · rintro ⟨heq, hnot⟩
        cases before with
        | nil => exact absurd (List.cons.inj heq).1 hc
        | cons b before =>
          obtain ⟨rfl, rfl⟩ := List.cons.inj heq
          exact ⟨(before, after), ih.mpr ⟨rfl, fun h => hnot (List.mem_cons_of_mem c h)⟩, rfl⟩

/-! ### One override -/

namespace Override

/-- The text gives a key a value: it is the key, a `=` and the value, and the key is not empty and
has no `=`. -/
def Gives (s k v : String) : Prop := s = k ++ "=" ++ v ∧ k ≠ "" ∧ '=' ∉ k.toList

theorem gives_iff {s k v : String} :
    Gives s k v ↔ Text.splitFirst '=' s.toList = some (k.toList, v.toList) ∧ k.toList ≠ [] := by
  rw [Gives, Text.splitFirst_eq_some_iff, ← String.toList_inj, String.toList_append,
    String.toList_append, Ne, ← String.toList_eq_nil_iff, List.append_assoc]
  constructor
  · rintro ⟨hs, hne, hnot⟩
    exact ⟨⟨hs, hnot⟩, hne⟩
  · rintro ⟨⟨hs, hnot⟩, hne⟩
    exact ⟨hs, hne, hnot⟩

theorem Gives.unique {s k v k' v' : String} (h : Gives s k v) (h' : Gives s k' v') :
    k = k' ∧ v = v' := by
  have heq := (gives_iff.mp h).1.symm.trans (gives_iff.mp h').1
  rw [Option.some.injEq, Prod.mk.injEq, String.toList_inj, String.toList_inj] at heq
  exact heq

theorem parse_eq_ok_iff {s k v : String} : parse s = .ok (k, v) ↔ Gives s k v := by
  rw [gives_iff, parse]
  cases hsplit : Text.splitFirst '=' s.toList with
  | none => simp
  | some p =>
    obtain ⟨key, value⟩ := p
    cases key with
    | nil =>
      refine iff_of_false (by simp) ?_
      rintro ⟨heq, hne⟩
      exact hne (Prod.mk.inj (Option.some.inj heq)).1.symm
    | cons c key =>
      rw [Except.ok.injEq, Prod.mk.injEq, Option.some.injEq, Prod.mk.injEq, ← String.toList_inj,
        ← String.toList_inj, String.toList_ofList, String.toList_ofList]
      refine (and_iff_left_of_imp ?_).symm
      rintro ⟨hkey, -⟩
      exact hkey ▸ List.cons_ne_nil c key

theorem parse_eq_error_iff {s : String} {e : OverrideError} :
    parse s = .error e ↔
      '=' ∉ s.toList ∧ e = .noSeparator s ∨ (∃ v, s = "=" ++ v) ∧ e = .missingKey s := by
  have hstarts : (∃ v, s = "=" ++ v) ↔ ∃ v, Text.splitFirst '=' s.toList = some ([], v) := by
    simp only [Text.splitFirst_eq_some_iff]
    constructor
    · rintro ⟨v, rfl⟩
      exact ⟨v.toList, String.toList_append, List.not_mem_nil⟩
    · rintro ⟨v, hs, -⟩
      have hv : (String.ofList v).toList = v := String.toList_ofList
      refine ⟨String.ofList v, String.toList_inj.mp ?_⟩
      rw [String.toList_append, hv, hs]
      rfl
  rw [hstarts, ← Text.splitFirst_eq_none_iff, parse]
  cases hsplit : Text.splitFirst '=' s.toList with
  | none => simp [eq_comm]
  | some p =>
    obtain ⟨key, value⟩ := p
    cases key with
    | nil => simp [eq_comm]
    | cons c key => simp

/-! ### Several overrides -/

/-- The last of several texts that give a key anything gives it this value. -/
def LastGives (texts : List String) (k v : String) : Prop :=
  ∃ before s after, texts = before ++ s :: after ∧ Gives s k v ∧ ∀ t ∈ after, ∀ w, ¬ Gives t k w

theorem lastGives_nil {k v : String} : ¬ LastGives [] k v := by
  rintro ⟨before, s, after, h, -⟩
  cases before with
  | nil => cases h
  | cons b before => cases h

theorem lastGives_cons {s : String} {texts : List String} {k v : String} :
    LastGives (s :: texts) k v ↔
      LastGives texts k v ∨ Gives s k v ∧ ∀ t ∈ texts, ∀ w, ¬ Gives t k w := by
  constructor
  · rintro ⟨before, t, after, hsplit, ht, hafter⟩
    cases before with
    | nil =>
      obtain ⟨rfl, rfl⟩ := List.cons.inj hsplit
      exact Or.inr ⟨ht, hafter⟩
    | cons b before =>
      obtain ⟨rfl, rfl⟩ := List.cons.inj hsplit
      exact Or.inl ⟨before, t, after, rfl, ht, hafter⟩
  · rintro (⟨before, t, after, rfl, ht, hafter⟩ | ⟨hs, hnone⟩)
    · exact ⟨s :: before, t, after, rfl, ht, hafter⟩
    · exact ⟨[], s, texts, rfl, hs, hnone⟩

theorem exists_lastGives {texts : List String} {s k w : String} (hs : s ∈ texts)
    (h : Gives s k w) : ∃ v, LastGives texts k v := by
  induction texts generalizing s w with
  | nil => cases hs
  | cons t texts ih =>
    by_cases hlater : ∃ u ∈ texts, ∃ v, Gives u k v
    · obtain ⟨u, hu, v, hgives⟩ := hlater
      obtain ⟨v', hv'⟩ := ih hu hgives
      exact ⟨v', lastGives_cons.mpr (Or.inl hv')⟩
    · rcases List.mem_cons.mp hs with rfl | hmem
      · refine ⟨w, lastGives_cons.mpr (Or.inr ⟨h, fun u hu v hv => ?_⟩)⟩
        exact hlater ⟨u, hu, v, hv⟩
      · exact absurd ⟨s, hmem, w, h⟩ hlater

end Override

/-! ### The context of a run -/

namespace Pipeline

theorem overrideOf?_cons (e : String × String) (overrides : List (String × String)) (k : String) :
    overrideOf? (e :: overrides) k =
      (overrideOf? overrides k).or (if e.1 = k then some e.2 else none) := by
  unfold overrideOf?
  rw [List.reverse_cons, List.find?_append]
  cases overrides.reverse.find? fun x => x.1 == k with
  | some x => rfl
  | none => by_cases h : e.1 = k <;> simp [h]

theorem overrideOf?_eq_some_iff {texts : List String} {overrides : List (String × String)}
    (h : texts.map Override.parse = overrides.map .ok) {k v : String} :
    overrideOf? overrides k = some v ↔ Override.LastGives texts k v := by
  induction texts generalizing overrides v with
  | nil =>
    obtain rfl := List.map_eq_nil_iff.mp h.symm
    exact iff_of_false (by simp [overrideOf?]) Override.lastGives_nil
  | cons s texts ih =>
    cases overrides with
    | nil => cases h
    | cons e overrides =>
      obtain ⟨hs, hrest⟩ := List.cons.inj h
      have hgives : Override.Gives s e.1 e.2 := Override.parse_eq_ok_iff.mp hs
      have hnone : overrideOf? overrides k = none ↔ ∀ t ∈ texts, ∀ w, ¬ Override.Gives t k w := by
        rw [Option.eq_none_iff_forall_ne_some]
        constructor
        · intro hno t ht w hw
          obtain ⟨v', hv'⟩ := Override.exists_lastGives ht hw
          exact hno v' ((ih hrest).mpr hv')
        · intro hno v' hv'
          obtain ⟨before, t, after, rfl, ht, -⟩ := (ih hrest).mp hv'
          exact hno t (by simp) v' ht
      rw [overrideOf?_cons, Override.lastGives_cons, ← ih hrest, ← hnone, Option.or_eq_some_iff]
      refine or_congr_right ?_
      rw [and_comm, Option.ite_none_right_eq_some, Option.some.injEq]
      refine and_congr_left fun _ => ?_
      constructor
      · rintro ⟨rfl, rfl⟩
        exact hgives
      · intro hk
        exact hgives.unique hk

/-- A text is read as an override exactly if it is a key that is not empty and has no `=`, a `=` and
a value, and it is refused exactly if it has no `=` or starts with one. A run starts with the value
that the last text with a key gives that key, as a plain variable, whatever the pipeline, the event
and the environment have under it. -/
theorem last_override_decides :
    (∀ s k v, Override.parse s = .ok (k, v) ↔ s = k ++ "=" ++ v ∧ k ≠ "" ∧ '=' ∉ k.toList) ∧
      (∀ s e, Override.parse s = .error e ↔
        '=' ∉ s.toList ∧ e = .noSeparator s ∨ (∃ v, s = "=" ++ v) ∧ e = .missingKey s) ∧
      ∀ (p : Pipeline) (env : ProcessEnv) (event : TriggerEvent) (texts : List String)
        (overrides : List (String × String)), texts.map Override.parse = overrides.map .ok →
        let c := p.initialContext env event overrides
        (∀ k v, Override.LastGives texts k v →
          c.lookup k = some v ∧ c.plain? k = some v ∧ c.isSecret k = false) ∧
        ∀ s ∈ texts, ∀ k w, Override.Gives s k w → ∃ v, Override.LastGives texts k v := by
  refine ⟨fun s k v => Override.parse_eq_ok_iff, fun s e => Override.parse_eq_error_iff, ?_⟩
  intro p env event texts overrides h c
  refine ⟨fun k v hlast => ?_, fun s hs k w hgives => Override.exists_lastGives hs hgives⟩
  have hv : overrideOf? overrides k = some v := (overrideOf?_eq_some_iff h).mpr hlast
  have hstarts : p.startsAs? env event overrides k = some (.plain v) := by
    rw [startsAs?, hv]
  refine ⟨?_, ?_, ?_⟩
  · show (p.initialContext env event overrides).lookup k = some v
    rw [initialContext_lookup, hstarts]
    rfl
  · show (p.initialContext env event overrides).plain? k = some v
    rw [initialContext_plain?, hstarts]
    rfl
  · rw [Bool.eq_false_iff]
    intro hsecret
    have hnone := ((p.initialContext_isSecret_iff env event overrides k).mp hsecret).1
    rw [hv] at hnone
    cases hnone

def regional : Pipeline :=
  { name := "regional", trigger := none
    declared := Dict.ofList [("region", .literal "eu")], secrets := ["TOKEN"], steps := [] }

theorem regional_last_override_decides :
    let texts := ["region=us", "TOKEN=a=b", "region=", "branch=main"]
    let overrides := [("region", "us"), ("TOKEN", "a=b"), ("region", ""), ("branch", "main")]
    let c := regional.initialContext (Dict.ofList [("TOKEN", "s3cret")]) (.push "devel") overrides
    texts.map Override.parse = overrides.map .ok ∧
      Override.LastGives texts "region" "" ∧ c.lookup "region" = some "" ∧
      Override.LastGives texts "TOKEN" "a=b" ∧ c.lookup "TOKEN" = some "a=b" ∧
      c.isSecret "TOKEN" = false := by
  intro texts overrides c
  have hparse : texts.map Override.parse = overrides.map .ok := rfl
  have hregion : Override.LastGives texts "region" "" :=
    (overrideOf?_eq_some_iff hparse).mp (by decide)
  have htoken : Override.LastGives texts "TOKEN" "a=b" :=
    (overrideOf?_eq_some_iff hparse).mp (by decide)
  have hlast := (last_override_decides.2.2 regional (Dict.ofList [("TOKEN", "s3cret")])
    (.push "devel") texts overrides hparse).1
  obtain ⟨htokenValue, -, hplain⟩ := hlast "TOKEN" "a=b" htoken
  exact ⟨hparse, hregion, (hlast "region" "" hregion).1, htoken, htokenValue, hplain⟩

end Pipeline

end PipelineRunner
