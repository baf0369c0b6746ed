import PipelineRunner.Proofs.Run.FinalState

/-!
# The trigger gate

What a pattern fits, said on its text: a text without `*` fits itself, one that ends in its only `*`
fits what starts with the rest of it, and no other text fits anything. A run starts exactly if its
pipeline has no trigger or some pattern fits the branch of the event, and otherwise it does nothing.
-/

namespace PipelineRunner

/-! ### Patterns as texts -/

namespace BranchPattern

/-- The text of a pattern covers a branch. -/
def Covers (pattern branch : String) : Prop :=
  (pattern ≠ "" ∧ '*' ∉ pattern.toList ∧ pattern = branch) ∨
    ∃ stem : String, '*' ∉ stem.toList ∧ pattern = stem ++ "*" ∧ stem.toList <+: branch.toList

/-- A text is not empty, and each `*` in it is its last character. -/
def WellFormed (pattern : String) : Prop :=
  pattern ≠ "" ∧ ∀ i, pattern.toList[i]? = some '*' → i + 1 = pattern.length

/-- The pattern that the parts of a text before its first `*` and from it on stand for. -/
def ofCut (pattern : String) (stem : List Char) : List Char → Except PatternError BranchPattern
  | [] => if stem.isEmpty then .error .empty else .ok (.exact pattern)
  | [_] => .ok (.startsWith (String.ofList stem))
  | _ => .error (.misplacedWildcard pattern)

theorem exists_cut (l : List Char) :
    ∃ stem rest, l = stem ++ rest ∧ '*' ∉ stem ∧ (rest = [] ∨ ∃ r, rest = '*' :: r) := by
  induction l with
  | nil => exact ⟨[], [], rfl, by simp, Or.inl rfl⟩
  | cons c l ih =>
    by_cases hc : c = '*'
    · exact ⟨[], c :: l, rfl, by simp, Or.inr ⟨l, by rw [hc]⟩⟩
    · obtain ⟨stem, rest, rfl, hstem, hrest⟩ := ih
      refine ⟨c :: stem, rest, rfl, ?_, hrest⟩
      rw [List.mem_cons]
      rintro (h | h)
      · exact hc h.symm
      · exact hstem h

theorem parse_of_cut {pattern : String} {stem rest : List Char}
    (h : pattern.toList = stem ++ rest) (hstem : '*' ∉ stem)
    (hrest : rest = [] ∨ ∃ r, rest = '*' :: r) : parse pattern = ofCut pattern stem rest := by
  have hall : ∀ c ∈ stem, decide (c ≠ '*') = true := by
    intro c hc
    exact decide_eq_true fun heq => hstem (heq ▸ hc)
  have htake : pattern.toList.takeWhile (fun c => decide (c ≠ '*')) = stem := by
    rw [h, List.takeWhile_append_of_pos hall]
    rcases hrest with rfl | ⟨r, rfl⟩
    · simp
    · simp
  have hdrop : pattern.toList.dropWhile (fun c => decide (c ≠ '*')) = rest := by
    rw [h, List.dropWhile_append_of_pos hall]
    rcases hrest with rfl | ⟨r, rfl⟩
    · simp
    · simp
  unfold parse
  dsimp only
  rw [htake, hdrop]
  rfl

theorem ofCut_nil (pattern : String) (stem : List Char) :
    ofCut pattern stem [] = if stem = [] then .error .empty else .ok (.exact pattern) := by
  cases stem with
  | nil => rfl
  | cons c stem => rfl

theorem ofCut_star (pattern : String) (stem r : List Char) :
    ofCut pattern stem ('*' :: r) =
      if r = [] then .ok (.startsWith (String.ofList stem))
      else .error (.misplacedWildcard pattern) := by
  cases r with
  | nil => rfl
  | cons c r => rfl

theorem parse_eq_exact_iff {pattern name : String} :
    parse pattern = .ok (.exact name) ↔
      pattern ≠ "" ∧ '*' ∉ pattern.toList ∧ name = pattern := by
  obtain ⟨stem, rest, h, hstem, hrest⟩ := exists_cut pattern.toList
  have hempty : pattern = "" ↔ stem ++ rest = [] := by rw [← h, String.toList_eq_nil_iff]
  rw [parse_of_cut h hstem hrest]
  rcases hrest with rfl | ⟨r, rfl⟩
  · rw [List.append_nil] at h hempty
    have hname : name = pattern ↔ pattern = name := eq_comm
    rw [ofCut_nil, h, Ne, hempty, hname]
    split
    · simp [*]
    · simp [*]
  · rw [ofCut_star]
    split <;> simp [h]

theorem parse_eq_startsWith_iff {pattern stem : String} :
    parse pattern = .ok (.startsWith stem) ↔ '*' ∉ stem.toList ∧ pattern = stem ++ "*" := by
  constructor
  · intro hp
    obtain ⟨l, rest, h, hl, hrest⟩ := exists_cut pattern.toList
    rw [parse_of_cut h hl hrest] at hp
    rcases hrest with rfl | ⟨r, rfl⟩
    · rw [ofCut_nil] at hp
      split at hp <;> cases hp
    · rw [ofCut_star] at hp
      split at hp
      · rename_i hr
        obtain rfl : String.ofList l = stem := by simpa using hp
        rw [← String.toList_inj]
        simpa [h, hr] using hl
      · cases hp
  · rintro ⟨hstem, rfl⟩
    have hcut : (stem ++ "*").toList = stem.toList ++ ['*'] := String.toList_append
    rw [parse_of_cut hcut hstem (Or.inr ⟨[], rfl⟩), ofCut_star]
    simp

theorem parse_ok_iff_wellFormed {pattern : String} :
    (∃ q, parse pattern = .ok q) ↔ WellFormed pattern := by
  constructor
  · rintro ⟨q, hq⟩
    cases q with
    | exact name =>
      obtain ⟨hne, hstar, -⟩ := parse_eq_exact_iff.mp hq
      exact ⟨hne, fun i hi => absurd (List.mem_of_getElem? hi) hstar⟩
    | startsWith stem =>
      obtain ⟨hstem, rfl⟩ := parse_eq_startsWith_iff.mp hq
      refine ⟨by simp, fun i hi => ?_⟩
      have hlen : (stem ++ "*").length = stem.toList.length + 1 := by
        rw [String.length_append, String.length_toList]
        rfl
      rw [String.toList_append, List.getElem?_append] at hi
      split at hi
      · exact absurd (List.mem_of_getElem? hi) hstem
      · -- past the stem there is one character
        obtain ⟨hlt, -⟩ := List.getElem?_eq_some_iff.mp hi
        have hone : i - stem.toList.length < 1 := hlt
        omega
  · rintro ⟨hne, hlast⟩
    obtain ⟨stem, rest, h, hstem, hrest⟩ := exists_cut pattern.toList
    rw [parse_of_cut h hstem hrest]
    rcases hrest with rfl | ⟨r, rfl⟩
    · have hstem' : stem ≠ [] := by
        rintro rfl
        exact hne (String.toList_inj.mp h)
      exact ⟨.exact pattern, by simp [ofCut, hstem']⟩
    · -- the first `*` stands right after the stem, so nothing comes after it
      have hlen := hlast stem.length (by simp [h])
      rw [← String.length_toList, h] at hlen
      have hr : r = [] := by simpa using hlen
      exact ⟨.startsWith (String.ofList stem), by rw [hr]; rfl⟩

theorem error_of_parse {pattern : String} {e : PatternError} (h : parse pattern = .error e) :
    e = if pattern = "" then .empty else .misplacedWildcard pattern := by
  obtain ⟨stem, rest, hcut, hstem, hrest⟩ := exists_cut pattern.toList
  have hempty : pattern = "" ↔ stem ++ rest = [] := by rw [← hcut, String.toList_eq_nil_iff]
  rw [parse_of_cut hcut hstem hrest] at h
  rcases hrest with rfl | ⟨r, rfl⟩
  · rw [ofCut_nil] at h
    rw [List.append_nil] at hempty
    split at h
    · rename_i hnil
      rw [if_pos (hempty.mpr hnil)]
      exact (Except.error.inj h).symm
    · cases h
  · rw [ofCut_star] at h
    split at h
    · cases h
    · have hne : pattern ≠ "" := fun heq => by simpa using hempty.mp heq
      rw [if_neg hne]
      exact (Except.error.inj h).symm

theorem parse_eq_error_iff {pattern : String} {e : PatternError} :
    parse pattern = .error e ↔ ¬ WellFormed pattern ∧
      e = if pattern = "" then .empty else .misplacedWildcard pattern := by
  constructor
  · intro h
    refine ⟨fun hwell => ?_, error_of_parse h⟩
    obtain ⟨q, hq⟩ := parse_ok_iff_wellFormed.mpr hwell
    cases h.symm.trans hq
  · rintro ⟨hill, rfl⟩
    cases hp : parse pattern with
    | ok q => exact absurd (parse_ok_iff_wellFormed.mp ⟨q, hp⟩) hill
    | error e => rw [error_of_parse hp]

theorem fits_iff_covers {pattern branch : String} :
    Trigger.patternFits branch pattern = true ↔ Covers pattern branch := by
  unfold Trigger.patternFits Covers
  cases hp : parse pattern with
  | error e =>
    constructor
    · intro h
      cases h
    · rintro (⟨hne, hstar, -⟩ | ⟨stem, hstem, heq, -⟩)
      · cases hp.symm.trans (parse_eq_exact_iff.mpr ⟨hne, hstar, rfl⟩)
      · cases hp.symm.trans (parse_eq_startsWith_iff.mpr ⟨hstem, heq⟩)
  | ok q =>
    cases q with
    | exact name =>
      obtain ⟨hne, hstar, rfl⟩ := parse_eq_exact_iff.mp hp
      simp only [fits, beq_iff_eq]
      constructor
      · exact fun h => Or.inl ⟨hne, hstar, h⟩
      · rintro (⟨-, -, h⟩ | ⟨stem, -, rfl, -⟩)
        · exact h
        · simp at hstar
    | startsWith stem =>
      obtain ⟨hstem, rfl⟩ := parse_eq_startsWith_iff.mp hp
      simp only [fits, List.isPrefixOf_iff_prefix]
      constructor
      · exact fun h => Or.inr ⟨stem, hstem, rfl, h⟩
      · rintro (⟨-, hstar, -⟩ | ⟨other, -, heq, h⟩)
        · simp at hstar
        · rw [← String.toList_inj] at heq
          have hsame : stem.toList = other.toList := by simpa using heq
          rwa [hsame]

instance (pattern branch : String) : Decidable (Covers pattern branch) :=
  decidable_of_iff _ fits_iff_covers

example : Covers "release_*" "release_1.2" ∧ ¬ Covers "ma*in" "main" ∧ ¬ Covers "" "" := by
  decide +kernel

end BranchPattern

/-! ### Which events start a run -/

namespace Pipeline

/-- The pipeline has no trigger, or one of its patterns covers the branch of the event. -/
def Admits (p : Pipeline) (event : TriggerEvent) : Prop :=
  p.trigger = none ∨ ∃ t branch, p.trigger = some t ∧ event.branch = some branch ∧
    ∃ pattern ∈ t.patterns, BranchPattern.Covers pattern branch

theorem isTriggeredBy_iff_admits {p : Pipeline} {event : TriggerEvent} :
    p.isTriggeredBy event = true ↔ p.Admits event := by
  unfold isTriggeredBy Admits
  cases p.trigger with
  | none => simp
  | some t =>
    unfold Trigger.admits
    cases event.branch with
    | none => simp
    | some branch => simp [Trigger.fits, BranchPattern.fits_iff_covers]

instance (p : Pipeline) (event : TriggerEvent) : Decidable (p.Admits event) :=
  decidable_of_iff _ isTriggeredBy_iff_admits

theorem isTriggeredBy_congr {p : Pipeline} {event : TriggerEvent} {l l' : List String}
    (h : ∀ pattern, BranchPattern.WellFormed pattern → (pattern ∈ l ↔ pattern ∈ l')) :
    { p with trigger := some ⟨l⟩ }.isTriggeredBy event =
      { p with trigger := some ⟨l'⟩ }.isTriggeredBy event := by
  have hfits : ∀ branch pattern, Trigger.patternFits branch pattern = true →
      (pattern ∈ l ↔ pattern ∈ l') := by
    intro branch pattern hf
    refine h pattern (BranchPattern.parse_ok_iff_wellFormed.mp ?_)
    unfold Trigger.patternFits at hf
    split at hf
    · rename_i q hq
      exact ⟨q, hq⟩
    · cases hf
  unfold isTriggeredBy Trigger.admits Trigger.fits
  cases event.branch with
  | none => rfl
  | some branch =>
    dsimp only
    rw [Bool.eq_iff_iff, List.any_eq_true, List.any_eq_true]
    constructor
    · rintro ⟨pattern, hmem, hf⟩
      exact ⟨pattern, (hfits branch pattern hf).mp hmem, hf⟩
    · rintro ⟨pattern, hmem, hf⟩
      exact ⟨pattern, (hfits branch pattern hf).mpr hmem, hf⟩

end Pipeline

/-! ### Runs -/

/-- Nothing of a pipeline was run: no command was invoked, and every step is pending and skipped. -/
structure Execution.DidNothing (x : Execution) (p : Pipeline) : Prop where
  commands : x.commands = []
  status : x.outcome.state.status = .notTriggered
  states : x.outcome.stepStates = List.replicate p.steps.length .pending
  log : x.outcome.runLog.results = []
  failure : x.outcome.failure = none
  artifacts : x.outcome.artifacts = []
  captured : x.outcome.captured = Dict.empty
  skipped : x.outcome.skipped = p.steps.map (·.id)

theorem notTriggeredRun_didNothing (clock : Clock) (id : Uuid) (p : Pipeline)
    (event : TriggerEvent) : (notTriggeredRun clock id p event).DidNothing p where
  commands := rfl
  status := rfl
  states := List.map_const' ..
  log := rfl
  failure := rfl
  artifacts := rfl
  captured := rfl
  skipped := rfl

theorem execute_status_ne_notTriggered (invoke : Invoker) (clock : Clock) (id : Uuid)
    (p : Pipeline) (context : Context) :
    (execute invoke clock id p context).outcome.state.status ≠ .notTriggered := by
  intro h
  cases hs : p.steps[(Stage.initial context).halt invoke p.steps]? with
  | none =>
    have hcompleted : (execute invoke clock id p context).outcome.Completed p :=
      execute_completed hs
    cases hcompleted.status.symm.trans h
  | some step =>
    have hhalted : ∃ x, (execute invoke clock id p context).outcome.HaltedBy p x :=
      execute_halted hs
    obtain ⟨x, hx⟩ := hhalted
    cases hx.status.symm.trans h

/-- A run executes its pipeline exactly if there is no trigger or a pattern covers the branch of the
event, and else it does nothing, whatever the invoker. A text is accepted as a pattern exactly if it
is well-formed, and of the patterns of a trigger only the well-formed ones matter. -/
theorem run_starts_iff_admits (invoke : Invoker) (clock : Clock) (id : Uuid) (p : Pipeline)
    (event : TriggerEvent) (context : Context) :
    let x := run invoke clock id p event context
    (x.outcome.state.status ≠ .notTriggered ↔ p.Admits event) ∧
      (p.Admits event → x = execute invoke clock id p context) ∧
      (¬ p.Admits event →
        x.DidNothing p ∧ ∀ other, run other clock id p event context = x) ∧
      (∀ pattern, (∃ q, BranchPattern.parse pattern = .ok q) ↔
        BranchPattern.WellFormed pattern) ∧
      ∀ l l' : List String,
        (∀ pattern, BranchPattern.WellFormed pattern → (pattern ∈ l ↔ pattern ∈ l')) →
        run invoke clock id { p with trigger := some ⟨l⟩ } event context =
          run invoke clock id { p with trigger := some ⟨l'⟩ } event context := by
  intro x
  have hstarts : p.Admits event → x = execute invoke clock id p context := by
    intro h
    exact if_pos (Pipeline.isTriggeredBy_iff_admits.mpr h)
  have hskips : ∀ other, ¬ p.Admits event →
      run other clock id p event context = notTriggeredRun clock id p event := by
    intro other h
    exact if_neg fun ht => h (Pipeline.isTriggeredBy_iff_admits.mp ht)
  refine ⟨⟨fun h => ?_, fun h => ?_⟩, hstarts, fun h => ⟨?_, fun other => ?_⟩,
    fun _ => BranchPattern.parse_ok_iff_wellFormed, fun l l' hl => ?_⟩
  · refine Decidable.byContradiction fun hn => h ?_
    exact (congrArg (·.outcome.state.status) (hskips invoke hn)).trans rfl
  · rw [hstarts h]
    exact execute_status_ne_notTriggered invoke clock id p context
  · show (run invoke clock id p event context).DidNothing p
    rw [hskips invoke h]
    exact notTriggeredRun_didNothing clock id p event
  · exact (hskips other h).trans (hskips invoke h).symm
  · unfold run
    rw [Pipeline.isTriggeredBy_congr hl]
    rfl

end PipelineRunner
