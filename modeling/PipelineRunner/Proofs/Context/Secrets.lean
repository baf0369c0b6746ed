import PipelineRunner.Proofs.Pipeline.Layers
import PipelineRunner.Proofs.Redaction.Sequence

/-!
# The secrets of a context

Redaction reads the secrets alone, and leaves none of them in a text. A plain write keeps the
secrets as long as it is not to the name of one, and those a run starts with are named by its
pipeline.
-/

namespace PipelineRunner

namespace Context

/-! ### Redaction -/

theorem redact_congr {c d : Context} (h : c.secrets = d.secrets) (t : String) :
    c.redact t = d.redact t := by
  rw [redact, redact, h]

def wordsOf (values : List String) : List (List Char) :=
  (values.filter fun v => decide (v ≠ "")).map String.toList

theorem mem_wordsOf {values : List String} {w : List Char} :
    w ∈ wordsOf values ↔ ∃ v ∈ values, v ≠ "" ∧ v.toList = w := by
  simp only [wordsOf, List.mem_map, List.mem_filter, decide_eq_true_eq, and_assoc]

theorem wordsOf_append (values later : List String) :
    wordsOf (values ++ later) = wordsOf values ++ wordsOf later := by
  simp only [wordsOf, List.filter_append, List.map_append]

theorem wordsOf_cons {v : String} (hv : v ≠ "") (values : List String) :
    wordsOf (v :: values) = v.toList :: wordsOf values := by
  rw [wordsOf, List.filter_cons_of_pos (by simpa using hv), List.map_cons, wordsOf]

theorem wordsOf_cons_empty (values : List String) : wordsOf ("" :: values) = wordsOf values := rfl

theorem wordsOf_map_ofList {l : List (List Char)} (h : ∀ w ∈ l, w ≠ []) :
    wordsOf (l.map String.ofList) = l := by
  induction l with
  | nil => rfl
  | cons w rest ih =>
    have hw : String.ofList w ≠ "" := by
      intro heq
      apply h w List.mem_cons_self
      rw [← String.toList_ofList (l := w), heq, String.toList_empty]
    rw [List.map_cons, wordsOf_cons hw, String.toList_ofList,
      ih fun x hx => h x (List.mem_cons_of_mem w hx)]

def secretWords (c : Context) : List (List Char) := wordsOf c.secrets.values

theorem mem_secretWords {c : Context} {w : List Char} :
    w ∈ c.secretWords ↔ ∃ v ∈ c.secrets.values, v ≠ "" ∧ v.toList = w := mem_wordsOf

theorem forall_secretWords {c : Context} {P : List Char → Prop} :
    (∀ w ∈ c.secretWords, P w) ↔ ∀ v ∈ c.secrets.values, v ≠ "" → P v.toList := by
  constructor
  · intro h v hv hne
    exact h v.toList (mem_secretWords.mpr ⟨v, hv, hne, rfl⟩)
  · intro h w hw
    obtain ⟨v, hv, hne, rfl⟩ := mem_secretWords.mp hw
    exact h v hv hne

theorem toList_foldl_replace (values : List String) (t : String) :
    (values.foldl (fun t v => Text.replace t v redactionMark) t).toList =
      Text.replaceEach redactionMark.toList (wordsOf values) t.toList := by
  induction values generalizing t with
  | nil => rfl
  | cons v rest ih =>
    rw [List.foldl_cons, ih, Text.replace, String.toList_ofList]
    by_cases hv : v = ""
    · rw [hv, wordsOf_cons_empty, String.toList_empty, Text.replaceChars_nil_word]
    · rw [wordsOf_cons hv, Text.replaceEach_cons]

theorem toList_redact (c : Context) (t : String) :
    (c.redact t).toList = Text.replaceEach redactionMark.toList c.secretWords t.toList :=
  toList_foldl_replace c.secrets.values t

@[simp] theorem redact_empty (c : Context) : c.redact "" = "" := by
  rw [← String.toList_inj, toList_redact, String.toList_empty]
  refine Text.replaceEach_eq_self fun w hw hin => ?_
  obtain ⟨v, -, hne, rfl⟩ := mem_secretWords.mp hw
  exact hne (String.toList_eq_nil_iff.mp (List.infix_nil.mp hin))

theorem not_infix_redact {c : Context} {v : String} (hmem : v ∈ c.secrets.values) (hv : v ≠ "")
    (h : Text.Apart v.toList redactionMark.toList) (t : String) :
    ¬ v.toList <:+: (c.redact t).toList := by
  rw [toList_redact]
  exact h.not_infix_replaceEach (Or.inl (mem_secretWords.mpr ⟨v, hmem, hv, rfl⟩))

/-! ### Plain writes -/

theorem setVariable_secrets {c : Context} {key : String} (value : String)
    (h : c.secrets.get? key = none) : (c.setVariable key value).secrets = c.secrets := by
  rw [setVariable, Dict.erase_eq_self h]

/-! ### Where secrets come from -/

/-- Every secret is named in `names` and has the value that the environment sets. -/
def SecretsFrom (env : ProcessEnv) (names : List String) (c : Context) : Prop :=
  ∀ k v, c.secrets.get? k = some v → k ∈ names ∧ env.get? k = some v

end Context

theorem Pipeline.initialContext_secretsFrom (p : Pipeline) (env : ProcessEnv) (event : TriggerEvent)
    (overrides : List (String × String)) :
    (p.initialContext env event overrides).SecretsFrom env p.secrets := by
  intro k v hk
  rw [initialContext_eq, (Context.tracks_ofWrites _).secrets] at hk
  obtain ⟨held, hlast, hheld⟩ := Option.bind_eq_some_iff.mp hk
  rw [Context.Held.secret?_eq_some_iff] at hheld
  subst hheld
  exact mem_initialWrites_secret.mp (Context.mem_of_lastWrite? hlast)

end PipelineRunner
