import PipelineRunner.Proofs.Context.Secrets

/-!
# What redaction removes

Redaction leaves none of the secrets in a text, and leaves a text without secrets as it is. So a
text is left as it is exactly if no secret occurs in it, and a second redaction changes nothing.
-/

namespace PipelineRunner.Context

/-- No non-empty secret shares characters with the mark where they meet or contains it, and none is
a part of it. -/
def MarkApart (c : Context) : Prop :=
  ∀ v ∈ c.secrets.values, v ≠ "" → Text.Apart v.toList redactionMark.toList

instance (c : Context) : Decidable c.MarkApart :=
  inferInstanceAs (Decidable (∀ v ∈ c.secrets.values, v ≠ "" →
    Text.Apart v.toList redactionMark.toList))

def AbsentFrom (c : Context) (t : String) : Prop :=
  ∀ v ∈ c.secrets.values, v ≠ "" → ¬ v.toList <:+: t.toList

section
variable {c : Context}

theorem MarkApart.words (h : c.MarkApart) :
    ∀ w ∈ c.secretWords, Text.Apart w redactionMark.toList := forall_secretWords.mpr h

theorem absentFrom_redact (h : c.MarkApart) (t : String) : c.AbsentFrom (c.redact t) :=
  fun v hv hne => not_infix_redact hv hne (h v hv hne) t

theorem redact_of_absentFrom {t : String} (h : c.AbsentFrom t) : c.redact t = t := by
  have hwords : ∀ w ∈ c.secretWords, ¬ w <:+: t.toList := forall_secretWords.mpr h
  rw [← String.toList_inj, toList_redact]
  exact Text.replaceEach_eq_self hwords

end

/-- A redacted text holds no secret, is not changed by another redaction, and is the text itself
exactly if that holds no secret. -/
theorem redact_removes_secrets (c : Context) (h : c.MarkApart) (t : String) :
    c.AbsentFrom (c.redact t) ∧ c.redact (c.redact t) = c.redact t ∧
      (c.redact t = t ↔ c.AbsentFrom t) := by
  have habsent : c.AbsentFrom (c.redact t) := absentFrom_redact h t
  refine ⟨habsent, redact_of_absentFrom habsent, fun hsame => ?_, redact_of_absentFrom⟩
  rwa [hsame] at habsent

/-- Secrets that contain, equal and overlap one another, and an empty one. -/
def nestedSecrets : Context :=
  [("A", "abc"), ("B", "abcd"), ("C", "bc"), ("D", "cab"), ("E", "abc"), ("F", "")].foldl
    (fun c e => c.setSecret e.1 e.2) empty

theorem nestedSecrets_removed :
    nestedSecrets.MarkApart ∧
      nestedSecrets.redact "xabcdcab-bc" = "x[REDACTED]d[REDACTED]-[REDACTED]" ∧
      nestedSecrets.AbsentFrom (nestedSecrets.redact "xabcdcab-bc") ∧
      nestedSecrets.redact (nestedSecrets.redact "xabcdcab-bc") =
        nestedSecrets.redact "xabcdcab-bc" ∧
      (nestedSecrets.redact "xabcdcab-bc" = "xabcdcab-bc" ↔
        nestedSecrets.AbsentFrom "xabcdcab-bc") := by
  have h : nestedSecrets.MarkApart := by decide +kernel
  exact ⟨h, by decide +kernel, redact_removes_secrets nestedSecrets h "xabcdcab-bc"⟩

-- a secret that ends as the mark starts comes back with the mark
example :
    let c := empty.setSecret "KEY" "[RED"
    ¬ c.MarkApart ∧ c.redact "[RED" = "[REDACTED]" ∧
      c.redact "[REDACTED]" = "[REDACTED]ACTED]" := by
  decide +kernel

end PipelineRunner.Context
