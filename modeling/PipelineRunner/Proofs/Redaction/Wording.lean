import PipelineRunner.Run

/-!
# Characters of error messages

An error message is made of fixed words, numbers and the texts that the error carries. So a
character that is in no word and no number is in the message only if it is in one of those texts.
-/

namespace PipelineRunner

namespace Text

def Lacks (c : Char) (t : String) : Prop := c ∉ t.toList

instance (c : Char) (t : String) : Decidable (Lacks c t) :=
  inferInstanceAs (Decidable (c ∉ t.toList))

variable {c : Char} {t u v : String}

theorem lacks_append : Lacks c (t ++ u) ↔ Lacks c t ∧ Lacks c u := by
  simp [Lacks, String.toList_append]

theorem lacks_empty : Lacks c "" := List.not_mem_nil

theorem Lacks.no_part (h : Lacks c t) (hv : c ∈ v.toList) : ¬ v.toList <:+: t.toList :=
  fun hpart => h (hpart.subset hv)

theorem lacks_nat (hdigit : c.isDigit = false) (n : Nat) : Lacks c (toString n) := by
  intro hc
  rw [Nat.toString_eq_ofList_toDigits, String.toList_ofList] at hc
  have h := Nat.isDigit_of_mem_toDigits (by decide) (by decide) hc
  rw [hdigit] at h
  cases h

theorem lacks_int (hdigit : c.isDigit = false) (hsign : c ≠ '-') (k : Int) :
    Lacks c (toString k) := by
  cases k with
  | ofNat n => exact lacks_nat hdigit n
  | negSucc n =>
    have htext : toString (Int.negSucc n) = "-" ++ toString (n + 1) := rfl
    have hminus : Lacks c "-" := by
      intro hc
      exact hsign (List.mem_singleton.mp hc)
    rw [htext, lacks_append]
    exact ⟨hminus, lacks_nat hdigit (n + 1)⟩

end Text

namespace StepError

open Text (Lacks)

def words : List String :=
  ["missing variable '", "'", "failed to launch '", "': ", "process exited with code ",
    "process terminated by signal", "timed out after ", " seconds", "upload of '", "' to '",
    "' failed: "]

def texts : StepError → List String
  | missingVariable key => [key]
  | launch program cause => [program, cause]
  | failure _ | killed | timeout _ => []
  | upload file key reason => [file, key, reason]

/-- The character is in no fixed word of a message and in no number. -/
structure Unworded (c : Char) : Prop where
  words : ∀ w ∈ words, Lacks c w
  digit : c.isDigit = false
  sign : c ≠ '-'

variable {c : Char}

/-- A character from elsewhere is in a message only if the error carries it. -/
theorem message_lacks (hc : Unworded c) {e : StepError} (h : ∀ t ∈ e.texts, Lacks c t) :
    Lacks c e.message := by
  have hwords := hc.words
  simp only [words, List.forall_mem_cons] at hwords
  obtain ⟨hmissing, hclose, hlaunch, hcolon, hexited, hkilled, htimed, hseconds, hupload, hto,
    hfailed, -⟩ := hwords
  cases e with
  | missingVariable key =>
    have htext : (missingVariable key).message = "missing variable '" ++ key ++ "'" := rfl
    rw [htext, Text.lacks_append, Text.lacks_append]
    exact ⟨⟨hmissing, h key List.mem_cons_self⟩, hclose⟩
  | launch program cause =>
    have htext : (launch program cause).message =
        "failed to launch '" ++ program ++ "': " ++ cause := rfl
    rw [htext, Text.lacks_append, Text.lacks_append, Text.lacks_append]
    exact ⟨⟨⟨hlaunch, h program (by simp [texts])⟩, hcolon⟩, h cause (by simp [texts])⟩
  | failure code =>
    have htext : (failure code).message = "process exited with code " ++ toString code := rfl
    rw [htext, Text.lacks_append]
    exact ⟨hexited, Text.lacks_int hc.digit hc.sign code⟩
  | killed => exact hkilled
  | timeout secs =>
    have htext : (timeout secs).message = "timed out after " ++ toString secs ++ " seconds" := rfl
    rw [htext, Text.lacks_append, Text.lacks_append]
    exact ⟨⟨htimed, Text.lacks_nat hc.digit secs⟩, hseconds⟩
  | upload file key reason =>
    have htext : (upload file key reason).message =
        "upload of '" ++ file ++ "' to '" ++ key ++ "' failed: " ++ reason := rfl
    simp only [htext, Text.lacks_append]
    exact ⟨⟨⟨⟨⟨hupload, h file (by simp [texts])⟩, hto⟩, h key (by simp [texts])⟩, hfailed⟩,
      h reason (by simp [texts])⟩

theorem exitError_texts (code : Option Int) : (exitError code).texts = [] := by
  cases code with
  | none => rfl
  | some k => rfl

theorem uploadOr_message_lacks (hc : Unworded c) {publish : Option Artifact} {e : StepError}
    (hpublish : ∀ a, publish = some a → Lacks c a.file ∧ Lacks c a.key)
    (h : ∀ t ∈ e.texts, Lacks c t) : Lacks c (uploadOr publish e).message := by
  have he := message_lacks hc h
  cases publish with
  | none => exact he
  | some a =>
    obtain ⟨hfile, hkey⟩ := hpublish a rfl
    apply message_lacks hc
    intro t ht
    simp only [uploadOr, texts, List.mem_cons, List.not_mem_nil, or_false] at ht
    rcases ht with rfl | rfl | rfl
    · exact hfile
    · exact hkey
    · exact he

end StepError

end PipelineRunner
