import PipelineRunner.Proofs.Json.Reading
import PipelineRunner.Proofs.Time.Reading
import PipelineRunner.RunLog

/-!
# Run logs as JSON

A log is read back from its JSON, both as a value and as a text, exactly if its numbers fit into
the words that keep them and every point in time has a text that names it.
-/

namespace PipelineRunner

/-! ### Parts of an entry -/

namespace Json

theorem asNat64?_ofNat (n : Nat) : asNat64? (ofNat n) = some n ↔ n < Word.size64 := by
  simp only [asNat64?, ofNat, asInt?]
  split
  · simp
    omega
  · simp
    omega

theorem asInt32?_int (n : Int) : asInt32? (int n) = some n ↔ Word.IsSigned32 n := by
  unfold asInt32? asInt? Word.IsSigned32
  simp

@[simp] theorem exact_ofNat (n : Nat) : (ofNat n).Exact := .int n

@[simp] theorem exact_ofOption_int (code : Option Int) : (ofOption int code).Exact := by
  cases code <;> simp [ofOption]

theorem asOption?_ofOption (code : Option Int) :
    asOption? asInt32? (ofOption int code) = some code ↔ ∀ n ∈ code, Word.IsSigned32 n := by
  cases code with
  | none => simp [ofOption, asOption?]
  | some n => simp [ofOption, asOption?, asInt32?_int]

end Json

namespace StepState

theorem instantOfJson?_instantJson (t : Instant) :
    instantOfJson? (instantJson t) = some t ↔ t.Nameable := by
  rw [instantOfJson?, instantJson, Json.asText?, Option.bind_some]
  exact Instant.ofText?_toText_iff

/-- The numbers of a state fit into their words, and its points in time can be named. -/
def Fits : StepState → Prop
  | pending => True
  | running s => s.Nameable
  | succeeded code s f => Word.IsSigned32 code ∧ s.Nameable ∧ f.Nameable
  | failed _ code s f => (∀ n ∈ code, Word.IsSigned32 n) ∧ s.Nameable ∧ f.Nameable
  | timedOut secs s f => secs < Word.size64 ∧ s.Nameable ∧ f.Nameable

instance : (s : StepState) → Decidable s.Fits
  | pending => inferInstanceAs (Decidable True)
  | running _ => inferInstanceAs (Decidable (Instant.Nameable _))
  | succeeded .. => inferInstanceAs (Decidable (_ ∧ _ ∧ _))
  | failed .. => inferInstanceAs (Decidable (_ ∧ _ ∧ _))
  | timedOut .. => inferInstanceAs (Decidable (_ ∧ _ ∧ _))

/-! The details of a state are read one by one. -/

section
variable (secs code error s f : Json)

theorem ofDetails?_running : ofDetails? "Running" [("started_at", s)] =
    (instantOfJson? s).bind fun s => some (running s) := by
  simp [ofDetails?, Json.require?, Json.field?]

theorem ofDetails?_succeeded :
    ofDetails? "Succeeded" [("exit_code", code), ("started_at", s), ("finished_at", f)] =
      (Json.asInt32? code).bind fun code => (instantOfJson? s).bind fun s =>
        (instantOfJson? f).bind fun f => some (succeeded code s f) := by
  simp [ofDetails?, Json.require?, Json.field?]

theorem ofDetails?_failed :
    ofDetails? "Failed" [("error", error), ("exit_code", code), ("started_at", s),
      ("finished_at", f)] =
      (Json.asText? error).bind fun error => (Json.asOption? Json.asInt32? code).bind fun code =>
        (instantOfJson? s).bind fun s =>
          (instantOfJson? f).bind fun f => some (failed error code s f) := by
  simp [ofDetails?, Json.require?, Json.optional?, Json.field?]

theorem ofDetails?_timedOut :
    ofDetails? "TimedOut" [("timeout_secs", secs), ("started_at", s), ("finished_at", f)] =
      (Json.asNat64? secs).bind fun secs => (instantOfJson? s).bind fun s =>
        (instantOfJson? f).bind fun f => some (timedOut secs s f) := by
  simp [ofDetails?, Json.require?, Json.field?]

end

theorem bind_parts_iff {α β γ : Type} {x : Option α} {y : Option β} {z : Option γ}
    {make : α → β → γ → StepState} {a : α} {b : β} {c : γ}
    (hmake : ∀ a' b' c', make a' b' c' = make a b c → a' = a ∧ b' = b ∧ c' = c) :
    (x.bind fun a => y.bind fun b => z.bind fun c => some (make a b c)) = some (make a b c) ↔
      x = some a ∧ y = some b ∧ z = some c := by
  simp only [Option.bind_eq_some_iff, Option.some.injEq]
  constructor
  · rintro ⟨a', hx, b', hy, c', hz, heq⟩
    obtain ⟨rfl, rfl, rfl⟩ := hmake a' b' c' heq
    exact ⟨hx, hy, hz⟩
  · rintro ⟨hx, hy, hz⟩
    exact ⟨a, hx, b, hy, c, hz, rfl⟩

theorem ofJson?_toJson_iff (s : StepState) : ofJson? s.toJson = some s ↔ s.Fits := by
  cases s with
  | pending => exact ⟨fun _ => trivial, fun _ => rfl⟩
  | running s =>
    rw [toJson, ofJson?, ofDetails?_running, Fits, ← instantOfJson?_instantJson]
    simp only [Option.bind_eq_some_iff, Option.some.injEq, running.injEq, exists_eq_right]
  | succeeded code s f =>
    rw [toJson, ofJson?, ofDetails?_succeeded, bind_parts_iff, Json.asInt32?_int,
      instantOfJson?_instantJson, instantOfJson?_instantJson, Fits]
    intro code' s' f' h
    exact succeeded.inj h
  | failed error code s f =>
    rw [toJson, ofJson?, ofDetails?_failed, Json.asText?, Option.bind_some, bind_parts_iff,
      Json.asOption?_ofOption, instantOfJson?_instantJson, instantOfJson?_instantJson, Fits]
    intro code' s' f' h
    exact (failed.inj h).2
  | timedOut secs s f =>
    rw [toJson, ofJson?, ofDetails?_timedOut, bind_parts_iff, Json.asNat64?_ofNat,
      instantOfJson?_instantJson, instantOfJson?_instantJson, Fits]
    intro secs' s' f' h
    exact timedOut.inj h

theorem exact_toJson (s : StepState) : s.toJson.Exact := by
  cases s <;> simp [toJson, instantJson]

end StepState

namespace RunResult

structure Fits (r : RunResult) : Prop where
  index : r.index < Word.size64
  state : r.state.Fits
  exitCode : ∀ n ∈ r.exitCode, Word.IsSigned32 n
  startedAt : r.startedAt.Nameable
  finishedAt : r.finishedAt.Nameable

theorem fits_iff (r : RunResult) : r.Fits ↔ r.index < Word.size64 ∧ r.state.Fits ∧
    (∀ n ∈ r.exitCode, Word.IsSigned32 n) ∧ r.startedAt.Nameable ∧ r.finishedAt.Nameable :=
  ⟨fun ⟨hi, hs, hc, h0, h1⟩ => ⟨hi, hs, hc, h0, h1⟩,
    fun ⟨hi, hs, hc, h0, h1⟩ => ⟨hi, hs, hc, h0, h1⟩⟩

instance (r : RunResult) : Decidable r.Fits := decidable_of_iff _ r.fits_iff.symm

theorem ofJson?_fields (index stepId stepName state code stdout stderr s f : Json) :
    ofJson? (.obj [("index", index), ("step_id", stepId), ("step_name", stepName),
      ("state", state), ("exit_code", code), ("stdout", stdout), ("stderr", stderr),
      ("started_at", s), ("finished_at", f)]) = (do
        let index ← Json.asNat64? index
        let stepId ← Json.asText? stepId
        let stepName ← Json.asText? stepName
        let state ← StepState.ofJson? state
        let exitCode ← Json.asOption? Json.asInt32? code
        let stdout ← Json.asText? stdout
        let stderr ← Json.asText? stderr
        let startedAt ← StepState.instantOfJson? s
        let finishedAt ← StepState.instantOfJson? f
        some ⟨index, stepId, stepName, state, exitCode, stdout, stderr, startedAt,
          finishedAt⟩) := by
  simp [ofJson?, Json.asFields?, Json.require?, Json.optional?, Json.field?]

theorem ofJson?_toJson_iff (r : RunResult) : ofJson? r.toJson = some r ↔ r.Fits := by
  have hfits : r.Fits ↔ Json.asNat64? (.ofNat r.index) = some r.index ∧
      StepState.ofJson? r.state.toJson = some r.state ∧
      Json.asOption? Json.asInt32? (.ofOption .int r.exitCode) = some r.exitCode ∧
      StepState.instantOfJson? (StepState.instantJson r.startedAt) = some r.startedAt ∧
      StepState.instantOfJson? (StepState.instantJson r.finishedAt) = some r.finishedAt := by
    rw [Json.asNat64?_ofNat, StepState.ofJson?_toJson_iff, Json.asOption?_ofOption,
      StepState.instantOfJson?_instantJson, StepState.instantOfJson?_instantJson]
    exact r.fits_iff
  rw [toJson, ofJson?_fields, hfits]
  simp only [Json.asText?, Option.bind_eq_bind, Option.bind_some, Option.bind_eq_some_iff,
    Option.some.injEq]
  constructor
  · rintro ⟨index, hi, state, hs, code, hc, startedAt, h0, finishedAt, h1, heq⟩
    rw [← heq] at hi hs hc h0 h1 ⊢
    exact ⟨hi, hs, hc, h0, h1⟩
  · rintro ⟨hi, hs, hc, h0, h1⟩
    exact ⟨_, hi, _, hs, _, hc, _, h0, _, h1, rfl⟩

theorem exact_toJson (r : RunResult) : r.toJson.Exact := by
  simp [toJson, StepState.instantJson, StepState.exact_toJson]

end RunResult

namespace RunLog

def Fits (l : RunLog) : Prop := ∀ r ∈ l.results, r.Fits

instance (l : RunLog) : Decidable l.Fits :=
  inferInstanceAs (Decidable (∀ r ∈ l.results, r.Fits))

theorem mapM_toJson_iff (rs : List RunResult) :
    (rs.map RunResult.toJson).mapM RunResult.ofJson? = some rs ↔ ∀ r ∈ rs, r.Fits := by
  induction rs with
  | nil => simp
  | cons r rs ih =>
    rw [List.map_cons, List.mapM_cons, List.forall_mem_cons, ← ih, ← RunResult.ofJson?_toJson_iff]
    simp only [Option.bind_eq_bind, Option.pure_def, Option.bind_eq_some_iff, Option.some.injEq,
      List.cons.injEq]
    constructor
    · rintro ⟨_, hr, _, hrs, rfl, rfl⟩
      exact ⟨hr, hrs⟩
    · rintro ⟨hr, hrs⟩
      exact ⟨r, hr, rs, hrs, rfl, rfl⟩

theorem ofJson?_fields (results : Json) : ofJson? (.obj [("results", results)]) =
    (Json.asList? RunResult.ofJson? results).bind fun results => some ⟨results⟩ := by
  simp [ofJson?, Json.asFields?, Json.require?, Json.field?]

theorem ofJson?_toJson_iff (l : RunLog) : ofJson? l.toJson = some l ↔ l.Fits := by
  obtain ⟨results⟩ := l
  rw [Fits, ← mapM_toJson_iff, toJson, ofJson?_fields, Json.asList?]
  simp only [Option.bind_eq_some_iff, Option.some.injEq, mk.injEq, exists_eq_right]

theorem exact_toJson (l : RunLog) : l.toJson.Exact := by
  simp [toJson, RunResult.exact_toJson]

theorem toJson_inj {l m : RunLog} (hl : l.Fits) (hm : m.Fits) : l.toJson = m.toJson ↔ l = m := by
  refine ⟨fun h => ?_, fun h => h ▸ rfl⟩
  have hread := l.ofJson?_toJson_iff.mpr hl
  rw [h, m.ofJson?_toJson_iff.mpr hm, Option.some.injEq] at hread
  exact hread.symm

/-! ### Texts of logs -/

/-- A log is read back from its JSON value and from its JSON text exactly if it fits, and two logs
that fit have the same value or the same text only if they are the same log. -/
theorem json_keeps_log (l : RunLog) :
    (ofJson? l.toJson = some l ↔ l.Fits) ∧ (ofText? l.toText = some l ↔ l.Fits) ∧
      ∀ m : RunLog, l.Fits → m.Fits →
        (l.toJson = m.toJson ↔ l = m) ∧ (l.toText = m.toText ↔ l = m) := by
  refine ⟨l.ofJson?_toJson_iff, ?_, fun m hl hm => ⟨toJson_inj hl hm, ?_⟩⟩
  · rw [ofText?, toText, Json.ofText?_toText l.exact_toJson, Option.bind_some,
      l.ofJson?_toJson_iff]
  · rw [toText, toText, Json.toText_inj l.exact_toJson m.exact_toJson, toJson_inj hl hm]

/-- A log with a state of every kind, one of them over a leap second, and with texts whose
characters are escaped. -/
def mixed : RunLog :=
  ⟨[⟨0, "build", "Build \"all\"", .succeeded 0 ⟨1735689600, 0⟩ ⟨1735689601, 250000000⟩, some 0,
      "done\n\t\x1b[0m", "C:\\tmp", ⟨1735689600, 0⟩, ⟨1735689601, 250000000⟩⟩,
    ⟨1, "probe", "", .failed "exit \x07" none ⟨-62167219201, 1⟩ ⟨-62167219200, 0⟩, none, "", "",
      ⟨-62167219201, 1⟩, ⟨-62167219200, 0⟩⟩,
    ⟨2, "check", "Prüfung", .failed "" (some (-1)) ⟨1483228799, 1500000000⟩ ⟨253402300800, 999⟩,
      some (-1), "", "é", ⟨1483228799, 1500000000⟩, ⟨253402300800, 999⟩⟩,
    ⟨3, "upload", "", .timedOut 30 ⟨0, 0⟩ ⟨30, 1000⟩, some 2147483647, "", "", ⟨0, 0⟩, ⟨30, 1000⟩⟩,
    ⟨18446744073709551615, "wait", "", .running ⟨5, 0⟩, none, "", "", ⟨5, 0⟩, ⟨5, 0⟩⟩,
    ⟨5, "later", "", .pending, none, "", "", ⟨5, 0⟩, ⟨5, 0⟩⟩]⟩

theorem mixed_log_is_kept :
    mixed.Fits ∧ empty.Fits ∧ ofJson? mixed.toJson = some mixed ∧
      ofText? mixed.toText = some mixed ∧ mixed.toJson ≠ empty.toJson ∧
      mixed.toText ≠ empty.toText := by
  have hmixed : mixed.Fits := by decide
  have hempty : empty.Fits := by decide
  have hne : mixed ≠ empty := by decide
  obtain ⟨hjson, htext, hinj⟩ := json_keeps_log mixed
  exact ⟨hmixed, hempty, hjson.mpr hmixed, htext.mpr hmixed,
    mt (hinj empty hmixed hempty).1.mp hne, mt (hinj empty hmixed hempty).2.mp hne⟩

end RunLog

end PipelineRunner
