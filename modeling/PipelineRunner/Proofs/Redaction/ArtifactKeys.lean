import PipelineRunner.Proofs.Redaction.Disclosure
import PipelineRunner.Proofs.Run.Events

/-!
# Artifacts disclose what their keys refer to

A publishing step whose process is started reports the file and the key of its artifact: in the
event of the artifact if it succeeds, and in its error if it fails. So the run discloses every value
that the templates of the two refer to, secret or not.
-/

namespace PipelineRunner

open Template (slots)
open Text (Lacks)

/-! ### One step -/

/-- The file and the key of an artifact are parts of reported texts of the event. -/
def RunEvent.Shows (e : RunEvent) (x : Artifact) : Prop :=
  (∃ t ∈ e.reportedTexts, x.file.toList <:+: t.toList) ∧
    ∃ t ∈ e.reportedTexts, x.key.toList <:+: t.toList

theorem publishedEvent_shows (step : Step) (x : Artifact) : (publishedEvent step x).Shows x :=
  ⟨⟨x.file, List.mem_cons_self, List.infix_rfl⟩,
    ⟨x.key, List.mem_cons_of_mem _ List.mem_cons_self, List.infix_rfl⟩⟩

theorem stepFailed_shows (index : Nat) (id : String) (x : Artifact) (e : StepError)
    (shown : String) :
    (RunEvent.stepFailed index id (uploadOr (some x) e).message shown).Shows x := by
  have htext : (uploadOr (some x) e).message =
      "upload of '" ++ x.file ++ "' to '" ++ x.key ++ "' failed: " ++ e.message := rfl
  have hfile : x.file.toList <:+: (uploadOr (some x) e).message.toList := by
    simp only [htext, String.toList_append]
    exact ⟨"upload of '".toList,
      "' to '".toList ++ x.key.toList ++ "' failed: ".toList ++ e.message.toList, by simp⟩
  have hkey : x.key.toList <:+: (uploadOr (some x) e).message.toList := by
    simp only [htext, String.toList_append]
    exact ⟨"upload of '".toList ++ x.file.toList ++ "' to '".toList,
      "' failed: ".toList ++ e.message.toList, by simp⟩
  exact ⟨⟨_, List.mem_cons_self, hfile⟩, ⟨_, List.mem_cons_self, hkey⟩⟩

theorem StepEnds.shows_artifact {invoke : Invoker} {s : Stage} {index : Nat} {step : Step}
    {a z : Instant} {r : StepRun} (h : StepEnds invoke s index step a z r)
    (hentry : r.entry.isSome = true) :
    ∃ b, Binding.bind step s.context = .ok b ∧ ∀ x, b.publish = some x →
      (∃ y, s.yield? invoke step = some y ∧ y.publish = some x) ∨ ∃ e ∈ r.events, e.Shows x := by
  cases h with
  | unbound key => cases hentry
  | unlaunched b program cause => cases hentry
  | timedOut b secs hb =>
    refine ⟨b, hb, fun x hx => Or.inr ⟨_, List.mem_cons_of_mem _ List.mem_cons_self, ?_⟩⟩
    rw [hx]
    exact stepFailed_shows index step.id x _ ""
  | failed b o hb =>
    refine ⟨b, hb, fun x hx => Or.inr ⟨_, List.mem_cons_of_mem _ List.mem_cons_self, ?_⟩⟩
    rw [hx]
    exact stepFailed_shows index step.id x _ _
  | succeeded b o hb hreply hcode =>
    refine ⟨b, hb, fun x hx => Or.inl ⟨⟨o.stdout, b.publish⟩, ?_, hx⟩⟩
    simp only [Stage.yield?, hb, hreply, hcode, if_true]

theorem Binding.infix_of_bindArtifact {value? : Binding.Lookup} {a : Artifact} {r : Option Artifact}
    (h : bindArtifact value? (some a) = .ok r) :
    ∃ x, r = some x ∧ ∀ n ∈ slots a.file ++ slots a.key, ∀ v, value? n = some v →
      v.toList <:+: x.file.toList ∨ v.toList <:+: x.key.toList := by
  obtain ⟨file, key, hfile, hkey, rfl⟩ := bindArtifact_some h
  refine ⟨⟨file, key⟩, rfl, fun n hn v hv => ?_⟩
  rcases List.mem_append.mp hn with hn | hn
  · exact Or.inl (Template.infix_render (render_of_fill hfile) hn hv)
  · exact Or.inr (Template.infix_render (render_of_fill hkey) hn hv)

/-! ### Whole runs -/

namespace Stage

variable {invoke : Invoker} {clock : Clock} {s : Stage} {base i : Nat} {state : RunState}
  {steps : List Step}

theorem exists_shows_of_entry {r : StepRun} (hr : s.runAt? invoke clock base steps i = some r)
    (hentry : r.entry.isSome = true) :
    ∃ step b, steps[i]? = some step ∧
      Binding.bind step (s.reach invoke steps i).context = .ok b ∧
      ∀ x, b.publish = some x → ∃ e ∈ s.eventsAt invoke clock base steps i, e.Shows x := by
  obtain ⟨step, hstep, hends⟩ := exists_ends_of_run hr
  obtain ⟨b, hb, hshows⟩ := hends.shows_artifact hentry
  refine ⟨step, b, hstep, hb, fun x hx => ?_⟩
  rw [eventsAt_of_run hstep hr]
  rcases hshows x hx with ⟨y, hy, hyx⟩ | ⟨e, he, hex⟩
  · have hat : s.artifactAt? invoke steps i = some x := by
      rw [artifactAt?, yieldAt?, hstep, Option.bind_some, hy, Option.bind_some, hyx]
    rw [hat]
    exact ⟨_, List.mem_append_right _ List.mem_cons_self, publishedEvent_shows step x⟩
  · exact ⟨e, List.mem_append_left _ he, hex⟩

theorem mem_trail_of_eventsAt {e : RunEvent} (hi : i ≤ s.halt invoke steps)
    (he : e ∈ s.eventsAt invoke clock base steps i) :
    e ∈ (s.trail invoke clock base state steps).events := by
  rw [trail_events]
  by_cases hlt : i < s.halt invoke steps
  · exact List.mem_append_left _ (List.mem_flatMap.mpr ⟨i, List.mem_range.mpr hlt, he⟩)
  · obtain rfl : i = s.halt invoke steps := by omega
    exact List.mem_append_right _ (List.mem_append_left _ he)

end Stage

theorem not_conceals_of_shows {x : Execution} {e : RunEvent} {a : Artifact} {v : String}
    (he : e ∈ x.events) (hshows : e.Shows a)
    (hv : v.toList <:+: a.file.toList ∨ v.toList <:+: a.key.toList) : ¬ x.Conceals v := by
  have hreported : ∀ t ∈ e.reportedTexts, t ∈ x.reportedTexts := fun t ht =>
    List.mem_append_left _ (List.mem_append_left _ (List.mem_flatMap.mpr ⟨e, he, ht⟩))
  obtain ⟨⟨t, ht, hfile⟩, ⟨u, hu, hkey⟩⟩ := hshows
  intro h
  rcases hv with hv | hv
  · exact h t (hreported t ht) (hv.trans hfile)
  · exact h u (hreported u hu) (hv.trans hkey)

theorem execute_discloses_artifact {invoke : Invoker} {clock : Clock} {id : Uuid} {p : Pipeline}
    {context : Context} {i : Nat} {entry : RunResult}
    (hlog : (execute invoke clock id p context).outcome.runLog.results[i]? = some entry) :
    ∃ step b, p.steps[i]? = some step ∧
      Binding.bind step ((Stage.initial context).reach invoke p.steps i).context = .ok b ∧
      ∀ a, step.publishes = some a → ∀ n ∈ slots a.file ++ slots a.key, ∀ v,
        Binding.lookupIn b.command.env ((Stage.initial context).reach invoke p.steps i).context n =
            some v →
          ¬ (execute invoke clock id p context).Conceals v := by
  have hentries : (p.trail invoke clock id context).entries[i]? =
      some entry := hlog
  rw [Stage.trail_entries] at hentries
  split at hentries
  · rename_i hi
    obtain ⟨r, hr, hentry⟩ := Option.bind_eq_some_iff.mp hentries
    obtain ⟨step, b, hstep, hb, hshows⟩ :=
      Stage.exists_shows_of_entry hr (by rw [hentry, Option.isSome_some])
    refine ⟨step, b, hstep, hb, fun a ha n hn v hv => ?_⟩
    obtain ⟨env, command, -, -, -, hpublish, -, henv, -⟩ := Binding.bind_eq_ok hb
    rw [ha] at hpublish
    rw [henv] at hv
    obtain ⟨x, hx, hparts⟩ := Binding.infix_of_bindArtifact hpublish
    obtain ⟨e, he, hex⟩ := hshows x hx
    have hevent : e ∈ (execute invoke clock id p context).events :=
      List.mem_cons_of_mem _ (List.mem_append_left _ (Stage.mem_trail_of_eventsAt hi he))
    exact not_conceals_of_shows hevent hex (hparts n hn v hv)
  · cases hentries

def keyedConfig : PipelineConfig :=
  { PipelineConfig.blank with
    name := "keyed"
    secrets := ["TOKEN"]
    steps :=
      [{ StepConfig.blank with
          id := "upload", run := ["put"]
          publishes := some ⟨"schema.json", "\x7b\x7bTOKEN\x7d\x7d/schema.json"⟩ }] }

def keyedContext : Context := keyedConfig.toPipeline.initialContext uploadEnv .manual []

def keyed (code : Int) : Execution :=
  execute (fun _ => .ok ⟨some code, "", ""⟩) (fun n => ⟨n, 0⟩) .nil keyedConfig.toPipeline
    keyedContext

/-- The pipeline is valid and the secret has a character from elsewhere, and yet a run of it
discloses the secret: as the key of its artifact if the upload succeeds, and in its error if not. -/
theorem keyed_discloses :
    keyedConfig.validate (fun _ => true) = .ok () ∧
      keyedConfig.toPipeline.Foreign keyedContext '~' ∧ Lacks '~' redactionMark ∧
      keyedContext.secrets.values = ["s~cret"] ∧
      .artifactPublished "upload" "schema.json" "s~cret/schema.json" ∈ (keyed 0).events ∧
      (Summary.ofOutcome (keyed 0).outcome).artifacts = ["s~cret/schema.json"] ∧
      (Summary.ofOutcome (keyed 1).outcome).error =
        some "upload of 'schema.json' to 's~cret/schema.json' failed: process exited with code 1" ∧
      ¬ (keyed 0).Conceals "s~cret" ∧ ¬ (keyed 1).Conceals "s~cret" :=
  ⟨rfl, ⟨⟨by decide +kernel, by decide, by decide⟩, by decide +kernel, by decide +kernel⟩,
    by decide +kernel, by decide +kernel, by decide +kernel, by decide +kernel, by decide +kernel,
    by decide +kernel, by decide +kernel⟩

end PipelineRunner
