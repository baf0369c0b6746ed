import PipelineRunner.Proofs.Redaction.Removal

/-!
# Redaction and the names of secrets

Secrets are replaced in the order of their names. The names make no difference exactly if no two
different secrets overlap; else the same values under the same names, given out in another order,
redact some text differently. A secret is hidden whole exactly if it has a name before those of all
other secrets that are parts of it.
-/

namespace PipelineRunner

/-- Other values under the names of a dictionary, in the order of the names. -/
def Dict.withValues {α β : Type} (d : Dict α) (values : List β)
    (h : values.length = d.keys.length) : Dict β where
  entries := d.keys.zip values
  ascending := by
    have hnames : (d.keys.zip values).map Prod.fst = d.keys :=
      List.map_fst_zip (Nat.le_of_eq h.symm)
    have hsorted : ((d.keys.zip values).map Prod.fst).Pairwise (· < ·) := by
      rw [hnames]
      exact d.keys_ascending
    exact List.pairwise_map.mp hsorted

namespace Dict

variable {α β : Type} (d : Dict α) {values : List β} (h : values.length = d.keys.length)

theorem keys_withValues : (d.withValues values h).keys = d.keys :=
  List.map_fst_zip (Nat.le_of_eq h.symm)

theorem values_withValues : (d.withValues values h).values = values :=
  List.map_snd_zip (Nat.le_of_eq h)

end Dict

namespace Context

def SecretsApart (c : Context) : Prop :=
  ∀ v ∈ c.secrets.values, ∀ w ∈ c.secrets.values, v ≠ "" → w ≠ "" → v ≠ w →
    Text.Apart v.toList w.toList

instance (c : Context) : Decidable c.SecretsApart :=
  inferInstanceAs (Decidable (∀ v ∈ c.secrets.values, ∀ w ∈ c.secrets.values, v ≠ "" → w ≠ "" →
    v ≠ w → Text.Apart v.toList w.toList))

/-- Two contexts hold the same non-empty secrets, whatever their names. -/
def SameSecrets (c d : Context) : Prop :=
  ∀ v, v ≠ "" → (v ∈ c.secrets.values ↔ v ∈ d.secrets.values)

section
variable {c d : Context}

theorem sameSecrets_of_perm (h : c.secrets.values.Perm d.secrets.values) : c.SameSecrets d :=
  fun _ _ => h.mem_iff

theorem SameSecrets.words (h : c.SameSecrets d) (w : List Char) :
    w ∈ c.secretWords ↔ w ∈ d.secretWords := by
  rw [mem_secretWords, mem_secretWords]
  constructor
  · rintro ⟨v, hv, hne, hw⟩
    exact ⟨v, (h v hne).mp hv, hne, hw⟩
  · rintro ⟨v, hv, hne, hw⟩
    exact ⟨v, (h v hne).mpr hv, hne, hw⟩

theorem secretsApart_iff_words : c.SecretsApart ↔ Text.MutuallyApart c.secretWords := by
  constructor
  · intro h x hx y hy hne
    obtain ⟨v, hv, hv', rfl⟩ := mem_secretWords.mp hx
    obtain ⟨w, hw, hw', rfl⟩ := mem_secretWords.mp hy
    exact h v hv w hw hv' hw' fun heq => hne (congrArg String.toList heq)
  · intro h v hv w hw hv' hw' hne
    refine h v.toList ?_ w.toList ?_ fun heq => hne (String.toList_inj.mp heq)
    · exact mem_secretWords.mpr ⟨v, hv, hv', rfl⟩
    · exact mem_secretWords.mpr ⟨w, hw, hw', rfl⟩

/-! ### Secrets under other names -/

theorem redact_eq_of_sameSecrets (hmark : c.MarkApart) (happart : c.SecretsApart)
    (h : c.SameSecrets d) (t : String) : d.redact t = c.redact t := by
  rw [← String.toList_inj, toList_redact, toList_redact]
  exact (Text.replaceEach_congr hmark.words (secretsApart_iff_words.mp happart) h.words _).symm

/-- Every order of the secrets is the order of their names in some context with these names. -/
theorem exists_context_of_perm {l : List (List Char)} (h : l.Perm c.secretWords) :
    ∃ d : Context, d.secrets.keys = c.secrets.keys ∧ d.secrets.values.Perm c.secrets.values ∧
      d.secretWords = l := by
  let blanks := c.secrets.values.filter fun v => !decide (v ≠ "")
  let values := l.map String.ofList ++ blanks
  have hback : c.secretWords.map String.ofList =
      c.secrets.values.filter fun v => decide (v ≠ "") := by
    rw [secretWords, wordsOf, List.map_map]
    exact List.map_id'' (fun v => String.ofList_toList) _
  have hperm : values.Perm c.secrets.values := by
    have hwords : (l.map String.ofList).Perm
        (c.secrets.values.filter fun v => decide (v ≠ "")) := by
      rw [← hback]
      exact h.map _
    exact (hwords.append_right blanks).trans (List.filter_append_perm _ _)
  have hlen : values.length = c.secrets.keys.length := by
    rw [hperm.length_eq, Dict.values, Dict.keys, List.length_map, List.length_map]
  have hvalues : (c.secrets.withValues values hlen).values = values :=
    c.secrets.values_withValues hlen
  have hblanks : wordsOf blanks = [] := by
    refine List.eq_nil_iff_forall_not_mem.mpr fun w hw => ?_
    obtain ⟨v, hv, hne, -⟩ := mem_wordsOf.mp hw
    have hblank := (List.mem_filter.mp hv).2
    rw [decide_eq_true hne] at hblank
    cases hblank
  have hl : ∀ w ∈ l, w ≠ [] := by
    intro w hw
    obtain ⟨v, -, hne, rfl⟩ := mem_secretWords.mp (h.mem_iff.mp hw)
    exact fun heq => hne (String.toList_eq_nil_iff.mp heq)
  refine ⟨{ c with secrets := c.secrets.withValues values hlen }, c.secrets.keys_withValues hlen,
    ?_, ?_⟩
  · show (c.secrets.withValues values hlen).values.Perm _
    rw [hvalues]
    exact hperm
  · show wordsOf (c.secrets.withValues values hlen).values = l
    rw [hvalues, wordsOf_append, hblanks, List.append_nil, wordsOf_map_ofList hl]

theorem mark_borderless : Text.Borderless redactionMark.toList := by decide +kernel

theorem exists_redact_ne (hmark : c.MarkApart) (h : ¬ c.SecretsApart) :
    ∃ (d : Context) (t : String), d.secrets.keys = c.secrets.keys ∧
      d.secrets.values.Perm c.secrets.values ∧ d.redact t ≠ c.redact t := by
  have hwords : ¬ Text.MutuallyApart c.secretWords := fun hw => h (secretsApart_iff_words.mpr hw)
  obtain ⟨l, l', s, hl, hl', hne⟩ :=
    Text.exists_replaceEach_ne mark_borderless hmark.words hwords
  obtain ⟨d, hkeys, hvalues, hd⟩ := exists_context_of_perm hl
  obtain ⟨d', hkeys', hvalues', hd'⟩ := exists_context_of_perm hl'
  have hdiffer : d.redact (String.ofList s) ≠ d'.redact (String.ofList s) := by
    intro heq
    rw [← String.toList_inj, toList_redact, toList_redact, hd, hd', String.toList_ofList] at heq
    exact hne heq
  -- the context itself makes one of the two texts at most
  by_cases hc : d.redact (String.ofList s) = c.redact (String.ofList s)
  · exact ⟨d', String.ofList s, hkeys', hvalues', fun heq => hdiffer (hc.trans heq.symm)⟩
  · exact ⟨d, String.ofList s, hkeys, hvalues, hc⟩

/-! ### Secrets that are parts of another -/

/-- A secret has a name before those of all other secrets that are parts of it. -/
def BeforeItsParts (c : Context) (w : String) : Prop :=
  ∃ k, c.secrets.get? k = some w ∧
    ∀ l v, c.secrets.get? l = some v → v ≠ "" → v ≠ w → v.toList <:+: w.toList → k < l

/-- The first secret, in the order of the names, that is a part of `w`. -/
structure FirstPart (c : Context) (w : String) (before : List (String × String)) (k u : String)
    (after : List (String × String)) : Prop where
  entries : c.secrets.entries = before ++ (k, u) :: after
  nonempty : u ≠ ""
  part : u.toList <:+: w.toList
  none_before : ∀ e ∈ before, e.2 ≠ "" → ¬ e.2.toList <:+: w.toList

theorem exists_firstPart {w : String} (hw : w ∈ c.secrets.values) (hne : w ≠ "") :
    ∃ before k u after, c.FirstPart w before k u after := by
  obtain ⟨k, hk⟩ := Dict.mem_values_iff.mp hw
  have hsome : (c.secrets.entries.find? fun e =>
      decide (e.2 ≠ "" ∧ e.2.toList <:+: w.toList)).isSome = true := by
    rw [List.find?_isSome]
    exact ⟨(k, w), Dict.mem_entries_iff.mpr hk, decide_eq_true ⟨hne, List.infix_rfl⟩⟩
  obtain ⟨⟨k, u⟩, hfind⟩ := Option.isSome_iff_exists.mp hsome
  obtain ⟨hpart, before, after, hentries, hbefore⟩ := List.find?_eq_some_iff_append.mp hfind
  have hu := of_decide_eq_true hpart
  refine ⟨before, k, u, after, hentries, hu.1, hu.2, fun e he hne' hin => ?_⟩
  have hnot := hbefore e he
  rw [decide_eq_true (And.intro hne' hin)] at hnot
  cases hnot

section
variable {w k u : String} {before after : List (String × String)}

theorem FirstPart.toList_redact (h : c.FirstPart w before k u after) :
    (c.redact w).toList = Text.replaceEach redactionMark.toList
      (u.toList :: wordsOf (after.map (·.2))) w.toList := by
  have hwords : c.secretWords =
      wordsOf (before.map (·.2)) ++ u.toList :: wordsOf (after.map (·.2)) := by
    rw [secretWords, Dict.values, h.entries, List.map_append, List.map_cons, wordsOf_append,
      wordsOf_cons h.nonempty]
  have hkept : Text.replaceEach redactionMark.toList (wordsOf (before.map (·.2))) w.toList =
      w.toList := by
    refine Text.replaceEach_eq_self fun x hx => ?_
    obtain ⟨v, hv, hne, rfl⟩ := mem_wordsOf.mp hx
    obtain ⟨e, he, rfl⟩ := List.mem_map.mp hv
    exact h.none_before e he hne
  rw [Context.toList_redact, hwords, Text.replaceEach_append, hkept]

theorem FirstPart.redact_eq_iff (hmark : c.MarkApart) (h : c.FirstPart w before k u after) :
    c.redact w = redactionMark ↔ u = w := by
  have hu : u ∈ c.secrets.values := by
    rw [Dict.values, h.entries]
    exact List.mem_map_of_mem (List.mem_append_right _ List.mem_cons_self)
  have hapart : Text.Apart u.toList redactionMark.toList := hmark u hu h.nonempty
  have hafter : ∀ x ∈ wordsOf (after.map (·.2)), Text.Apart x redactionMark.toList := by
    intro x hx
    obtain ⟨v, hv, hne, rfl⟩ := mem_wordsOf.mp hx
    obtain ⟨e, he, rfl⟩ := List.mem_map.mp hv
    refine hmark e.2 ?_ hne
    rw [Dict.values, h.entries]
    exact List.mem_map_of_mem (List.mem_append_right _ (List.mem_cons_of_mem _ he))
  rw [← String.toList_inj, h.toList_redact]
  constructor
  · intro hsame
    by_contra hne
    have hword : u.toList ≠ w.toList := fun heq => hne (String.toList_inj.mp heq)
    exact Text.replaceEach_ne_mark hapart hafter h.part hword hsame
  · rintro rfl
    exact Text.replaceEach_whole hapart.ne_nil hafter

theorem FirstPart.beforeItsParts_iff (h : c.FirstPart w before k u after) (hne : w ≠ "") :
    c.BeforeItsParts w ↔ u = w := by
  have hmem : ∀ l v, c.secrets.get? l = some v ↔
      (l, v) ∈ before ∨ (l, v) = (k, u) ∨ (l, v) ∈ after := by
    intro l v
    rw [← Dict.mem_entries_iff, h.entries, List.mem_append, List.mem_cons]
  have hsorted := c.secrets.ascending
  rw [h.entries, List.pairwise_append, List.pairwise_cons] at hsorted
  obtain ⟨-, ⟨hlater, -⟩, -⟩ := hsorted
  have hku : c.secrets.get? k = some u := (hmem k u).mpr (Or.inr (Or.inl rfl))
  constructor
  · rintro ⟨k', hk', hall⟩
    by_contra huw
    have hlt : k' < k := hall k u hku h.nonempty huw h.part
    rcases (hmem k' w).mp hk' with hbefore | heq | hafter
    · exact h.none_before (k', w) hbefore hne List.infix_rfl
    · cases heq
      exact huw rfl
    · exact String.lt_irrefl _ (String.lt_trans hlt (hlater (k', w) hafter))
  · rintro rfl
    refine ⟨k, hku, fun l v hv hv' hvu hin => ?_⟩
    rcases (hmem l v).mp hv with hbefore | heq | hafter
    · exact absurd hin (h.none_before (l, v) hbefore hv')
    · cases heq
      exact absurd rfl hvu
    · exact hlater (l, v) hafter

end

theorem redact_self_iff (hmark : c.MarkApart) {w : String} (hw : w ∈ c.secrets.values)
    (hne : w ≠ "") : c.redact w = redactionMark ↔ c.BeforeItsParts w := by
  obtain ⟨before, k, u, after, hfirst⟩ := exists_firstPart hw hne
  rw [hfirst.redact_eq_iff hmark, hfirst.beforeItsParts_iff hne]

end

/-- The names of the secrets make no difference to redaction exactly if no two different secrets
overlap. If two do, already the same values given out otherwise under the same names redact some
text differently, and a secret leaves nothing but one mark exactly if it stands before the other
secrets that are parts of it. -/
theorem redact_forgets_names_iff (c : Context) (h : c.MarkApart) :
    ((∀ d : Context, c.SameSecrets d → ∀ t, d.redact t = c.redact t) ↔ c.SecretsApart) ∧
      (¬ c.SecretsApart → ∃ (d : Context) (t : String), d.secrets.keys = c.secrets.keys ∧
        d.secrets.values.Perm c.secrets.values ∧ d.redact t ≠ c.redact t) ∧
      ∀ w ∈ c.secrets.values, w ≠ "" → (c.redact w = redactionMark ↔ c.BeforeItsParts w) := by
  refine ⟨⟨fun hall => ?_, fun happart d hd t => redact_eq_of_sameSecrets h happart hd t⟩,
    exists_redact_ne h, fun w hw hne => redact_self_iff h hw hne⟩
  by_contra hnot
  obtain ⟨d, t, -, hperm, hne⟩ := exists_redact_ne h hnot
  exact hne (hall d (sameSecrets_of_perm hperm.symm) t)

/-- Two secrets, of which the first by name is a part of the second. -/
def partFirst : Context := (empty.setSecret "KEY" "ab").setSecret "TOKEN" "abc"

def wholeFirst : Context := (empty.setSecret "KEY" "abc").setSecret "TOKEN" "ab"

theorem partFirst_depends_on_names :
    partFirst.MarkApart ∧ ¬ partFirst.SecretsApart ∧
      (∃ (d : Context) (t : String), d.secrets.keys = partFirst.secrets.keys ∧
        d.secrets.values.Perm partFirst.secrets.values ∧ d.redact t ≠ partFirst.redact t) ∧
      (partFirst.redact "abc" = redactionMark ↔ partFirst.BeforeItsParts "abc") := by
  have h : partFirst.MarkApart := by decide +kernel
  have hnot : ¬ partFirst.SecretsApart := by decide +kernel
  have hall := redact_forgets_names_iff partFirst h
  exact ⟨h, hnot, hall.2.1 hnot, hall.2.2 "abc" (by decide +kernel) (by decide +kernel)⟩

/-- Under one name the longer secret shows its last character, under the other it does not. -/
theorem longer_secret_shows_rest :
    partFirst.MarkApart ∧ wholeFirst.MarkApart ∧ partFirst.SameSecrets wholeFirst ∧
      "ab".toList <:+: "abc".toList ∧ partFirst.redact "abc" = "[REDACTED]c" ∧
      wholeFirst.redact "abc" = "[REDACTED]" := by
  have hperm : partFirst.secrets.values.Perm wholeFirst.secrets.values := by decide +kernel
  exact ⟨by decide +kernel, by decide +kernel, sameSecrets_of_perm hperm, by decide +kernel,
    by decide +kernel, by decide +kernel⟩

end Context

end PipelineRunner
