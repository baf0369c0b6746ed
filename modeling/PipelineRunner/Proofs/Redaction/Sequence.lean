import PipelineRunner.Proofs.Redaction.Replacing

/-!
# Replacing several words

Words that are replaced by one mark, each in the text that those before it left. Words that do not
overlap the mark are all gone afterwards, and the marks cut the text into parts in which the later
words are replaced apart from each other. Where no two of the words overlap either, each is replaced
wherever it stands in the text, so their order does not matter; where two do, it matters for the
text in which they overlap.
-/

namespace PipelineRunner.Text

def replaceEach (m : List Char) (words : List (List Char)) (s : List Char) : List Char :=
  words.foldl (fun t v => replaceChars v m t) s

section
variable {m s v w : List Char} {words : List (List Char)}

theorem replaceEach_cons (m v : List Char) (words : List (List Char)) (s : List Char) :
    replaceEach m (v :: words) s = replaceEach m words (replaceChars v m s) := rfl

theorem replaceEach_append (m : List Char) (words later : List (List Char)) (s : List Char) :
    replaceEach m (words ++ later) s = replaceEach m later (replaceEach m words s) :=
  List.foldl_append

/-! ### Which words remain -/

/-- A word that is not in the text, or is replaced, is not in the text that the replacements make;
those made after its own do not bring it back. -/
theorem Apart.not_infix_replaceEach (h : Apart v m) (hv : v ∈ words ∨ ¬ v <:+: s) :
    ¬ v <:+: replaceEach m words s := by
  induction words generalizing s with
  | nil =>
    rcases hv with hv | hv
    · cases hv
    · exact hv
  | cons w rest ih =>
    rw [replaceEach_cons]
    apply ih
    rcases hv with hv | hv
    · rcases List.mem_cons.mp hv with rfl | hv
      · exact Or.inr (h.not_infix_replaceChars_self s)
      · exact Or.inl hv
    · exact Or.inr (h.not_infix_replaceChars hv)

theorem replaceEach_eq_self (h : ∀ v ∈ words, ¬ v <:+: s) : replaceEach m words s = s := by
  induction words with
  | nil => rfl
  | cons w rest ih =>
    have hw : ¬ w <:+: s := h w List.mem_cons_self
    have hrest : ∀ v ∈ rest, ¬ v <:+: s := fun v hv => h v (List.mem_cons_of_mem w hv)
    rw [replaceEach_cons, replaceChars_eq_self hw, ih hrest]

theorem replaceEach_ne_nil (hm : m ≠ []) (words : List (List Char)) (hs : s ≠ []) :
    replaceEach m words s ≠ [] := by
  induction words generalizing s with
  | nil => exact hs
  | cons w rest ih => exact ih (replaceChars_ne_nil hm w hs)

/-! ### Marks in the text -/

theorem Apart.replaceChars_suffix {p : List Char} (h : Apart v m) (hp : p <:+ m)
    (k y : List Char) : replaceChars v k (p ++ y) = p ++ replaceChars v k y := by
  induction p with
  | nil => rfl
  | cons c r ih =>
    have hr : r <:+ m := (List.suffix_cons c r).trans hp
    have hnot : ¬ v <+: c :: (r ++ y) := h.not_prefix_append (List.cons_ne_nil c r) hp y
    rw [List.cons_append, replaceChars_kept hnot, ih hr, List.cons_append]

/-- A word is replaced before and after a mark, and never across it. -/
theorem Apart.replaceChars_append (h : Apart v m) (k x y : List Char) :
    replaceChars v k (x ++ (m ++ y)) = replaceChars v k x ++ (m ++ replaceChars v k y) := by
  induction x using replace_induction h.ne_nil with
  | nil =>
    rw [List.nil_append, h.replaceChars_suffix List.suffix_rfl, replaceChars_nil, List.nil_append]
  | found x ih =>
    rw [List.append_assoc, replaceChars_found h.ne_nil, replaceChars_found h.ne_nil, ih,
      List.append_assoc]
  | kept c x hc ih =>
    have hnot : ¬ v <+: c :: (x ++ (m ++ y)) := fun hv => hc (h.prefix_of_prefix_append hv)
    rw [List.cons_append, replaceChars_kept hnot, replaceChars_kept hc, ih, List.cons_append]

theorem replaceEach_around (hmark : ∀ v ∈ words, Apart v m) (x y : List Char) :
    replaceEach m words (x ++ (m ++ y)) =
      replaceEach m words x ++ (m ++ replaceEach m words y) := by
  induction words generalizing x y with
  | nil => rfl
  | cons w rest ih =>
    have hw : Apart w m := hmark w List.mem_cons_self
    have hrest : ∀ v ∈ rest, Apart v m := fun v hv => hmark v (List.mem_cons_of_mem w hv)
    rw [replaceEach_cons, hw.replaceChars_append, ih hrest, replaceEach_cons, replaceEach_cons]

theorem replaceEach_mark (hmark : ∀ v ∈ words, Apart v m) : replaceEach m words m = m :=
  replaceEach_eq_self fun v hv => (hmark v hv).not_inside

theorem replaceEach_whole (hv : v ≠ []) (hmark : ∀ u ∈ words, Apart u m) :
    replaceEach m (v :: words) v = m := by
  have hfound := replaceChars_found hv m []
  rw [List.append_nil, replaceChars_nil, List.append_nil] at hfound
  rw [replaceEach_cons, hfound, replaceEach_mark hmark]

/-! ### Words that do not overlap one another -/

theorem Apart.replaceChars_word (h : Apart w v) (hv : Apart v m) (s : List Char) :
    replaceChars v m (replaceChars w m (v ++ s)) = m ++ replaceChars v m (replaceChars w m s) := by
  rw [h.replaceChars_suffix List.suffix_rfl, replaceChars_found hv.ne_nil]

/-- Two words that do not overlap are replaced in either order. -/
theorem Apart.replaceChars_comm (h : Apart v w) (hv : Apart v m) (hw : Apart w m)
    (s : List Char) :
    replaceChars w m (replaceChars v m s) = replaceChars v m (replaceChars w m s) := by
  have hne : ∀ u, u = v ∨ u = w → u ≠ [] := by
    rintro u (rfl | rfl)
    · exact hv.ne_nil
    · exact hw.ne_nil
  induction s using scan_induction hne with
  | nil => simp only [replaceChars_nil]
  | found u s hu ih =>
    rcases hu with rfl | rfl
    · rw [h.symm.replaceChars_word hv, replaceChars_found hv.ne_nil,
        hw.replaceChars_suffix List.suffix_rfl, ih]
    · rw [h.replaceChars_word hw, replaceChars_found hw.ne_nil,
        hv.replaceChars_suffix List.suffix_rfl, ih]
  | kept c s hnone ih =>
    -- neither word starts here, before or after the other one is replaced
    have hvs : ¬ v <+: c :: s := hnone v (Or.inl rfl)
    have hws : ¬ w <+: c :: s := hnone w (Or.inr rfl)
    have hw' : ¬ w <+: c :: replaceChars v m s := by
      rw [← replaceChars_kept hvs]
      exact hw.not_prefix_replaceChars hws
    have hv' : ¬ v <+: c :: replaceChars w m s := by
      rw [← replaceChars_kept hws]
      exact hv.not_prefix_replaceChars hvs
    rw [replaceChars_kept hvs, replaceChars_kept hw', replaceChars_kept hws,
      replaceChars_kept hv', ih]

end

def MutuallyApart (words : List (List Char)) : Prop :=
  ∀ v ∈ words, ∀ w ∈ words, v ≠ w → Apart v w

section
variable {m : List Char} {words others : List (List Char)}

theorem replaceEach_perm (hmark : ∀ v ∈ words, Apart v m) (hpair : MutuallyApart words)
    (h : words.Perm others) (s : List Char) :
    replaceEach m words s = replaceEach m others s := by
  refine h.foldl_eq' (fun v hv w hw t => ?_) s
  by_cases heq : v = w
  · rw [heq]
  · exact (hpair v hv w hw heq).replaceChars_comm (hmark v hv) (hmark w hw) t

/-- What replacing words that do not overlap makes of a text depends on nothing but which words
they are. -/
theorem replaceEach_congr (hmark : ∀ v ∈ words, Apart v m) (hpair : MutuallyApart words)
    (h : ∀ v, v ∈ words ↔ v ∈ others) (s : List Char) :
    replaceEach m words s = replaceEach m others s := by
  have hboth : ∀ v, v ∈ words ++ others → v ∈ words := by
    intro v hv
    rcases List.mem_append.mp hv with hv | hv
    · exact hv
    · exact (h v).mpr hv
  have hperm : replaceEach m (words ++ others) s = replaceEach m (others ++ words) s := by
    apply replaceEach_perm
    · exact fun v hv => hmark v (hboth v hv)
    · exact fun v hv w hw => hpair v (hboth v hv) w (hboth w hw)
    · exact List.perm_append_comm
  -- the words of the other list are gone already, so replacing them too changes nothing
  have hgone : ∀ v ∈ others, ¬ v <:+: replaceEach m words s := by
    intro v hv
    have hw : v ∈ words := (h v).mpr hv
    exact (hmark v hw).not_infix_replaceEach (Or.inl hw)
  have hgone' : ∀ v ∈ words, ¬ v <:+: replaceEach m others s := by
    intro v hv
    exact (hmark v hv).not_infix_replaceEach (Or.inl ((h v).mp hv))
  calc replaceEach m words s
      = replaceEach m others (replaceEach m words s) := (replaceEach_eq_self hgone).symm
    _ = replaceEach m (words ++ others) s := (replaceEach_append ..).symm
    _ = replaceEach m (others ++ words) s := hperm
    _ = replaceEach m words (replaceEach m others s) := replaceEach_append ..
    _ = replaceEach m others s := replaceEach_eq_self hgone'

end

/-! ### Words that overlap -/

section
variable {m v w : List Char} {words rest rest' : List (List Char)}

theorem replaceEach_ne_mark (hv : Apart v m) (hrest : ∀ u ∈ rest, Apart u m) (hin : v <:+: w)
    (hne : v ≠ w) : replaceEach m (v :: rest) w ≠ m := by
  have hm : m ≠ [] := hv.symm.ne_nil
  obtain ⟨x, y, hxy, hreplaced⟩ := replaceChars_first hv.ne_nil hin m
  rw [replaceEach_cons, hreplaced, replaceEach_around hrest]
  intro heq
  have hlen : (replaceEach m rest x).length +
      (m.length + (replaceEach m rest (replaceChars v m y)).length) = m.length := by
    rw [← List.length_append, ← List.length_append, heq]
  have hx : x = [] := by
    by_contra hx
    have hpos := List.length_pos_iff.mpr (replaceEach_ne_nil hm rest hx)
    omega
  have hy : y = [] := by
    by_contra hy
    have hpos := List.length_pos_iff.mpr
      (replaceEach_ne_nil hm rest (replaceChars_ne_nil hm v hy))
    omega
  rw [hx, hy, List.nil_append, List.append_nil] at hxy
  exact hne hxy.symm

/-- No word shorter than `m` both starts and ends it. -/
def Borderless (m : List Char) : Prop := ∀ q ∈ m.inits, q ≠ [] → q ≠ m → ¬ q <:+ m

instance (m : List Char) : Decidable (Borderless m) :=
  inferInstanceAs (Decidable (∀ q ∈ m.inits, q ≠ [] → q ≠ m → ¬ q <:+ m))

theorem Borderless.append_ne (hm : Borderless m) {x : List Char} (hx : x ≠ []) (hmx : ¬ m <+: x)
    (y z : List Char) : m ++ y ≠ x ++ (m ++ z) := by
  intro heq
  have hxm : x <+: m := by
    rcases List.prefix_or_prefix_of_prefix (List.prefix_append m y)
      (heq ▸ List.prefix_append x (m ++ z)) with hmx' | hxm
    · exact absurd hmx' hmx
    · exact hxm
  obtain ⟨q, hq⟩ := hxm
  have htail : q ++ y = m ++ z := by
    rw [← hq, List.append_assoc, List.append_cancel_left_eq] at heq
    rw [heq, hq]
  have hlen : x.length + q.length = m.length := by rw [← List.length_append, hq]
  have hxpos : 0 < x.length := List.length_pos_iff.mpr hx
  have hqm : q <+: m := by
    apply List.prefix_of_prefix_length_le (List.prefix_append q y)
    · rw [htail]
      exact List.prefix_append m z
    · omega
  have hqnil : q ≠ [] := by
    rintro rfl
    rw [List.append_nil] at hq
    exact hmx (hq ▸ List.prefix_rfl)
  have hqne : q ≠ m := by
    intro hqm
    rw [hqm] at hlen
    omega
  exact hm q ((List.mem_inits q m).mpr hqm) hqnil hqne ⟨x, hq⟩

/-- Of two words that share an end and a start, the one that is replaced first takes the shared
part, so the text in which they overlap shows which one that was. -/
theorem replaceEach_ne_of_overlap (hm : Borderless m) {a o b : List Char} (hv : v = a ++ o)
    (hw : w = o ++ b) (hvm : Apart v m) (hwm : Apart w m) (hrest : ∀ u ∈ rest, Apart u m)
    (hrest' : ∀ u ∈ rest', Apart u m) (hfree : ∀ u ∈ rest', ¬ u <:+: a) (hvw : ¬ v <:+: w)
    (hwv : ¬ w <:+: v) :
    replaceEach m (v :: rest) (a ++ w) ≠ replaceEach m (w :: rest') (a ++ w) := by
  have htext : a ++ w = v ++ b := by rw [hv, hw, List.append_assoc]
  -- with `v` first the text starts with a mark, with `w` first a part of `a` stands before it
  have hfirst : ∃ y, replaceEach m (v :: rest) (a ++ w) = m ++ y := by
    have haround := replaceEach_around hrest [] (replaceChars v m b)
    have hnil : replaceEach m rest [] = [] :=
      replaceEach_eq_self fun u hu hin => (hrest u hu).ne_nil (List.infix_nil.mp hin)
    rw [List.nil_append, hnil, List.nil_append] at haround
    rw [replaceEach_cons, htext, replaceChars_found hvm.ne_nil]
    exact ⟨_, haround⟩
  obtain ⟨x, y, hxy, hreplaced⟩ := replaceChars_first hwm.ne_nil (List.suffix_append a w).isInfix m
  have hlen : a.length + w.length = x.length + (w.length + y.length) := by
    rw [← List.length_append, hxy, List.length_append, List.length_append]
  have hxa : x <+: a := by
    have hxt : x <+: a ++ w := by
      rw [hxy]
      exact List.prefix_append _ _
    exact List.prefix_of_prefix_length_le hxt (List.prefix_append a w) (by omega)
  have hx : x ≠ [] := by
    rintro rfl
    rw [List.nil_append, htext] at hxy
    rcases List.prefix_or_prefix_of_prefix (List.prefix_append v b)
      (hxy ▸ List.prefix_append w y) with h | h
    · exact hvw h.isInfix
    · exact hwv h.isInfix
  have hmx : ¬ m <+: x := by
    intro hmx
    have hav : a <+: v := hv ▸ List.prefix_append a o
    exact hvm.not_around ((hmx.trans hxa).trans hav).isInfix
  have hkept : replaceEach m rest' x = x :=
    replaceEach_eq_self fun u hu hin => hfree u hu (hin.trans hxa.isInfix)
  obtain ⟨z, hz⟩ := hfirst
  rw [hz, replaceEach_cons, hreplaced, replaceEach_around hrest', hkept]
  exact hm.append_ne hx hmx z _

theorem exists_replaceEach_ne (hm : Borderless m) (hmark : ∀ v ∈ words, Apart v m)
    (h : ¬ MutuallyApart words) :
    ∃ l l' s, l.Perm words ∧ l'.Perm words ∧ replaceEach m l s ≠ replaceEach m l' s := by
  have hfront : ∀ v ∈ words, (v :: words.erase v).Perm words :=
    fun v hv => (List.perm_cons_erase hv).symm
  have herase : ∀ v, ∀ u ∈ words.erase v, Apart u m :=
    fun v u hu => hmark u (List.mem_of_mem_erase hu)
  by_cases hin : ∃ v ∈ words, ∃ w ∈ words, v ≠ w ∧ v <:+: w
  · obtain ⟨v, hv, w, hw, hne, hvw⟩ := hin
    refine ⟨_, _, w, hfront v hv, hfront w hw, ?_⟩
    rw [replaceEach_whole (hmark w hw).ne_nil (herase w)]
    exact replaceEach_ne_mark (hmark v hv) (herase v) hvw hne
  · have hnot : ∀ v ∈ words, ∀ w ∈ words, v ≠ w → ¬ v <:+: w :=
      fun v hv w hw hne hvw => hin ⟨v, hv, w, hw, hne, hvw⟩
    have hoverlap : ∃ v ∈ words, ∃ w ∈ words, v ≠ w ∧ ∃ o, o ≠ [] ∧ o <:+ v ∧ o <+: w := by
      by_contra hnone
      refine h fun v hv w hw hne => ?_
      exact
        { front := fun p hp hpv hpw => hnone ⟨w, hw, v, hv, hne.symm, p, hp, hpw, hpv⟩
          back := fun q hq hqv hqw => hnone ⟨v, hv, w, hw, hne, q, hq, hqv, hqw⟩
          not_inside := hnot v hv w hw hne
          not_around := hnot w hw v hv hne.symm }
    obtain ⟨v, hv, w, hw, hne, o, ho, ⟨a, ha⟩, ⟨b, hb⟩⟩ := hoverlap
    refine ⟨_, _, a ++ w, hfront v hv, hfront w hw, ?_⟩
    -- no word is in the part of `v` before the overlap, which is shorter than `v`
    have hfree : ∀ u ∈ words.erase w, ¬ u <:+: a := by
      intro u hu hua
      have huv : u <:+: v := hua.trans (ha ▸ (List.prefix_append a o).isInfix)
      have heq : u = v := by
        by_contra hne'
        exact hnot u (List.mem_of_mem_erase hu) v hv hne' huv
      have hle := hua.length_le
      have hopos : 0 < o.length := List.length_pos_iff.mpr ho
      have hlen : a.length + o.length = v.length := by rw [← List.length_append, ha]
      rw [heq] at hle
      omega
    exact replaceEach_ne_of_overlap hm ha.symm hb.symm (hmark v hv) (hmark w hw) (herase v)
      (herase w) hfree (hnot v hv w hw hne) (hnot w hw v hv hne.symm)

end

end PipelineRunner.Text
