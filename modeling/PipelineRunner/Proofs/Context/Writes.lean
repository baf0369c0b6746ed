import PipelineRunner.Context
import PipelineRunner.Proofs.Dict

/-!
# The last write to a name

Every operation on a context is a sequence of writes, each of a plain value or of a secret under one
name. A name stands for what the last write to it was of, and the names of secrets are those that
some write made secret. Contexts that are forked off one another follow each its own operations, and
those that it inherited.
-/

namespace PipelineRunner.Context

/-! ### Writes -/

inductive Held
  | plain (value : String)
  | secret (value : String)
  deriving DecidableEq, Repr

namespace Held

def value : Held → String
  | plain v | secret v => v

def plain? : Held → Option String
  | plain v => some v
  | secret _ => none

def secret? : Held → Option String
  | plain _ => none
  | secret v => some v

theorem plain?_eq_some_iff {h : Held} {v : String} : h.plain? = some v ↔ h = plain v := by
  cases h <;> simp [plain?]

theorem secret?_eq_some_iff {h : Held} {v : String} : h.secret? = some v ↔ h = secret v := by
  cases h <;> simp [secret?]

end Held

abbrev Write := String × Held

def write (c : Context) (w : Write) : Context :=
  match w.2 with
  | .plain v => c.setVariable w.1 v
  | .secret v => c.setSecret w.1 v

def ofWrites (ws : List Write) : Context := ws.foldl write empty

def lastWrite? (ws : List Write) (k : String) : Option Held :=
  (ws.reverse.find? fun w => w.1 == k).map (·.2)

section
variable {ws : List Write} {k : String}

theorem lastWrite?_append (ws later : List Write) (k : String) :
    lastWrite? (ws ++ later) k = (lastWrite? later k).or (lastWrite? ws k) := by
  unfold lastWrite?
  rw [List.reverse_append, List.find?_append, Option.map_or]

theorem lastWrite?_singleton (w : Write) (k : String) :
    lastWrite? [w] k = if w.1 = k then some w.2 else none := by
  by_cases h : w.1 = k <;> simp [lastWrite?, h]

theorem lastWrite?_cons (w : Write) (ws : List Write) (k : String) :
    lastWrite? (w :: ws) k = (lastWrite? ws k).or (if w.1 = k then some w.2 else none) := by
  rw [← List.singleton_append, lastWrite?_append, lastWrite?_singleton]

theorem lastWrite?_concat (ws : List Write) (w : Write) (k : String) :
    lastWrite? (ws ++ [w]) k = if w.1 = k then some w.2 else lastWrite? ws k := by
  rw [lastWrite?_append, lastWrite?_singleton]
  split <;> rfl

theorem mem_of_lastWrite? {h : Held} (hlast : lastWrite? ws k = some h) : (k, h) ∈ ws := by
  obtain ⟨w, hw, rfl⟩ := Option.map_eq_some_iff.mp hlast
  have hk : w.1 = k := by simpa using List.find?_some hw
  have hmem : w ∈ ws := List.mem_reverse.mp (List.mem_of_find?_eq_some hw)
  rwa [← hk]

end

/-! ### The three collections after some writes -/

/-- The plain values, the secrets and the names that a context has after some writes. A plain write
erases the secret and keeps the name, a secret write erases the plain value. -/
structure Tracks (c : Context) (ws : List Write) : Prop where
  plain : ∀ k, c.plain.get? k = (lastWrite? ws k).bind Held.plain?
  secrets : ∀ k, c.secrets.get? k = (lastWrite? ws k).bind Held.secret?
  names : ∀ k, c.secretNames.contains k = true ↔ ∃ v, (k, .secret v) ∈ ws

theorem tracks_empty : empty.Tracks [] :=
  ⟨fun _ => rfl, fun _ => rfl, fun _ => by simp [empty]⟩

theorem Tracks.write {c : Context} {ws : List Write} (hc : c.Tracks ws) (w : Write) :
    (c.write w).Tracks (ws ++ [w]) := by
  obtain ⟨key, held⟩ := w
  cases held with
  | plain v =>
    refine ⟨fun k => ?_, fun k => ?_, fun k => ?_⟩
    · show (c.plain.insert key v).get? k = _
      rw [Dict.get?_insert, lastWrite?_concat, hc.plain]
      by_cases hk : k = key
      · simp [hk, Held.plain?]
      · simp [hk, Ne.symm hk]
    · show (c.secrets.erase key).get? k = _
      rw [Dict.get?_erase, lastWrite?_concat, hc.secrets]
      by_cases hk : k = key
      · simp [hk, Held.secret?]
      · simp [hk, Ne.symm hk]
    · show c.secretNames.contains k = true ↔ _
      rw [hc.names]
      simp
  | secret v =>
    refine ⟨fun k => ?_, fun k => ?_, fun k => ?_⟩
    · show (c.plain.erase key).get? k = _
      rw [Dict.get?_erase, lastWrite?_concat, hc.plain]
      by_cases hk : k = key
      · simp [hk, Held.plain?]
      · simp [hk, Ne.symm hk]
    · show (c.secrets.insert key v).get? k = _
      rw [Dict.get?_insert, lastWrite?_concat, hc.secrets]
      by_cases hk : k = key
      · simp [hk, Held.secret?]
      · simp [hk, Ne.symm hk]
    · show (c.secretNames.insert key ()).contains k = true ↔ _
      rw [Dict.contains_insert, Bool.or_eq_true, beq_iff_eq, hc.names]
      simp only [List.mem_append, List.mem_singleton, Prod.mk.injEq, Held.secret.injEq, exists_or]
      grind

theorem Tracks.foldl_write {c : Context} {ws : List Write} (hc : c.Tracks ws)
    (later : List Write) : (later.foldl Context.write c).Tracks (ws ++ later) := by
  induction later generalizing c ws with
  | nil => rwa [List.append_nil]
  | cons w rest ih =>
    have hrest := ih (hc.write w)
    rwa [List.append_assoc] at hrest

theorem tracks_ofWrites (ws : List Write) : (ofWrites ws).Tracks ws :=
  tracks_empty.foldl_write ws

/-! ### Answers -/

/-- A context answers every question about a name from the last write to it. -/
structure Follows (c : Context) (ws : List Write) : Prop where
  lookup_eq : ∀ k, c.lookup k = (lastWrite? ws k).map Held.value
  contains_iff : ∀ k, c.contains k = true ↔ ∃ v, c.lookup k = some v
  isSecret_iff : ∀ k, c.isSecret k = true ↔ ∃ v, lastWrite? ws k = some (.secret v)
  plain?_iff : ∀ k v, c.plain? k = some v ↔ lastWrite? ws k = some (.plain v)
  disjoint : ∀ k, ¬ (k ∈ c.plain.keys ∧ k ∈ c.secrets.keys)
  mem_secretNames : ∀ k, k ∈ c.secretNames.keys ↔ ∃ v, (k, .secret v) ∈ ws

theorem Tracks.follows {c : Context} {ws : List Write} (hc : c.Tracks ws) : c.Follows ws where
  lookup_eq k := by
    unfold lookup plain?
    rw [hc.secrets, hc.plain]
    cases lastWrite? ws k with
    | none => rfl
    | some h => cases h <;> rfl
  contains_iff k := by
    unfold contains lookup plain? Dict.contains
    cases c.secrets.get? k <;> cases c.plain.get? k <;> simp
  isSecret_iff k := by
    rw [isSecret, Dict.contains_iff_exists]
    simp only [hc.secrets, Option.bind_eq_some_iff, Held.secret?_eq_some_iff]
    simp
  plain?_iff k v := by
    rw [plain?, hc.plain, Option.bind_eq_some_iff]
    simp only [Held.plain?_eq_some_iff]
    simp
  disjoint k := by
    rw [Dict.mem_keys_iff, Dict.mem_keys_iff]
    unfold Dict.contains
    rw [hc.plain, hc.secrets]
    cases lastWrite? ws k with
    | none => simp
    | some h => cases h <;> simp [Held.plain?, Held.secret?]
  mem_secretNames k := by rw [Dict.mem_keys_iff, hc.names]

theorem follows_ofWrites (ws : List Write) : (ofWrites ws).Follows ws :=
  (tracks_ofWrites ws).follows

/-! ### Operations -/

inductive Operation
  | setVariable (key value : String)
  | setSecret (key value : String)
  | withEvent (event : TriggerEvent)
  | withOutput (key value : String)

def Operation.run (c : Context) : Operation → Context
  | setVariable key value => c.setVariable key value
  | setSecret key value => c.setSecret key value
  | withEvent event => c.withEvent event
  | withOutput key value => c.withOutput key value

def eventWrites (event : TriggerEvent) : List Write :=
  match event.branch with
  | none => []
  | some b => [("branch", .plain b), ("branch_slug", .plain (branchSlug b))]

theorem withEvent_eq (c : Context) (event : TriggerEvent) :
    c.withEvent event = (eventWrites event).foldl write c := by
  unfold withEvent eventWrites
  cases event.branch with
  | none => rfl
  | some b => rfl

def Operation.writes : Operation → List Write
  | setVariable key value => [(key, .plain value)]
  | setSecret key value => [(key, .secret value)]
  | withEvent event => eventWrites event
  | withOutput key value => [(key, .plain value)]

def replay (ops : List Operation) : Context := ops.foldl Operation.run empty

theorem Operation.run_eq (c : Context) (op : Operation) : op.run c = op.writes.foldl write c := by
  cases op with
  | setVariable key value => rfl
  | setSecret key value => rfl
  | withEvent event => exact withEvent_eq c event
  | withOutput key value => rfl

theorem replay_eq (ops : List Operation) : replay ops = ofWrites (ops.flatMap Operation.writes) := by
  unfold replay ofWrites
  rw [List.foldl_flatMap]
  congr 1
  funext c op
  exact op.run_eq c

theorem replay_concat (ops : List Operation) (op : Operation) :
    replay (ops ++ [op]) = op.run (replay ops) := by
  simp only [replay, List.foldl_append, List.foldl_cons, List.foldl_nil]

theorem replay_follows (ops : List Operation) :
    (replay ops).Follows (ops.flatMap Operation.writes) := by
  rw [replay_eq]
  exact follows_ofWrites _

/-! ### Several contexts -/

/-- What is done to contexts that are held side by side: one is changed in place, or a new one is
forked off it with an output. -/
inductive Action
  | change (slot : Nat) (op : Operation)
  | fork (slot : Nat) (key value : String)

namespace Action

def run (held : List Context) : Action → List Context
  | change i op => held.modify i fun c => op.run c
  | fork i key value => held ++ held[i]?.toList.map fun c => c.withOutput key value

/-- The operations that led to each context. A fork starts with those of its origin. -/
def record (histories : List (List Operation)) : Action → List (List Operation)
  | change i op => histories.modify i fun ops => ops ++ [op]
  | fork i key value =>
    histories ++ histories[i]?.toList.map fun ops => ops ++ [.withOutput key value]

def Changes (slot : Nat) : Action → Prop
  | change i _ => i = slot
  | fork .. => False

theorem run_map_replay (histories : List (List Operation)) (a : Action) :
    a.run (histories.map replay) = (a.record histories).map replay := by
  cases a with
  | change i op =>
    apply List.ext_getElem?
    intro j
    simp only [run, record, List.getElem?_modify, List.getElem?_map]
    cases histories[j]? with
    | none => rfl
    | some ops =>
      by_cases hj : i = j
      · simp [hj, replay_concat]
      · simp [hj]
  | fork i key value =>
    simp only [run, record, List.map_append, List.getElem?_map]
    cases histories[i]? with
    | none => rfl
    | some ops =>
      simp only [Option.map_some, Option.toList_some, List.map_cons, List.map_nil, replay_concat]
      rfl

/-- An action leaves every context alone but the one that it changes. -/
theorem getElem?_run {a : Action} {held : List Context} {slot : Nat} (hslot : slot < held.length)
    (ha : ¬ a.Changes slot) : (a.run held)[slot]? = held[slot]? := by
  cases a with
  | change i op =>
    have hi : i ≠ slot := ha
    simp [run, hi]
  | fork i key value => exact List.getElem?_append_left hslot

theorem length_le_run (held : List Context) (a : Action) :
    held.length ≤ (a.run held).length := by
  cases a with
  | change i op => simp [run]
  | fork i key value => simp [run]

end Action

def afterActions (acts : List Action) : List Context := acts.foldl Action.run [empty]

def histories (acts : List Action) : List (List Operation) := acts.foldl Action.record [[]]

theorem afterActions_eq (acts : List Action) : afterActions acts = (histories acts).map replay := by
  have h : ∀ hs : List (List Operation),
      acts.foldl Action.run (hs.map replay) = (acts.foldl Action.record hs).map replay := by
    induction acts with
    | nil => exact fun _ => rfl
    | cons a rest ih =>
      intro hs
      rw [List.foldl_cons, List.foldl_cons, Action.run_map_replay, ih]
  exact h [[]]

theorem getElem?_foldl_run {later : List Action} {held : List Context} {slot : Nat}
    (hslot : slot < held.length) (hlater : ∀ a ∈ later, ¬ a.Changes slot) :
    (later.foldl Action.run held)[slot]? = held[slot]? := by
  induction later generalizing held with
  | nil => rfl
  | cons a rest ih =>
    have hlength := Action.length_le_run held a
    rw [List.foldl_cons, ih (by omega) fun b hb => hlater b (List.mem_cons_of_mem a hb)]
    exact Action.getElem?_run hslot (hlater a List.mem_cons_self)

/-- After any operations a context answers from the last write to each name, and it never loses the
name of a secret. Of contexts that are changed and forked in any order, each is the outcome of its
own operations, and stays as it is while only others are changed. -/
theorem last_write_wins :
    (∀ ops, (replay ops).Follows (ops.flatMap Operation.writes)) ∧
    (∀ ops later k, k ∈ (replay ops).secretNames.keys →
      k ∈ (replay (ops ++ later)).secretNames.keys) ∧
    (∀ acts, afterActions acts = (histories acts).map replay) ∧
    ∀ acts later slot, slot < (afterActions acts).length → (∀ a ∈ later, ¬ a.Changes slot) →
      (afterActions (acts ++ later))[slot]? = (afterActions acts)[slot]? := by
  refine ⟨replay_follows, fun ops later k hk => ?_, afterActions_eq,
    fun acts later slot hslot hlater => ?_⟩
  · obtain ⟨v, hv⟩ := ((replay_follows ops).mem_secretNames k).mp hk
    refine ((replay_follows (ops ++ later)).mem_secretNames k).mpr ⟨v, ?_⟩
    rw [List.flatMap_append]
    exact List.mem_append_left _ hv
  · have hsplit : afterActions (acts ++ later) = later.foldl Action.run (afterActions acts) :=
      List.foldl_append
    rw [hsplit]
    exact getElem?_foldl_run hslot hlater

end PipelineRunner.Context
