import EscrowFlow.Foundations.JsonPaths
import EscrowFlow.Sync.Codec

/-! # The cursor state

The patches of the events as overlays: each section of the cursor state has its leaves at one depth,
so what a sequence of patches leaves at a property is what the last of them wrote there. A rebuild
merges patches that live ingestion leaves out.
-/

namespace EscrowFlow.Sync
open EscrowFlow.Foundations EscrowFlow.Registry
set_option autoImplicit false

/-! ## The shape of a patch -/

/-- The depth of the leaves of a section. -/
def sectionDepth : Key → ℕ
  | .field .pauseState | .field .arbitratorThreshold => 2
  | .field .allowedTokens | .field .tokenReviews | .field .alternativeRecipients
  | .field .emergencyResolutions => 3
  | _ => 0

theorem literal_leveled (l : List (Field × Leaf)) : (literal l).Leveled fun _ => 1 := by
  induction l with
  | nil => exact .nil
  | cons x l ih => exact .cons_leaf rfl ih

theorem nest_leveled {depth : Key → ℕ} {n : ℕ} {k : Key} {r : JsonObject}
    (h : r.Leveled fun _ => n) (hn : 0 < n) (hk : depth k = n + 1) : (nest k r).Leveled depth :=
  .cons_object h hn hk .nil

theorem clearedLegs_leveled (p i : ℕ) : (clearedLegs p i).Leveled fun _ => 2 :=
  .cons_object (literal_leveled _) (by decide) rfl
    (.cons_object (literal_leveled _) (by decide) rfl .nil)

theorem reduceProjectionState_leveled (log : SupportedEventLog) :
    (reduceProjectionState log).Leveled sectionDepth := by
  have hflat : ∀ (section_ : Field) (l : List (Field × Leaf)), sectionDepth (.field section_) = 2 →
      (nest (.field section_) (literal l)).Leveled sectionDepth := fun _ l hdepth =>
    nest_leveled (literal_leveled l) (by decide) hdepth
  have hkeyed : ∀ (section_ : Field) (k : Key) (l : List (Field × Leaf)),
      sectionDepth (.field section_) = 3 →
      (nest (.field section_) (nest k (literal l))).Leveled sectionDepth := fun _ k l hdepth =>
    nest_leveled (nest_leveled (literal_leveled l) (by decide) rfl) (by decide) hdepth
  obtain ⟨name, _, _, _, _, args⟩ := log
  cases name
  case Paused => exact hflat _ _ rfl
  case Unpaused => exact hflat _ _ rfl
  case ArbitratorThresholdUpdated => exact hflat _ _ rfl
  case DisputeResolved => exact nest_leveled (clearedLegs_leveled _ _) (by decide) rfl
  case EmergencyDisputeResolved =>
    exact .cons_object (nest_leveled (literal_leveled _) (by decide) rfl) (by decide) rfl
      (.cons_object (clearedLegs_leveled _ _) (by decide) rfl .nil)
  case AllowedTokenUpdated => exact hkeyed _ _ _ rfl
  case TokenReviewAttested => exact hkeyed _ _ _ rfl
  case AlternativeRecipientSet => exact hkeyed _ _ _ rfl
  case AlternativeRecipientExecuted => exact hkeyed _ _ _ rfl
  case EmergencyDisputeResolutionProposed => exact hkeyed _ _ _ rfl
  case EmergencyDisputeResolutionCancelled => exact hkeyed _ _ _ rfl
  all_goals exact .nil

theorem clearedLegs_uniqueKeys (p i : ℕ) : (clearedLegs p i).uniqueKeys = true := by
  unfold clearedLegs
  simp only [Object.ofList, Object.uniqueKeys, Json.uniqueKeys, Object.get?_cons, Object.get?_nil,
    Key.leg.injEq, Bool.false_eq_true, and_false, if_false]
  rfl

theorem reduceProjectionState_uniqueKeys (log : SupportedEventLog) :
    (reduceProjectionState log).uniqueKeys = true := by
  have hresolved := fun p i => clearedLegs_uniqueKeys p i
  obtain ⟨name, _, _, _, _, args⟩ := log
  cases name
  case DisputeResolved =>
    show (nest _ (clearedLegs _ _)).uniqueKeys = true
    unfold nest Object.uniqueKeys Json.uniqueKeys
    rw [hresolved]
    rfl
  case EmergencyDisputeResolved =>
    show Object.uniqueKeys (.cons _ _ (.cons _ (.object (clearedLegs _ _)) .nil)) = true
    unfold Object.uniqueKeys Object.uniqueKeys Json.uniqueKeys
    rw [hresolved]
    rfl
  all_goals rfl

/-! ## The two folds -/

/-- Live ingestion keeps no patch of these events. -/
def EventName.resolves : EventName → Bool
  | .DisputeResolved | .EmergencyDisputeResolved => true
  | _ => false

/-- A successful projection of the log returned the patch. -/
def Returns (log : SupportedEventLog) (patch : JsonObject) : Prop :=
  ∃ blockDate c s projectId s',
    applyEventProjection log blockDate c s = .ok ((projectId, patch), s')

def liveState (start : JsonObject) (patches : List JsonObject) : JsonObject :=
  patches.foldl mergeProjectionState start

def rebuiltState (start : JsonObject) (logs : List SupportedEventLog) : JsonObject :=
  logs.foldl (fun state log => mergeProjectionState state (reduceProjectionState log)) start

/-- What the start state and the events that resolve nothing leave at a path. -/
def lastWritten (start : JsonObject) (logs : List SupportedEventLog) (path : List Key) :
    Option (Node Leaf) :=
  logs.foldl (fun x log =>
    if log.name.resolves = true then x else ((reduceProjectionState log).at? path).or x)
    (start.at? path)

/-- Every property that a resolution clears is written again by a later event, or was last written
with the value that the resolution gives it. -/
def ClearsNothing (start : JsonObject) (logs : List SupportedEventLog) : Prop :=
  ∀ before log after, logs = before ++ log :: after → log.name.resolves = true →
    ∀ path v, (reduceProjectionState log).at? path = some (.leaf v) →
      (∃ later ∈ after, later.name.resolves = false ∧
        ∃ w, (reduceProjectionState later).at? path = some (.leaf w)) ∨
      lastWritten start before path = some (.leaf v)

theorem returns_statePatch {log : SupportedEventLog} {patch : JsonObject} (h : Returns log patch) :
    patch = statePatch log := by
  obtain ⟨blockDate, c, s, projectId, s', hrun⟩ := h
  exact Tx.wp_of_ok (Q := fun r _ => r.2 = statePatch log) applyEventProjection_patch hrun

theorem statePatch_eq (log : SupportedEventLog) : statePatch log =
    if log.name.resolves = true then .nil else reduceProjectionState log := by
  obtain ⟨name, _, _, _, _, _⟩ := log
  cases name <;> rfl

theorem liveState_eq {start : JsonObject} {logs : List SupportedEventLog}
    {patches : List JsonObject} (h : List.Forall₂ Returns logs patches) :
    liveState start patches =
      logs.foldl (fun state log => mergeProjectionState state (statePatch log)) start := by
  unfold liveState
  induction h generalizing start with
  | nil => rfl
  | cons hreturns _ ih =>
    rw [List.foldl_cons, List.foldl_cons, returns_statePatch hreturns]
    exact ih

section Fold
variable {start : JsonObject} {logs : List SupportedEventLog} {path : List Key} {v : Leaf}

/-- A path that some patch has a leaf at. -/
def LeafPath (path : List Key) : Prop :=
  ∃ log v, (reduceProjectionState log).at? path = some (.leaf v)

theorem statePatch_leveled (log : SupportedEventLog) : (statePatch log).Leveled sectionDepth := by
  rw [statePatch_eq]
  split
  · exact .nil
  · exact reduceProjectionState_leveled log

theorem statePatch_uniqueKeys (log : SupportedEventLog) : (statePatch log).uniqueKeys = true := by
  rw [statePatch_eq]
  split
  · rfl
  · exact reduceProjectionState_uniqueKeys log

/-- At such a path a fold of patches holds what was written last. -/
theorem at?_fold {patch : SupportedEventLog → JsonObject}
    (hlevel : ∀ log, (patch log).Leveled sectionDepth) (hkeys : ∀ log, (patch log).uniqueKeys = true)
    (hpath : LeafPath path) :
    (logs.foldl (fun state log => mergeProjectionState state (patch log)) start).at? path =
      logs.foldl (fun x log => ((patch log).at? path).or x) (start.at? path) := by
  obtain ⟨log, v, hv⟩ := hpath
  have hfold := Object.at?_foldl_deepMerge (s := start)
    (fun p (hp : p ∈ logs.map patch) => by
      obtain ⟨log', -, rfl⟩ := List.mem_map.mp hp
      exact hlevel log')
    (fun p hp => by
      obtain ⟨log', -, rfl⟩ := List.mem_map.mp hp
      exact hkeys log')
    (reduceProjectionState_leveled log) hv
  rw [List.foldl_map, List.foldl_map] at hfold
  exact hfold

theorem LeafPath.at?_nil (hpath : LeafPath path) : (Object.nil : JsonObject).at? path = none := by
  obtain ⟨log, v, hv⟩ := hpath
  cases path with
  | nil =>
    rw [Object.at?_nil] at hv
    cases hv
  | cons k path => exact Object.at?_cons_none (Object.get?_nil k)

theorem at?_live {patches : List JsonObject} (h : List.Forall₂ Returns logs patches)
    (hpath : LeafPath path) : (liveState start patches).at? path = lastWritten start logs path := by
  rw [liveState_eq h, at?_fold statePatch_leveled statePatch_uniqueKeys hpath]
  unfold lastWritten
  congr 1
  funext x log
  rw [statePatch_eq]
  split
  · rw [hpath.at?_nil]
    rfl
  · rfl

theorem at?_rebuilt (hpath : LeafPath path) : (rebuiltState start logs).at? path =
    logs.foldl (fun x log => ((reduceProjectionState log).at? path).or x) (start.at? path) :=
  at?_fold reduceProjectionState_leveled reduceProjectionState_uniqueKeys hpath

/-- Events that write at a path only what is there leave it there. -/
theorem foldl_or_fixed {x : Option (Node Leaf)}
    (h : ∀ log ∈ logs, ((reduceProjectionState log).at? path).or x = x) :
    logs.foldl (fun x log => ((reduceProjectionState log).at? path).or x) x = x := by
  induction logs with
  | nil => rfl
  | cons log logs ih =>
    rw [List.foldl_cons, h log (by simp)]
    exact ih fun log' hlog' => h log' (List.mem_cons_of_mem log hlog')

theorem foldl_or_of_none {x : Option (Node Leaf)}
    (h : ∀ log ∈ logs, (reduceProjectionState log).at? path = none) :
    logs.foldl (fun x log => ((reduceProjectionState log).at? path).or x) x = x :=
  foldl_or_fixed fun log hlog => by rw [h log hlog, Option.none_or]

theorem lastWritten_of_none {before : List SupportedEventLog}
    (h : ∀ log ∈ logs, log.name.resolves = false → (reduceProjectionState log).at? path = none) :
    lastWritten start (before ++ logs) path = lastWritten start before path := by
  unfold lastWritten
  rw [List.foldl_append]
  generalize List.foldl _ _ before = x
  induction logs with
  | nil => rfl
  | cons log logs ih =>
    rw [List.foldl_cons]
    have hrest := ih fun log' hlog' => h log' (List.mem_cons_of_mem log hlog')
    cases hresolves : log.name.resolves with
    | true => exact hrest
    | false =>
      rw [h log (by simp) hresolves]
      exact hrest

/-- At a leaf path a patch has a leaf or nothing. -/
theorem LeafPath.leaf (hpath : LeafPath path) {log : SupportedEventLog} {x : Node Leaf}
    (hx : (reduceProjectionState log).at? path = some x) : ∃ v, x = .leaf v := by
  obtain ⟨log', v, hv⟩ := hpath
  cases x with
  | leaf w => exact ⟨w, rfl⟩
  | object =>
    have hkind := (reduceProjectionState_leveled log).kind (reduceProjectionState_leveled log') hx hv
    cases hkind

theorem at?_nest {k k' : Key} {r : JsonObject} {x : Node Leaf}
    (h : (nest k r).at? (k' :: path) = some x) : k' = k ∧ r.at? path = some x := by
  unfold nest Object.at? at h
  rw [Object.get?_cons] at h
  by_cases heq : k = k'
  · rw [if_pos heq] at h
    exact ⟨heq.symm, h⟩
  · rw [if_neg heq] at h
    cases h

/-- `{ status: "resolved", readyAt: null }` -/
def resolvedState : JsonObject :=
  literal [(.status, .string (.word "resolved")), (.readyAt, .null)]

theorem resolution_sections {log : SupportedEventLog} {k : Key}
    (hresolves : log.name.resolves = true)
    (h : (reduceProjectionState log).at? (k :: path) = some (.leaf v)) :
    k = .field .alternativeRecipients ∧ v = .null ∨
      k = .field .emergencyResolutions ∧ resolvedState.at? path.tail = some (.leaf v) := by
  have hnull : ∀ {p i : ℕ}, (clearedLegs p i).at? path = some (.leaf v) → v = .null := by
    intro p i hat
    have hall : (clearedLegs p i).all (fun v => decide (v = .null)) = true := by rfl
    simpa using Object.all_of_at? hall hat
  obtain ⟨name, _, _, _, _, args⟩ := log
  cases name
  case DisputeResolved =>
    obtain ⟨rfl, hat⟩ := at?_nest h
    exact .inl ⟨rfl, hnull hat⟩
  case EmergencyDisputeResolved =>
    by_cases hk : k = .field .emergencyResolutions
    · subst hk
      right
      cases path with
      | nil => cases h
      | cons k' path => exact ⟨rfl, (at?_nest h).2⟩
    · left
      have hcons : (Object.cons (.field .emergencyResolutions) (.object _)
        (nest (.field .alternativeRecipients) (clearedLegs _ _)) : JsonObject).at? (k :: path) =
          some (.leaf v) := h
      unfold Object.at? at hcons
      rw [Object.get?_cons_ne (Ne.symm hk)] at hcons
      obtain ⟨hsection, hat⟩ := at?_nest (k := .field .alternativeRecipients) hcons
      exact ⟨hsection, hnull hat⟩
  all_goals cases hresolves

/-- The events that resolve a dispute write the same value wherever they write. -/
theorem resolution_leaf {a b : SupportedEventLog} {v w : Leaf} (ha : a.name.resolves = true)
    (hb : b.name.resolves = true) (hv : (reduceProjectionState a).at? path = some (.leaf v))
    (hw : (reduceProjectionState b).at? path = some (.leaf w)) : v = w := by
  cases path with
  | nil =>
    rw [Object.at?_nil] at hv
    cases hv
  | cons k path =>
    obtain ⟨hk, rfl⟩ | ⟨hk, hv⟩ := resolution_sections ha hv
    · obtain ⟨-, rfl⟩ | ⟨hk', -⟩ := resolution_sections hb hw
      · rfl
      · rw [hk] at hk'
        cases hk'
    · obtain ⟨hk', -⟩ | ⟨-, hw⟩ := resolution_sections hb hw
      · rw [hk] at hk'
        cases hk'
      · exact Node.leaf.inj (Option.some.inj (hv.symm.trans hw))

theorem exists_last {α : Type} {p : α → Prop} {l : List α} (h : ∃ x ∈ l, p x) :
    ∃ before x after, l = before ++ x :: after ∧ p x ∧ ∀ y ∈ after, ¬p y := by
  induction l with
  | nil =>
    obtain ⟨x, hx, -⟩ := h
    cases hx
  | cons a l ih =>
    by_cases hlater : ∃ x ∈ l, p x
    · obtain ⟨before, x, after, rfl, hx, hafter⟩ := ih hlater
      exact ⟨a :: before, x, after, rfl, hx, hafter⟩
    · obtain ⟨x, hmem, hx⟩ := h
      rcases List.mem_cons.mp hmem with rfl | hmem
      · exact ⟨[], x, l, rfl, hx, fun y hy hpy => hlater ⟨y, hy, hpy⟩⟩
      · exact absurd ⟨x, hmem, hx⟩ hlater

/-- What the last event that writes at a leaf path wrote there stands in the rebuilt state. -/
theorem rebuilt_of_last {before after : List SupportedEventLog} {last : SupportedEventLog}
    (hlast : (reduceProjectionState last).at? path = some (.leaf v))
    (hafter : ∀ log ∈ after, (reduceProjectionState log).at? path = none) :
    (rebuiltState start (before ++ last :: after)).at? path = some (.leaf v) := by
  rw [at?_rebuilt ⟨last, v, hlast⟩, List.foldl_append, List.foldl_cons, foldl_or_of_none hafter,
    hlast]
  rfl

/-- At a leaf path the two folds agree if the last resolution that wrote there cleared nothing. -/
theorem at?_agree {patches : List JsonObject} (h : List.Forall₂ Returns logs patches)
    (hclears : ClearsNothing start logs) (hpath : LeafPath path) :
    (liveState start patches).at? path = (rebuiltState start logs).at? path := by
  rw [at?_live h hpath]
  by_cases hnone : ∀ log ∈ logs, (reduceProjectionState log).at? path = none
  · rw [at?_rebuilt hpath, foldl_or_of_none hnone]
    have hlast : lastWritten start ([] ++ logs) path = lastWritten start [] path :=
      lastWritten_of_none fun log hlog _ => hnone log hlog
    exact hlast
  · -- the last event that writes at the path
    push Not at hnone
    obtain ⟨before, last, after, rfl, hlast, hafter⟩ := exists_last hnone
    simp only [ne_eq, not_not] at hafter
    obtain ⟨x, hx⟩ := Option.ne_none_iff_exists'.mp hlast
    obtain ⟨v, rfl⟩ := hpath.leaf hx
    rw [rebuilt_of_last hx hafter]
    cases hresolves : last.name.resolves with
    | true =>
      obtain ⟨later, hlater, -, w, hw⟩ | hkept :=
        hclears before last after rfl hresolves path v hx
      · rw [hafter later hlater] at hw
        cases hw
      · rw [lastWritten_of_none]
        · exact hkept
        · intro log' hlog' hother
          rcases List.mem_cons.mp hlog' with rfl | hlog'
          · rw [hresolves] at hother
            cases hother
          · exact hafter log' hlog'
    | false =>
      have hsplit : before ++ last :: after = (before ++ [last]) ++ after := by simp
      rw [hsplit, lastWritten_of_none fun log' hlog' _ => hafter log' hlog']
      unfold lastWritten
      rw [List.foldl_append, List.foldl_cons, List.foldl_nil, hresolves, hx]
      rfl

theorem rebuilt_leaf {log : SupportedEventLog} (hlog : log ∈ logs)
    (hv : (reduceProjectionState log).at? path = some (.leaf v)) :
    ∃ w, (rebuiltState start logs).at? path = some (.leaf w) := by
  obtain ⟨before, last, after, rfl, hlast, hafter⟩ :=
    exists_last (p := fun log => (reduceProjectionState log).at? path ≠ none)
      ⟨log, hlog, by rw [hv]; simp⟩
  simp only [ne_eq, not_not] at hafter
  obtain ⟨x, hx⟩ := Option.ne_none_iff_exists'.mp hlast
  obtain ⟨w, rfl⟩ := LeafPath.leaf ⟨log, v, hv⟩ hx
  exact ⟨w, rebuilt_of_last hx hafter⟩

theorem literal_full (l : List (Field × Leaf)) : (literal l).Full := by
  induction l with
  | nil => exact .nil
  | cons x l ih => exact .cons_leaf ih

theorem literal_leaf {f : Field} {v : Leaf} {l : List (Field × Leaf)} :
    ∃ tail w, (literal ((f, v) :: l)).at? tail = some (.leaf w) :=
  ⟨[.field f], v, Object.at?_cons_leaf (Object.get?_cons_self _ _ _)⟩

theorem nest_leaf {k : Key} {r : JsonObject} (h : ∃ tail w, r.at? tail = some (.leaf w)) :
    ∃ tail w, (nest k r).at? tail = some (.leaf w) := by
  obtain ⟨tail, w, hw⟩ := h
  exact ⟨k :: tail, w, (Object.at?_cons_object (Object.get?_cons_self k _ _)).trans hw⟩

theorem clearedLegs_full (p i : ℕ) : (clearedLegs p i).Full :=
  .cons_object (literal_full _) literal_leaf (.cons_object (literal_full _) literal_leaf .nil)

theorem clearedLegs_leaf (p i : ℕ) : ∃ tail w, (clearedLegs p i).at? tail = some (.leaf w) := by
  refine ⟨[.leg p i true, .field .pendingRecipient], .null, ?_⟩
  exact Object.at?_cons_object (Object.get?_cons_self _ _ _)

theorem resolution_full {log : SupportedEventLog} (hresolves : log.name.resolves = true) :
    (reduceProjectionState log).Full := by
  obtain ⟨name, _, _, _, _, args⟩ := log
  cases name
  case DisputeResolved => exact .cons_object (clearedLegs_full _ _) (clearedLegs_leaf _ _) .nil
  case EmergencyDisputeResolved =>
    exact .cons_object (.cons_object (literal_full _) literal_leaf .nil) (nest_leaf literal_leaf)
      (.cons_object (clearedLegs_full _ _) (clearedLegs_leaf _ _) .nil)
  all_goals cases hresolves

/-- Where no resolution has anything the two folds do the same. -/
theorem at?_untouched
    (h : ∀ log ∈ logs, log.name.resolves = true → (reduceProjectionState log).at? path = none ∧
      (reduceProjectionState log).blocks path = false) {a b : JsonObject}
    (hab : a.at? path = b.at? path) :
    (logs.foldl (fun state log => mergeProjectionState state (statePatch log)) a).at? path =
      (rebuiltState b logs).at? path := by
  unfold rebuiltState
  induction logs generalizing a b with
  | nil => exact hab
  | cons log logs ih =>
    rw [List.foldl_cons, List.foldl_cons]
    refine ih (fun log' hlog' => h log' (List.mem_cons_of_mem log hlog')) ?_
    unfold mergeProjectionState
    rw [Object.at?_deepMerge (reduceProjectionState_uniqueKeys log), statePatch_eq]
    cases hresolves : log.name.resolves with
    | true =>
      obtain ⟨hat, hblocks⟩ := h log (by simp) hresolves
      rw [hat, hblocks]
      show (a.deepMerge .nil).at? path = b.at? path
      unfold Object.deepMerge
      exact hab
    | false =>
      show (a.deepMerge (reduceProjectionState log)).at? path = _
      rw [Object.at?_deepMerge (reduceProjectionState_uniqueKeys log), hab]

end Fold

/-- The two cursor states are the same, up to the order of keys, exactly when the resolutions clear
nothing. -/
theorem cursor_states_agree_iff {start : JsonObject} {logs : List SupportedEventLog}
    {patches : List JsonObject} (h : List.Forall₂ Returns logs patches) :
    (liveState start patches).Same (rebuiltState start logs) ↔ ClearsNothing start logs := by
  constructor
  · rintro hsame before log after rfl hresolves path v hv
    by_contra hneither
    rw [not_or] at hneither
    obtain ⟨hlater, hkept⟩ := hneither
    have hpath : LeafPath path := ⟨log, v, hv⟩
    -- all that is written there afterwards is written by resolutions
    have hquiet : ∀ later ∈ log :: after, later.name.resolves = false →
        (reduceProjectionState later).at? path = none := by
      intro later hmem hother
      rcases List.mem_cons.mp hmem with rfl | hmem
      · rw [hresolves] at hother
        cases hother
      · by_contra hwrites
        obtain ⟨x, hx⟩ := Option.ne_none_iff_exists'.mp hwrites
        obtain ⟨w, rfl⟩ := hpath.leaf hx
        exact hlater ⟨later, hmem, hother, w, hx⟩
    have hlive : (liveState start patches).at? path = lastWritten start (before ++ log :: after) path :=
      at?_live h hpath
    rw [lastWritten_of_none hquiet] at hlive
    rw [← hlive, hsame path] at hkept
    refine hkept ?_
    rw [at?_rebuilt hpath, List.foldl_append, List.foldl_cons, hv]
    refine foldl_or_fixed fun later hmem => ?_
    cases hlater : (reduceProjectionState later).at? path with
    | none => rfl
    | some x =>
      obtain ⟨w, rfl⟩ := hpath.leaf hlater
      cases hother : later.name.resolves with
      | true =>
        rw [resolution_leaf hother hresolves hlater hv]
        rfl
      | false =>
        rw [hquiet later (List.mem_cons_of_mem log hmem) hother] at hlater
        cases hlater
  · intro hclears path
    by_cases hnil : path = []
    · rw [hnil, Object.at?_nil, Object.at?_nil]
    by_cases huntouched : ∀ log ∈ logs, log.name.resolves = true →
        (reduceProjectionState log).at? path = none ∧
          (reduceProjectionState log).blocks path = false
    · rw [liveState_eq h]
      exact at?_untouched huntouched rfl
    · push Not at huntouched
      obtain ⟨log, hlog, hresolves, htouches⟩ := huntouched
      have hagree : ∀ {path v}, (reduceProjectionState log).at? path = some (.leaf v) →
          (liveState start patches).at? path = (rebuiltState start logs).at? path ∧
          ∃ w, (rebuiltState start logs).at? path = some (.leaf w) := fun hv =>
        ⟨at?_agree h hclears ⟨log, _, hv⟩, rebuilt_leaf hlog hv⟩
      cases hat : (reduceProjectionState log).at? path with
      | some x =>
        cases x with
        | leaf v => exact (hagree hat).1
        | object =>
          -- there is a leaf below, and both states have it
          cases path with
          | nil => exact absurd rfl hnil
          | cons k path =>
            obtain ⟨tail, v, hv⟩ := resolution_full hresolves k path hat
            obtain ⟨heq, w, hw⟩ := hagree hv
            have htail : tail ≠ [] := by
              rintro rfl
              rw [List.append_nil, hat] at hv
              cases hv
            rw [Object.at?_append hw htail, Object.at?_append (heq.trans hw) htail]
      | none =>
        obtain ⟨front, back, v, rfl, hback, hv⟩ :=
          Object.blocks_iff.mp (Bool.ne_false_iff.mp (htouches hat))
        obtain ⟨heq, w, hw⟩ := hagree hv
        rw [Object.at?_append_of_leaf hw hback, Object.at?_append_of_leaf (heq.trans hw) hback]

namespace Sample

/-- A log of block 5, decoded as documented. -/
def logged (index : ℕ) (e : Event) : SupportedEventLog :=
  parsed ⟨77, index, some (.emitted e)⟩ (.emitted e)

/-- The arbitrator names a recipient, who would be paid from second 178800 on, and the dispute is
resolved. -/
def naming : List SupportedEventLog :=
  [logged 0 (.alternativeRecipientSet 1 0 true 8 178800 4), logged 1 (.disputeResolved 1 0 4 0 10 0)]

/-- Both parties choose a recipient. -/
def choosing : List SupportedEventLog :=
  [logged 0 (.alternativeRecipientSet 1 0 true 8 0 3),
   logged 1 (.alternativeRecipientSet 1 0 false 9 0 2)]

theorem returns (log : SupportedEventLog) (h : ((applyEventProjection log none
    (settings.scope 0) noTables).toOption.map fun r => r.1.2) = some (statePatch log)) :
    Returns log (statePatch log) := by
  cases hrun : applyEventProjection log none (settings.scope 0) noTables with
  | error e =>
    rw [hrun] at h
    cases h
  | ok r =>
    rw [hrun] at h
    obtain ⟨⟨projectId, patch⟩, s'⟩ := r
    obtain rfl : patch = statePatch log := Option.some.inj h
    exact ⟨none, settings.scope 0, noTables, projectId, s', hrun⟩

end Sample

/-- After the resolution the live state still names the recipient, and the rebuilt one does not. -/
theorem live_state_keeps_named_recipient :
    List.Forall₂ Returns Sample.naming (Sample.naming.map statePatch) ∧
    (liveState .nil (Sample.naming.map statePatch)).at?
        [.field .alternativeRecipients, .leg 1 0 true, .field .pendingRecipient] =
      some (.leaf (.string (.address 8))) ∧
    (rebuiltState .nil Sample.naming).at?
        [.field .alternativeRecipients, .leg 1 0 true, .field .pendingRecipient] =
      some (.leaf .null) := by
  refine ⟨.cons (Sample.returns _ ?_) (.cons (Sample.returns _ ?_) .nil), ?_, ?_⟩ <;> decide +kernel

/-- Choices of the parties give the same state on both paths; the resolution does not clear nothing. -/
theorem chosen_recipients_agree :
    (liveState .nil (Sample.choosing.map statePatch)).Same (rebuiltState .nil Sample.choosing) ∧
    ¬ClearsNothing .nil Sample.naming := by
  have hchoosing : List.Forall₂ Returns Sample.choosing (Sample.choosing.map statePatch) := by
    refine .cons (Sample.returns _ ?_) (.cons (Sample.returns _ ?_) .nil) <;> decide +kernel
  have hnaming : List.Forall₂ Returns Sample.naming (Sample.naming.map statePatch) := by
    refine .cons (Sample.returns _ ?_) (.cons (Sample.returns _ ?_) .nil) <;> decide +kernel
  constructor
  · refine (cursor_states_agree_iff hchoosing).mpr fun before log after heq hresolves => ?_
    have hmem : log ∈ Sample.choosing := by
      rw [heq]
      simp
    rcases List.mem_cons.mp hmem with rfl | hmem
    · cases hresolves
    · rcases List.mem_singleton.mp hmem with rfl
      cases hresolves
  · intro hclears
    have hsame := (cursor_states_agree_iff hnaming).mpr hclears
      [.field .alternativeRecipients, .leg 1 0 true, .field .pendingRecipient]
    revert hsame
    decide +kernel

/-! ## Merging as an algebra -/

namespace Sample

/-- `{ status: {} }` -/
def emptied : JsonObject := nest (.field .status) .nil

end Sample

end EscrowFlow.Sync
