import Mathlib
import EscrowFlow.Sync.Acceptance
import EscrowFlow.Sync.Released
import EscrowFlow.Sync.Sheets

/-! # Where the service gets stuck

On a chain that is not reorganised a log is applied sooner or later, whatever the size of the batches,
unless the database refuses a log at or before it: the service never passes that one.
-/

namespace EscrowFlow.Sync
open EscrowFlow.Foundations EscrowFlow.Registry
set_option autoImplicit false

/-- A run that begins has the configured batch size. -/
def Happening.Configured {ι : Type} (batchSize : ℕ) : Happening ι → Prop
  | .operation _ (.began _ _ size) => size = batchSize
  | _ => True

variable {ι : Type} [DecidableEq ι] {st : Settings} {σ σ₀ : System ι} {i : ι} {k : ℕ}
  {x : SupportedEventLog}

/-! ## Operations -/

theorem System.after_stage (r : Reply) : (σ.after st (.operation i r)).stage i =
    (step st σ.chain r (σ.stage i) σ.db).1 := Function.update_self ..

theorem System.after_db (r : Reply) : (σ.after st (.operation i r)).db =
    (step st σ.chain r (σ.stage i) σ.db).2 := rfl

/-- What one runner reaches on its own, from `σ`. -/
structure Going (st : Settings) (batchSize : ℕ) (σ σ' : System ι) : Prop where
  reached : Reached st (fun σ x => Unraced st σ x ∧ x.Configured batchSize) σ σ'
  exact : σ'.Exact st
  chain : σ'.chain = σ.chain

theorem Going.refl (batchSize : ℕ) (h : σ.Exact st) : Going st batchSize σ σ := ⟨.start, h, rfl⟩

theorem Going.trans {batchSize : ℕ} {σ' σ'' : System ι} (h : Going st batchSize σ σ') (h' : Going st batchSize σ' σ'') :
    Going st batchSize σ σ'' := ⟨h.reached.trans h'.reached, h'.exact, h'.chain.trans h.chain⟩

theorem System.Exact.go (batchSize : ℕ) (h : σ.Exact st) (r : Reply)
    (hr : (Happening.operation i r).Configured batchSize) (hx : ∀ seen, (σ.stage i).writing = some seen → SameCursor st σ.db.checkpoint seen) :
    Going st batchSize σ (σ.after st (.operation i r)) :=
  have hx : Unraced st σ (.operation i r) := hx
  ⟨.step _ .start ⟨hx, hr⟩, (h.after hx).1, rfl⟩

/-- An operation that does not write. -/
theorem System.Exact.look (batchSize : ℕ) (h : σ.Exact st) (r : Reply)
    (hr : (Happening.operation i r).Configured batchSize) (hx : (σ.stage i).writing = none) :
    Going st batchSize σ (σ.after st (.operation i r)) :=
  h.go batchSize r hr fun seen hseen => by
    rw [hx] at hseen
    cases hseen

/-! ## A batch -/

/-- The logs at the front of a batch are applied, one after the other. -/
theorem drain (batchSize : ℕ) {pre post : List SupportedEventLog} {state : JsonObject} {seen : Option Checkpoint}
    (hexact : σ.Exact st) (hstage : σ.stage i = .ingest (pre ++ post) state seen)
    (hsame : SameCursor st σ.db.checkpoint seen) (hpre : ∀ y ∈ pre, y.Bounded ∧ y.Clean)
    (hroom : σ.db.tables.Room (k + pre.length)) (hsome : pre ≠ []) :
    ∃ σ', Going st batchSize σ σ' ∧ σ'.db.applied = σ.db.applied ++ pre ∧ σ'.db.tables.Room k ∧
      (post = [] → σ'.stage i = .idle) := by
  induction pre generalizing σ state seen with
  | nil => exact absurd rfl hsome
  | cons y pre ih =>
    obtain ⟨hbounded, hclean⟩ := hpre y List.mem_cons_self
    have hsound := hexact.stage i
    rw [hstage] at hsound
    obtain ⟨-, rfl, q, hlogs⟩ := hsound
    obtain ⟨hposition, hstate⟩ := hsame
    rw [← hposition] at hlogs
    -- the transaction commits
    have hstorable : storable (projectionStateOf seen) = true := by
      rw [← hstate, hexact.db.state]
      exact storable_accumulatedState _
    have haccepts : (ingestEvent y none (projectionStateOf seen)).wp (fun _ db' => db'.tables.Room _)
        (fun _ => False) (st.scope 0) σ.db := ingestEvent_accepts hbounded hclean hroom hstorable
    obtain ⟨next, db', hrun, hroom'⟩ := Tx.ok_of_wp haccepts
    have hingested := Tx.wp_of_ok ingestEvent_spec hrun
    obtain ⟨-, -, happlied, -, -⟩ := hexact.db.recorded.ingest hlogs hingested
    have hstep : step st σ.chain (.ok 0 none) (σ.stage i) σ.db =
        (if (pre ++ post).isEmpty = true then .idle else .ingest (pre ++ post) next db'.checkpoint,
          db') := by
      rw [hstage]
      unfold step
      dsimp only [List.cons_append]
      rw [hrun]
    have hgo : Going st batchSize σ (σ.after st (.operation i (.ok 0 none))) := by
      refine hexact.go batchSize _ trivial fun seen' hseen => ?_
      rw [hstage] at hseen
      obtain rfl := Option.some.inj hseen
      exact ⟨hposition, hstate⟩
    have hdb : (σ.after st (.operation i (.ok 0 none))).db = db' := by
      rw [System.after_db, hstep]
    by_cases hmore : pre = []
    · subst hmore
      refine ⟨_, hgo, ?_, hdb ▸ hroom', fun hpost => ?_⟩
      · rw [hdb]
        exact happlied
      · rw [System.after_stage, hstep, hpost]
        rfl
    · have hstage' : (σ.after st (.operation i (.ok 0 none))).stage i =
          .ingest (pre ++ post) next db'.checkpoint := by
        rw [System.after_stage, hstep]
        exact if_neg (by simp [hmore])
      obtain ⟨σ', hgo', happlied', hroom'', hidle⟩ := ih hgo.exact hstage' (hdb ▸ ⟨rfl, rfl⟩)
        (fun z hz => hpre z (List.mem_cons_of_mem _ hz)) (hdb ▸ hroom') hmore
      refine ⟨σ', hgo.trans hgo', ?_, hroom'', hidle⟩
      rw [happlied', hdb, happlied, List.append_assoc]
      rfl

/-- The last block of a batch. -/
def batchEnd (st : Settings) (checkpoint : Option Checkpoint) (head batchSize : ℕ) : ℕ :=
  min head (deriveCursor checkpoint st.startBlock + max 1 batchSize - 1)

theorem plan_eq {head batchSize : ℕ} {checkpoint : Option Checkpoint}
    (h : deriveCursor checkpoint st.startBlock ≤ head) : plan st head batchSize checkpoint =
      .fetch (batchEnd st checkpoint head batchSize) checkpoint := if_neg (Nat.not_lt.mpr h)

/-- A run begins and gets as far as its batch. -/
theorem fetched (batchSize : ℕ) (hexact : σ.Exact st) (hidle : σ.stage i = .idle) {head : ℕ}
    (hcursor : deriveCursor σ.db.checkpoint st.startBlock ≤ head) :
    ∃ σ', Going st batchSize σ σ' ∧ σ'.db = σ.db ∧
      σ'.stage i = .fetch (batchEnd st σ.db.checkpoint head batchSize) σ.db.checkpoint := by
  have hbegin := hexact.look (i := i) batchSize (.began head 0 batchSize) rfl (by rw [hidle]; rfl)
  have hload : (σ.after st (.operation i (.began head 0 batchSize))).stage i =
      .load head batchSize := by
    rw [System.after_stage, hidle]
    rfl
  have hdb : (σ.after st (.operation i (.began head 0 batchSize))).db = σ.db := by
    rw [System.after_db, hidle]
    rfl
  generalize σ.after st (.operation i (.began head 0 batchSize)) = σ₁ at hbegin hload hdb
  have hloaded := hbegin.exact.look (i := i) batchSize (.ok 0 none) trivial (by rw [hload]; rfl)
  have hnext : step st σ₁.chain (.ok 0 none) (σ₁.stage i) σ₁.db = (plan st head batchSize σ.db.checkpoint, σ.db) ∨
      ∃ c, σ.db.checkpoint = some c ∧ step st σ₁.chain (.ok 0 none) (σ₁.stage i) σ₁.db =
        (.check head batchSize c, σ.db) := by
    rw [hload, hdb]
    unfold step
    dsimp only
    cases hc : σ.db.checkpoint with
    | none => exact .inl rfl
    | some c =>
      dsimp only
      split
      · exact .inr ⟨c, rfl, rfl⟩
      · exact .inl rfl
  rcases hnext with hnext | ⟨c, hc, hnext⟩
  · refine ⟨_, hbegin.trans hloaded, ?_, ?_⟩
    · rw [System.after_db, hnext]
    · rw [System.after_stage, hnext, plan_eq hcursor]
  · have hstage : (σ₁.after st (.operation i (.ok 0 none))).stage i = .check head batchSize c := by
      rw [System.after_stage, hnext]
    have hdb' : (σ₁.after st (.operation i (.ok 0 none))).db = σ.db := by
      rw [System.after_db, hnext]
    generalize σ₁.after st (.operation i (.ok 0 none)) = σ₂ at hloaded hstage hdb'
    have hchecked := hloaded.exact.look (i := i) batchSize (.ok 0 none) trivial (by rw [hstage]; rfl)
    have hplan : step st σ₂.chain (.ok 0 none) (σ₂.stage i) σ₂.db =
        (plan st head batchSize (some c), σ.db) := by
      have hanchored := hloaded.exact.db.recorded.anchored
      rw [hdb', hc] at hanchored
      rw [hstage, hdb']
      unfold step
      dsimp only
      rw [if_neg]
      -- the stored hash is the chain's
      unfold isBlockHashMismatch
      cases hhash : c.lastProcessedBlockHash with
      | none => exact Bool.false_ne_true
      | some hash => simp [(hanchored.hash c rfl hash hhash).1]
    refine ⟨_, (hbegin.trans hloaded).trans hchecked, ?_, ?_⟩
    · rw [System.after_db, hplan]
    · rw [System.after_stage, hplan, hc, plan_eq (hc ▸ hcursor)]

/-- An empty batch. -/
theorem advanced (batchSize : ℕ) (hexact : σ.Exact st) {toBlock : ℕ} {checkpoint : Option Checkpoint}
    (hstage : σ.stage i = .fetch toBlock checkpoint) (hto : toBlock ≤ maxBigInt)
    (hcheckpoint : σ.db.checkpoint = checkpoint)
    (hempty : fetchSupportedLogs st.decoder σ.chain (deriveCursor checkpoint st.startBlock) toBlock
      checkpoint = []) :
    ∃ σ', Going st batchSize σ σ' ∧ σ'.stage i = .idle ∧ σ'.db.tables = σ.db.tables ∧
      σ'.db.applied = σ.db.applied ∧ deriveCursor σ'.db.checkpoint st.startBlock = toBlock + 1 := by
  have hfetch := hexact.look (i := i) batchSize (.ok 0 none) trivial (by rw [hstage]; rfl)
  have hlocate : step st σ.chain (.ok 0 none) (σ.stage i) σ.db = (.locate toBlock checkpoint, σ.db) := by
    rw [hstage]
    unfold step
    dsimp only
    rw [hempty]
  have hstage₁ : (σ.after st (.operation i (.ok 0 none))).stage i = .locate toBlock checkpoint := by
    rw [System.after_stage, hlocate]
  have hdb₁ : (σ.after st (.operation i (.ok 0 none))).db = σ.db := by
    rw [System.after_db, hlocate]
  generalize σ.after st (.operation i (.ok 0 none)) = σ₁ at hfetch hstage₁ hdb₁
  have hlook := hfetch.exact.look (i := i) batchSize (.ok 0 none) trivial (by rw [hstage₁]; rfl)
  have hstage₂ : (σ₁.after st (.operation i (.ok 0 none))).stage i =
      .advance toBlock (σ₁.chain.block toBlock).hash checkpoint := by
    rw [System.after_stage, hstage₁]
    rfl
  have hdb₂ : (σ₁.after st (.operation i (.ok 0 none))).db = σ.db := by
    rw [System.after_db, hstage₁, ← hdb₁]
    rfl
  generalize σ₁.after st (.operation i (.ok 0 none)) = σ₂ at hlook hstage₂ hdb₂
  have hwrite : Going st batchSize σ₂ (σ₂.after st (.operation i (.ok 0 none))) := by
    refine hlook.exact.go batchSize _ trivial fun seen hseen => ?_
    rw [hstage₂] at hseen
    obtain rfl := Option.some.inj hseen
    rw [hdb₂, hcheckpoint]
    exact ⟨rfl, rfl⟩
  have hstep : step st σ₂.chain (.ok 0 none) (σ₂.stage i) σ₂.db =
      (.idle, σ.db.advance toBlock (σ₁.chain.block toBlock).hash) := by
    rw [hstage₂, hdb₂]
    exact if_neg (Nat.not_lt.mpr hto)
  refine ⟨_, (hfetch.trans hlook).trans hwrite, ?_, ?_, ?_, ?_⟩
  · rw [System.after_stage, hstep]
  · rw [System.after_db, hstep]
    rfl
  · rw [System.after_db, hstep]
    rfl
  · rw [System.after_db, hstep]
    rfl

/-- A batch with logs. -/
theorem loaded (batchSize : ℕ) (hexact : σ.Exact st) {toBlock : ℕ} {checkpoint : Option Checkpoint}
    (hstage : σ.stage i = .fetch toBlock checkpoint) (hsome : fetchSupportedLogs st.decoder σ.chain
      (deriveCursor checkpoint st.startBlock) toBlock checkpoint ≠ []) :
    ∃ σ', Going st batchSize σ σ' ∧ σ'.db = σ.db ∧ σ'.stage i =
      .ingest (fetchSupportedLogs st.decoder σ.chain (deriveCursor checkpoint st.startBlock) toBlock
        checkpoint) (projectionStateOf checkpoint) checkpoint := by
  have hfetch := hexact.look (i := i) batchSize (.ok 0 none) trivial (by rw [hstage]; rfl)
  have hstep : step st σ.chain (.ok 0 none) (σ.stage i) σ.db =
      (.ingest (fetchSupportedLogs st.decoder σ.chain (deriveCursor checkpoint st.startBlock) toBlock
        checkpoint) (projectionStateOf checkpoint) checkpoint, σ.db) := by
    rw [hstage]
    unfold step
    dsimp only
    split
    · rename_i hempty
      exact absurd hempty hsome
    · rfl
  refine ⟨_, hfetch, ?_, ?_⟩
  · rw [System.after_db, hstep]
  · rw [System.after_stage, hstep]

/-! ## One log -/

theorem length_le_of_nodup {α : Type} {l m n : List α} (h : (l ++ m).Nodup)
    (hsub : ∀ y ∈ l ++ m, y ∈ n) : m.length ≤ n.length - l.length := by
  have hle := (List.Nodup.subperm h hsub).length_le
  rw [List.length_append] at hle
  omega

/-- The logs up to `x` that the database does not have can be applied. -/
structure Ahead (st : Settings) (x : SupportedEventLog) (σ : System ι) (L : List SupportedEventLog) :
    Prop where
  logs : Enumerates SupportedEventLog.position (σ.chain.UpTo st x.position) L
  good : ∀ y ∈ L, y ∉ σ.db.applied → y.Bounded ∧ y.Clean
  room : σ.db.tables.Room (L.length - σ.db.applied.length)

section Ahead
variable {L more : List SupportedEventLog}

omit [DecidableEq ι] in
theorem Ahead.later (h : Ahead st x σ L) {σ' : System ι} (hchain : σ'.chain = σ.chain)
    (happlied : σ'.db.applied = σ.db.applied ++ more)
    (hroom : σ'.db.tables.Room (L.length - σ.db.applied.length - more.length)) : Ahead st x σ' L where
  logs := hchain ▸ h.logs
  good y hy hnot := h.good y hy fun hmem => hnot (happlied ▸ List.mem_append_left _ hmem)
  room := by
    rw [happlied, List.length_append, ← Nat.sub_sub]
    exact hroom

end Ahead

/-- Whatever the size of the batches, the log is applied. -/
theorem applies (batchSize : ℕ) {L : List SupportedEventLog} (hx : σ.chain.Supports st.decoder x)
    (hstart : st.startBlock ≤ x.blockNumber) (hblock : x.blockNumber ≤ maxBigInt)
    (hexact : σ.Exact st) (hidle : σ.stage i = .idle) (hahead : Ahead st x σ L) :
    ∃ σ', Going st batchSize σ σ' ∧ x ∈ σ'.db.applied := by
  -- a run applies a log, or takes the cursor on
  generalize hn : (L.length - σ.db.applied.length) * (x.blockNumber + 2) +
    (x.blockNumber + 1 - deriveCursor σ.db.checkpoint st.startBlock) = n
  induction n using Nat.strong_induction_on generalizing σ with
  | _ n ih =>
    by_cases hdone : x ∈ σ.db.applied
    · exact ⟨σ, .refl batchSize hexact, hdone⟩
    have hupTo := hexact.db.recorded.logs
    have hbefore : positionOf st.startBlock σ.db.checkpoint < x.position := by
      by_contra hnot
      exact hdone ((hupTo.mem x).mpr ⟨hx, hstart, not_lt.mp hnot⟩)
    obtain ⟨hcursor, -⟩ := (position_lt_iff hx).mp hbefore
    obtain ⟨σ₁, hgo₁, hdb₁, hstage₁⟩ := fetched batchSize hexact hidle hcursor
    have hto : batchEnd st σ.db.checkpoint x.blockNumber batchSize ≤ x.blockNumber :=
      Nat.min_le_left _ _
    have hfrom : deriveCursor σ.db.checkpoint st.startBlock ≤
        batchEnd st σ.db.checkpoint x.blockNumber batchSize := by
      unfold batchEnd
      omega
    generalize batchEnd st σ.db.checkpoint x.blockNumber batchSize = toBlock at hstage₁ hto hfrom
    have hfetch := @fetch_enumerates st σ₁.chain σ.db.checkpoint toBlock
    by_cases hempty : fetchSupportedLogs st.decoder σ₁.chain
        (deriveCursor σ.db.checkpoint st.startBlock) toBlock σ.db.checkpoint = []
    · obtain ⟨σ₂, hgo₂, hidle₂, htables, happlied, hnext⟩ :=
        advanced batchSize hgo₁.exact hstage₁ (hto.trans hblock) (by rw [hdb₁]) hempty
      have hgo := hgo₁.trans hgo₂
      rw [hdb₁] at htables happlied
      have hahead₂ : Ahead st x σ₂ L := by
        refine hahead.later hgo.chain (happlied.trans (List.append_nil _).symm) ?_
        rw [htables]
        exact hahead.room
      obtain ⟨σ', hgo', hmem⟩ := ih _ (by rw [← hn, hnext, happlied]; omega) (hgo.chain ▸ hx)
        hgo.exact hidle₂ hahead₂ rfl
      exact ⟨σ', hgo.trans hgo', hmem⟩
    · obtain ⟨σ₂, hgo₂, hdb₂, hstage₂⟩ := loaded batchSize hgo₁.exact hstage₁ hempty
      have hgo := hgo₁.trans hgo₂
      rw [hdb₁] at hdb₂
      generalize fetchSupportedLogs st.decoder σ₁.chain (deriveCursor σ.db.checkpoint st.startBlock)
        toBlock σ.db.checkpoint = batch at hfetch hempty hstage₂
      rw [hgo₁.chain] at hfetch
      have hanchored := hexact.db.recorded.anchored.start
      have hnodup : (σ.db.applied ++ batch).Nodup :=
        (hupTo.append hfetch fun y z hy hz => lt_of_le_of_lt hy.2.2 hz.2.1).nodup
      -- what is missing up to `x` is what there is room for
      have hfront : ∀ {l rest : List SupportedEventLog}, batch = l ++ rest →
          (∀ y ∈ l, y.position ≤ x.position) → (∀ y ∈ l, y.Bounded ∧ y.Clean) ∧
            l.length ≤ L.length - σ.db.applied.length := by
        intro l rest hl hle
        rw [hl, ← List.append_assoc] at hnodup
        have hnodup := (List.nodup_append.mp hnodup).1
        have hmem : ∀ y ∈ l, y ∈ L := fun y hy => by
          obtain ⟨hy₁, hy₂, -⟩ := (hfetch.mem y).mp (hl ▸ List.mem_append_left _ hy)
          exact (hahead.logs.mem y).mpr ⟨hy₁, start_le_of_after hanchored hy₂, hle y hy⟩
        refine ⟨fun y hy => hahead.good y (hmem y hy) fun hold => ?_, length_le_of_nodup hnodup ?_⟩
        · exact (List.nodup_append.mp hnodup).2.2 y hold y hy rfl
        · intro y hy
          rcases List.mem_append.mp hy with hy | hy
          · obtain ⟨hy₁, hy₂, hy₃⟩ := (hupTo.mem y).mp hy
            exact (hahead.logs.mem y).mpr ⟨hy₁, hy₂, hy₃.trans hbefore.le⟩
          · exact hmem y hy
      by_cases hin : x ∈ batch
      · -- the logs after `x` do not matter
        obtain ⟨pre, post, rfl⟩ := List.append_of_mem hin
        have hsplit : pre ++ x :: post = (pre ++ [x]) ++ post := by
          rw [List.append_assoc, List.singleton_append]
        have hle : ∀ y ∈ pre ++ [x], y.position ≤ x.position := by
          intro y hy
          rcases List.mem_append.mp hy with hy | hy
          · exact ((List.pairwise_append.mp hfetch.increasing).2.2 y hy x List.mem_cons_self).le
          · rw [List.mem_singleton.mp hy]
        obtain ⟨hgood, hlength⟩ := hfront hsplit hle
        rw [hsplit] at hstage₂
        have hroom := hahead.room
        rw [← Nat.sub_add_cancel hlength, ← hdb₂] at hroom
        obtain ⟨σ₃, hgo₃, happlied, -⟩ := drain batchSize hgo.exact hstage₂ (hdb₂ ▸ ⟨rfl, rfl⟩) hgood hroom
          (by simp)
        refine ⟨σ₃, hgo.trans hgo₃, ?_⟩
        rw [happlied]
        exact List.mem_append_right _ (List.mem_append_right _ (List.mem_singleton_self x))
      · have hpast : endOf toBlock < x.position := by
          by_contra hnot
          exact hin ((hfetch.mem x).mpr ⟨hx, hbefore, not_lt.mp hnot⟩)
        obtain ⟨hgood, hlength⟩ := hfront (List.append_nil batch).symm fun y hy =>
          ((hfetch.mem y).mp hy).2.2.trans hpast.le
        rw [← List.append_nil batch] at hstage₂
        have hroom := hahead.room
        rw [← Nat.sub_add_cancel hlength, ← hdb₂] at hroom
        obtain ⟨σ₃, hgo₃, happlied, hroom₃, hidle₃⟩ := drain batchSize hgo.exact hstage₂ (hdb₂ ▸ ⟨rfl, rfl⟩) hgood
          hroom hempty
        rw [hdb₂] at happlied hroom₃
        have hall := hgo.trans hgo₃
        have hmeasure : (L.length - σ₃.db.applied.length) * (x.blockNumber + 2) +
            (x.blockNumber + 1 - deriveCursor σ₃.db.checkpoint st.startBlock) < n := by
          have hpos := List.length_pos_of_ne_nil hempty
          have hfewer : L.length - σ₃.db.applied.length + 1 ≤ L.length - σ.db.applied.length := by
            rw [happlied, List.length_append]
            omega
          have hscaled := Nat.mul_le_mul_right (x.blockNumber + 2) hfewer
          rw [Nat.succ_mul] at hscaled
          omega
        obtain ⟨σ', hgo', hmem⟩ := ih _ hmeasure (hall.chain ▸ hx) hall.exact (hidle₃ rfl)
          (hahead.later hall.chain happlied hroom₃) rfl
        exact ⟨σ', hall.trans hgo', hmem⟩

/-! ## The logs that the database refuses -/

/-- What has been applied since the start is clean. -/
theorem Reached.clean (h : Reached st (Unraced st) σ₀ σ) :
    ∀ y ∈ σ.db.applied, y ∈ σ₀.db.applied ∨ y.Clean := by
  refine h.invariant (I := fun σ => ∀ y ∈ σ.db.applied, y ∈ σ₀.db.applied ∨ y.Clean)
    (fun y hy => .inl hy) fun σ z hσ hz => ?_
  cases z with
  | reorg => exact hz.elim
  | operation j reply =>
    refine step_database (P := fun db => ∀ y ∈ db.applied, y ∈ σ₀.db.applied ∨ y.Clean) reply hσ ?_ ?_
      (fun _ _ => hσ) fun _ => hσ
    · intro log rest state seen now blockDate next db' _ hrun y hy
      rcases ingestEvent_applies hrun with ⟨happlied, -⟩ | ⟨happlied, -⟩
      · exact hσ y (happlied ▸ hy)
      · rw [happlied] at hy
        rcases List.mem_append.mp hy with hy | hy
        · exact hσ y hy
        · obtain rfl := List.mem_singleton.mp hy
          right
          by_contra hnot
          have hrefused := Tx.wp_of_ok (ingestEvent_refuses hnot) hrun
          exact hrefused
    · intro safeHead batchSize seen rewindFromBlock now c db' _ hrun
      rw [(rewind_sheet 0 hrun).1]
      exact hσ

/-- Whether the service ever applies a log of the chain: it does, however small its batches are, if and
only if none of the logs up to it has a text that the database refuses. The numbers of the logs must fit
their columns, and the columns that count must have room for them. -/
theorem applied_iff {L : List SupportedEventLog} (batchSize : ℕ) (hexact : σ₀.Exact st)
    (hidle : σ₀.stage i = .idle) (hx : σ₀.chain.Supports st.decoder x)
    (hstart : st.startBlock ≤ x.blockNumber)
    (hL : Enumerates SupportedEventLog.position (σ₀.chain.UpTo st x.position) L)
    (hbounded : ∀ y ∈ L, y.Bounded) (hroom : σ₀.db.tables.Room (L.length - σ₀.db.applied.length)) :
    (∃ σ, Reached st (fun σ x => Unraced st σ x ∧ x.Configured batchSize) σ₀ σ ∧ x ∈ σ.db.applied) ↔
      ∀ y ∈ L, y ∉ σ₀.db.applied → y.Clean := by
  constructor
  · rintro ⟨σ, hconfigured, hmem⟩ y hy hnew
    have hrun : Reached st (Unraced st) σ₀ σ := hconfigured.mono fun _ _ _ h => h.1
    obtain ⟨hchain, hσ⟩ : σ.chain = σ₀.chain ∧ σ.Exact st := by
      refine hrun.invariant (I := fun σ => σ.chain = σ₀.chain ∧ σ.Exact st) ⟨rfl, hexact⟩
        fun σ z hσ hz => ⟨?_, (hσ.2.after hz).1⟩
      cases z with
      | reorg => exact hz.elim
      | operation j reply => exact hσ.1
    have hlogs := hσ.db.recorded.logs
    obtain ⟨hy₁, hy₂, hy₃⟩ := (hL.mem y).mp hy
    have happlied : y ∈ σ.db.applied :=
      (hlogs.mem y).mpr ⟨hchain ▸ hy₁, hy₂, hy₃.trans ((hlogs.mem x).mp hmem).2.2⟩
    exact (hrun.clean y happlied).resolve_left hnew
  · intro hclean
    have hself : x ∈ L := (hL.mem x).mpr ⟨hx, hstart, le_rfl⟩
    obtain ⟨σ, hgo, hmem⟩ := applies batchSize hx hstart (hbounded x hself).block hexact hidle
      ⟨hL, fun y hy hnew => ⟨hbounded y hy, hclean y hy hnew⟩, hroom⟩
    exact ⟨σ, hgo.reached, hmem⟩

namespace Sample

/-- A URI that is one NUL character, which the registry takes like any other. -/
def nulWorld : World :=
  Registry.Sample.after
    [.call Registry.Sample.freelancer (.submitMilestone 1 0 [0]),
      .call Registry.Sample.client (.approveMilestone 1 0)]

def nulLogs : List SupportedEventLog :=
  fetchSupportedLogs settings.decoder (linkedStart nulWorld).chain 1 5 none

def approvalLog : SupportedEventLog :=
  ⟨.MilestoneApproved, 5, some 1005, 77, 8, (ContractEvent.emitted
    (.milestoneApproved 1 0 Registry.Sample.client)).args documentedDecoder⟩

theorem nulLogs_enumerate : Enumerates SupportedEventLog.position
    ((linkedStart nulWorld).chain.UpTo settings approvalLog.position) nulLogs := by
  have hfetch := @fetch_enumerates settings (linkedStart nulWorld).chain none 5
  have hlast : ∀ y ∈ nulLogs, y.position ≤ approvalLog.position := by decide +kernel
  refine ⟨hfetch.increasing, fun y => ?_⟩
  constructor
  · intro hy
    obtain ⟨hsupports, hafter, -⟩ := (hfetch.mem y).mp hy
    exact ⟨hsupports, ((position_lt_iff hsupports).mp hafter).1, hlast y hy⟩
  · rintro ⟨hsupports, hstart, hle⟩
    refine (hfetch.mem y).mpr ⟨hsupports, (position_lt_iff hsupports).mpr ⟨hstart, rfl⟩, hle.trans ?_⟩
    decide +kernel

end Sample

/-- The approval that follows is never applied. -/
theorem nul_sample_stuck : ¬∃ σ, Reached Sample.settings
    (fun σ x => Unraced Sample.settings σ x ∧ x.Configured 500) (Sample.linkedStart Sample.nulWorld) σ ∧
      Sample.approvalLog ∈ σ.db.applied := by
  have happroved : Sample.approvalLog ∈ Sample.nulLogs := by decide +kernel
  have hsupports := (Sample.nulLogs_enumerate.mem _).mp happroved
  rw [applied_iff 500 (Sample.fresh_linkedStart _).exact (i := ()) rfl hsupports.1 hsupports.2.1
    Sample.nulLogs_enumerate]
  · decide +kernel
  · decide +kernel
  · exact ⟨by decide +kernel, fun _ hx => absurd hx List.not_mem_nil, fun _ hr => absurd hr List.not_mem_nil⟩

end EscrowFlow.Sync
