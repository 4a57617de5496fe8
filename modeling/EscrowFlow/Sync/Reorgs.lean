import EscrowFlow.Sync.Following

/-! # Reorganisations

Every operation keeps the ledger on the chain it follows or moves it to the current one. Once the
chain stays as it is, a run that returns has moved it.
-/

namespace EscrowFlow.Sync
open EscrowFlow.Foundations EscrowFlow.Registry
set_option autoImplicit false

variable {st : Settings} {chains : Set Chain} {chain followed : Chain} {db db' : Database}
  {stage : Stage}

/-! ## One operation -/

/-- A run whose next operation returns, having found the safe head not before its checkpoint. (After
a rewind there always is a batch.) -/
def Completes (st : Settings) (chain : Chain) (stage : Stage) (db : Database) (reply : Reply) :
    Prop :=
  (step st chain reply stage db).1 = .idle ∧
    match stage, reply with
    | .load safeHead _, .ok _ _ =>
      ∀ c, db.checkpoint = some c → c.lastProcessedBlock ≤ safeHead
    | .check _ _ _, .ok _ _ => True
    | .ingest (_ :: _) _ _, .ok _ _ => True
    | .advance _ _ _, .ok _ _ => True
    | _, _ => False

/-- After an operation the ledger follows the same chain as before or the current one: the current
one, if the run has just compared its checkpoint. -/
def Advances (st : Settings) (followed chain : Chain) (stage : Stage) (db : Database)
    (reply : Reply) : Prop :=
  let r := step st chain reply stage db
  Follows st chain chain r.1 r.2 ∨
    Follows st followed chain r.1 r.2 ∧
      (r.1.Compared ∨ Completes st chain stage db reply → stage.Compared)

theorem plan_idle_of_lt {safeHead batchSize : ℕ} {c : Checkpoint}
    (h : safeHead < c.lastProcessedBlock) : plan st safeHead batchSize (some c) = .idle := by
  refine if_pos (lt_of_lt_of_le h ?_)
  obtain ⟨block, hash, _ | i, state, error⟩ := c
  · exact Nat.le_succ block
  · exact le_rfl

/-- An operation after which the run is over, other than by returning. -/
theorem Follows.leaves (h : Follows st followed chain stage db) {reply : Reply}
    (hleaves : step st chain reply stage db = (.idle, db) ∨
      ∃ message, step st chain reply stage db = (.report message, db))
    (hincomplete : stage.Compared ∨ ¬Completes st chain stage db reply) :
    Advances st followed chain stage db reply := by
  right
  obtain heq | ⟨message, heq⟩ := hleaves
  · rw [heq]
    exact ⟨h.leave (.inl rfl), fun hc => hincomplete.resolve_right
      (not_not_intro (hc.resolve_left id))⟩
  · rw [heq]
    exact ⟨h.leave (.inr ⟨message, rfl⟩), fun hc => hincomplete.resolve_right
      (not_not_intro (hc.resolve_left id))⟩

section
variable {safeHead batchSize toBlock hash now : ℕ} {blockDate : Option ℕ} {checkpoint : Checkpoint}
  {seen : Option Checkpoint} {logs : List SupportedEventLog} {state : JsonObject}

theorem Follows.load (h : Follows st followed chain (.load safeHead batchSize) db) :
    Advances st followed chain (.load safeHead batchSize) db (.ok now blockDate) := by
  by_cases hnone : ∀ c, db.checkpoint = some c → c.lastProcessedBlockHash = none
  · left
    obtain ⟨logs, hlogs⟩ := h.settle_of_hash_none hnone
    have hstep : step st chain (.ok now blockDate) (.load safeHead batchSize) db =
        (plan st safeHead batchSize db.checkpoint, db) := by
      unfold step
      cases hc : db.checkpoint with
      | none => rfl
      | some c => exact if_neg (by simp [hnone c hc])
    rw [hstep]
    exact follows_plan hlogs h.started
  · right
    obtain ⟨c, hnone⟩ := not_forall.mp hnone
    obtain ⟨hc, hhash⟩ := Classical.not_imp.mp hnone
    by_cases hle : c.lastProcessedBlock ≤ safeHead
    · have hstep : step st chain (.ok now blockDate) (.load safeHead batchSize) db =
          (.check safeHead batchSize c, db) := by
        unfold step
        rw [hc]
        exact if_pos ⟨Option.isSome_iff_ne_none.mpr hhash, hle⟩
      unfold Completes
      rw [hstep]
      refine ⟨⟨h.recorded, h.started, h.agrees, fun s hs => ?_, trivial⟩, ?_⟩
      · rw [← Option.some.inj hs, hc]
      · rintro (hcompared | ⟨hidle, -⟩)
        · exact False.elim hcompared
        · cases hidle
    · have hstep : step st chain (.ok now blockDate) (.load safeHead batchSize) db =
          (.idle, db) := by
        unfold step
        rw [hc]
        refine (if_neg fun hand => hle hand.2).trans ?_
        rw [plan_idle_of_lt (not_le.mp hle)]
      refine ⟨?_, ?_⟩
      · rw [hstep]
        exact h.leave (.inl rfl)
      · rw [hstep]
        rintro (hcompared | ⟨-, hsafe⟩)
        · exact False.elim hcompared
        · exact absurd (hsafe c hc) hle

theorem Follows.check (commits : HashesCommit chains) (hfollowed : followed ∈ chains)
    (hchain : chain ∈ chains)
    (h : Follows st followed chain (.check safeHead batchSize checkpoint) db) :
    Advances st followed chain (.check safeHead batchSize checkpoint) db (.ok now blockDate) := by
  have hc : db.checkpoint = some checkpoint := (h.seen _ rfl).symm
  by_cases hmismatch : isBlockHashMismatch checkpoint.lastProcessedBlockHash
      (some (chain.block checkpoint.lastProcessedBlock).hash) = true
  · right
    have hstep : step st chain (.ok now blockDate) (.check safeHead batchSize checkpoint) db =
        (.rewind safeHead batchSize checkpoint, db) := if_pos hmismatch
    unfold Completes
    rw [hstep]
    refine ⟨⟨h.recorded, h.started, h.agrees, h.seen, trivial⟩, ?_⟩
    rintro (hcompared | ⟨hidle, -⟩)
    · exact False.elim hcompared
    · cases hidle
  · left
    obtain ⟨logs, hlogs⟩ := h.settle_of_match commits hfollowed hchain hc hmismatch
    have hstep : step st chain (.ok now blockDate) (.check safeHead batchSize checkpoint) db =
        (plan st safeHead batchSize db.checkpoint, db) := by
      rw [hc]
      exact if_neg hmismatch
    rw [hstep]
    exact follows_plan hlogs h.started

theorem Follows.rewind (h : Follows st followed chain (.rewind safeHead batchSize checkpoint) db) :
    Advances st followed chain (.rewind safeHead batchSize checkpoint) db (.ok now blockDate) := by
  have hc : db.checkpoint = some checkpoint := (h.seen _ rfl).symm
  cases heq : rewindAndRebuildProjections st.startBlock
      (computeRewindFromBlock st.startBlock checkpoint.lastProcessedBlock st.rewindDepth)
      (st.scope now) db with
  | ok r =>
    obtain ⟨c', db'⟩ := r
    left
    have hrewound := Tx.wp_of_ok rewindAndRebuildProjections_spec heq
    obtain ⟨⟨logs, hlogs⟩, hstarted⟩ := h.settle_of_rewind hc hrewound
    have hstep : step st chain (.ok now blockDate) (.rewind safeHead batchSize checkpoint) db =
        (plan st safeHead batchSize db'.checkpoint, db') := by
      unfold step
      dsimp only
      rw [heq, hrewound.written]
    rw [hstep]
    exact follows_plan hlogs hstarted
  | error e =>
    refine h.leaves (.inl ?_) (.inr fun hcompletes => hcompletes.2)
    unfold step
    dsimp only
    rw [heq]

theorem Follows.fetch (h : Follows st followed chain (.fetch toBlock seen) db) :
    Advances st followed chain (.fetch toBlock seen) db (.ok now blockDate) := by
  left
  obtain rfl := h.seen seen rfl
  obtain ⟨hstart, hle⟩ := h.stage
  have hsettled := h.settle fun n hn hreach => h.agrees n hn (.inl hreach)
  have hfetch := @fetch_enumerates st chain db.checkpoint toBlock
  unfold step
  dsimp only
  split
  · rename_i hempty
    rw [hempty] at hfetch
    exact ⟨hsettled, h.started, fun _ _ _ => rfl, h.seen, hstart, hle,
      fun x hx => List.not_mem_nil ((hfetch.mem x).mpr hx)⟩
  · exact ⟨hsettled, h.started, fun _ _ _ => rfl, h.seen, endOf toBlock, hfetch⟩

theorem Follows.ingest {log : SupportedEventLog} {rest : List SupportedEventLog}
    (h : Follows st followed chain (.ingest (log :: rest) state seen) db) :
    Advances st followed chain (.ingest (log :: rest) state seen) db (.ok now blockDate) := by
  obtain rfl := h.seen seen rfl
  obtain ⟨q, hbatch⟩ := h.stage
  obtain ⟨logs, hlogs⟩ := h.recorded
  cases heq : ingestEvent log blockDate state (st.scope now) db with
  | error e =>
    refine h.leaves (.inr ⟨"", ?_⟩) (.inl trivial)
    unfold step
    dsimp only
    rw [heq]
  | ok r =>
    obtain ⟨next, db'⟩ := r
    right
    have hingested := Tx.wp_of_ok ingestEvent_spec heq
    obtain ⟨hrecorded, -, -, -, hrest⟩ := hlogs.ingest hbatch hingested
    have hstart : st.startBlock ≤ log.blockNumber :=
      start_le_of_after hlogs.anchored.start hbatch.tail.1.2.1
    have hstarted : Checkpoint.Started st db'.checkpoint := by
      rw [hingested.checkpoint]
      intro c hc _
      obtain rfl := Option.some.inj hc
      exact hstart
    have hblockHash : log.blockHash = some (followed.block log.blockNumber).hash :=
      hbatch.tail.1.1.blockHash
    -- what the new checkpoint or the logs still to be stored bind, the batch bound before
    have hagrees : ∀ n, st.startBlock ≤ n →
        (∃ l ∈ log :: rest, n + st.rewindDepth ≤ l.blockNumber) →
        followed.block n = chain.block n := fun n hn hl => h.agrees n hn (.inl hl)
    have hcheckpoint : ∀ n, Checkpoint.Binds st db'.checkpoint n →
        n + st.rewindDepth ≤ log.blockNumber := by
      rw [hingested.checkpoint, hblockHash]
      exact fun n hn => hn
    have hstep : step st chain (.ok now blockDate) (.ingest (log :: rest) state db.checkpoint) db =
        (if rest.isEmpty = true then .idle else .ingest rest next db'.checkpoint, db') := by
      unfold step
      dsimp only
      rw [heq]
    rw [hstep]
    refine ⟨⟨⟨_, hrecorded⟩, hstarted, fun n hn hbinds => ?_, ?_, ?_⟩, fun _ => trivial⟩
    · rcases hbinds with hbinds | hbinds
      · refine hagrees n hn ?_
        dsimp only at hbinds
        split at hbinds
        · exact False.elim hbinds
        · obtain ⟨l, hl, hdeep⟩ := hbinds
          exact ⟨l, List.mem_cons_of_mem log hl, hdeep⟩
      · exact hagrees n hn ⟨log, by simp, hcheckpoint n hbinds⟩
    · intro s hs
      dsimp only at hs
      split at hs
      · cases hs
      · exact (Option.some.inj hs).symm
    · dsimp only
      split
      · trivial
      · exact ⟨q, hrest⟩

theorem Follows.locate (h : Follows st followed chain (.locate toBlock seen) db) :
    Advances st followed chain (.locate toBlock seen) db (.ok now blockDate) := by
  right
  obtain ⟨hstart, hle, hnone⟩ := h.stage
  refine ⟨⟨h.recorded, h.started, fun n hn hbinds => h.agrees n hn ?_, h.seen, hstart, hle, hnone,
    ?_⟩, fun _ => trivial⟩
  · exact hbinds.imp_left fun hdeep => le_trans (Nat.le_add_right n st.rewindDepth) hdeep
  · rw [h.agrees toBlock hstart (.inl le_rfl)]

theorem Follows.advance (h : Follows st followed chain (.advance toBlock hash seen) db) :
    Advances st followed chain (.advance toBlock hash seen) db (.ok now blockDate) := by
  obtain rfl := h.seen seen rfl
  obtain ⟨hstart, hle, hnone, rfl⟩ := h.stage
  obtain ⟨logs, hlogs⟩ := h.recorded
  by_cases hbound : maxBigInt < toBlock
  · exact h.leaves (.inr ⟨"", if_pos hbound⟩) (.inl trivial)
  · right
    have hstep : step st chain (.ok now blockDate)
        (.advance toBlock (followed.block toBlock).hash db.checkpoint) db =
        (.idle, db.advance toBlock (followed.block toBlock).hash) := if_neg hbound
    rw [hstep]
    refine ⟨⟨⟨logs, hlogs.advance hle hnone⟩, fun c hc _ => ?_, fun n hn hbinds => ?_, nofun,
      trivial⟩, fun _ => trivial⟩
    · obtain rfl := Option.some.inj hc
      exact hstart
    · exact h.agrees n hn (.inl (hbinds.resolve_left id))

theorem Follows.report {message : String} (h : Follows st followed chain (.report message) db) :
    Advances st followed chain (.report message) db (.ok now blockDate) := by
  right
  obtain ⟨logs, hlogs⟩ := h.recorded
  refine ⟨⟨⟨logs, hlogs.report message⟩, fun c hc hhash => ?_, fun n hn hbinds => ?_, nofun,
    trivial⟩, ?_⟩
  · obtain ⟨hash, hhash⟩ := Option.isSome_iff_exists.mp hhash
    obtain ⟨c₀, hc₀, hhash₀, hblock⟩ := hash_report hc hhash
    rw [← hblock]
    exact h.started c₀ hc₀ (by rw [hhash₀]; rfl)
  · refine h.agrees n hn (.inr ?_)
    replace hbinds := hbinds.resolve_left id
    revert hbinds
    obtain ⟨tables, rows, _ | ⟨block, _ | hash, index, state, error⟩, applied⟩ := db <;> exact id
  · rintro (hcompared | ⟨-, hcompletes⟩)
    · exact hcompared
    · exact hcompletes

end

theorem Follows.step (commits : HashesCommit chains) (hfollowed : followed ∈ chains)
    (hchain : chain ∈ chains) (h : Follows st followed chain stage db) (reply : Reply) :
    Advances st followed chain stage db reply := by
  cases stage with
  | idle =>
    cases reply with
    | began latest confirmations batchSize =>
      right
      refine ⟨⟨h.recorded, h.started, h.agrees, nofun, trivial⟩, ?_⟩
      rintro (hcompared | ⟨hidle, -⟩)
      · exact hcompared
      · cases hidle
    | _ => exact h.leaves (.inl rfl) (.inr fun hcompletes => hcompletes.2)
  | load safeHead batchSize =>
    cases reply with
    | ok now blockDate => exact h.load
    | _ => exact h.leaves (.inl rfl) (.inr fun hcompletes => hcompletes.2)
  | check safeHead batchSize checkpoint =>
    cases reply with
    | ok now blockDate => exact h.check commits hfollowed hchain
    | _ => exact h.leaves (.inl rfl) (.inr fun hcompletes => hcompletes.2)
  | rewind safeHead batchSize checkpoint =>
    cases reply with
    | ok now blockDate => exact h.rewind
    | _ => exact h.leaves (.inl rfl) (.inr fun hcompletes => hcompletes.2)
  | fetch toBlock seen =>
    cases reply with
    | ok now blockDate => exact h.fetch
    | failed message => exact h.leaves (.inr ⟨message, rfl⟩) (.inl trivial)
    | _ => exact h.leaves (.inl rfl) (.inl trivial)
  | ingest logs state seen =>
    cases logs with
    | nil => cases reply <;> exact h.leaves (.inl rfl) (.inl trivial)
    | cons log rest =>
      cases reply with
      | ok now blockDate => exact h.ingest
      | failed message => exact h.leaves (.inr ⟨message, rfl⟩) (.inl trivial)
      | _ => exact h.leaves (.inl rfl) (.inl trivial)
  | locate toBlock seen =>
    cases reply with
    | ok now blockDate => exact h.locate
    | failed message => exact h.leaves (.inr ⟨message, rfl⟩) (.inl trivial)
    | _ => exact h.leaves (.inl rfl) (.inl trivial)
  | advance toBlock hash seen =>
    cases reply with
    | ok now blockDate => exact h.advance
    | failed message => exact h.leaves (.inr ⟨message, rfl⟩) (.inl trivial)
    | _ => exact h.leaves (.inl rfl) (.inl trivial)
  | report message =>
    cases reply with
    | ok now blockDate => exact h.report
    | _ => exact h.leaves (.inl rfl) (.inr fun hcompletes => hcompletes.2)

/-! ## Runs -/

variable {σ σ₀ σ₁ σ₂ σ₃ : System Unit} {reply : Reply}

/-- The ledger follows one of the chains. -/
def System.Following (st : Settings) (chains : Set Chain) (σ : System Unit) : Prop :=
  σ.chain ∈ chains ∧ ∃ followed ∈ chains, Sync.Follows st followed σ.chain (σ.stage ()) σ.db

/-- The ledger follows the current chain, or the run has not yet compared its checkpoint. -/
def System.Comparing (st : Settings) (chains : Set Chain) (σ : System Unit) : Prop :=
  σ.chain ∈ chains ∧ ∃ followed ∈ chains, Sync.Follows st followed σ.chain (σ.stage ()) σ.db ∧
    (followed = σ.chain ∨ ¬(σ.stage ()).Compared)

def System.Settled (st : Settings) (σ : System Unit) : Prop :=
  Sync.Follows st σ.chain σ.chain (σ.stage ()) σ.db

theorem System.Fresh.following (fresh : σ.Fresh) (member : σ.chain ∈ chains) :
    σ.Following st chains := by
  refine ⟨member, σ.chain, member, ⟨[], fresh.recorded⟩, fun c hc => ?_, fun _ _ _ => rfl, ?_, ?_⟩
  · rw [fresh.checkpoint] at hc
    cases hc
  · rw [fresh.idle ()]
    nofun
  · rw [fresh.idle ()]
    trivial

theorem stage_after : (σ.after st (.operation () reply)).stage () =
    (Sync.step st σ.chain reply (σ.stage ()) σ.db).1 :=
  Function.update_self () _ σ.stage

/-- One happening. -/
theorem System.Following.after (commits : HashesCommit chains) (h : σ.Following st chains)
    {x : Happening Unit} (hx : Traceable st chains σ x) : (σ.after st x).Following st chains := by
  obtain ⟨hmember, followed, hfollowed, hfollows⟩ := h
  cases x with
  | operation i reply =>
    obtain rfl : () = i := rfl
    refine ⟨hmember, ?_⟩
    rw [stage_after]
    rcases hfollows.step commits hfollowed hmember reply with hcurrent | ⟨hsame, -⟩
    · exact ⟨σ.chain, hmember, hcurrent⟩
    · exact ⟨followed, hfollowed, hsame⟩
  | reorg chain =>
    obtain ⟨hchain, hkept⟩ := hx
    refine ⟨hchain, followed, hfollowed, hfollows.recorded, hfollows.started, fun n hn hbinds => ?_,
      hfollows.seen, hfollows.stage⟩
    exact (hfollows.agrees n hn hbinds).trans (hkept n hn hbinds).symm

theorem System.Comparing.after (commits : HashesCommit chains) (h : σ.Comparing st chains)
    {x : Happening Unit} (hx : x.IsOperation) : (σ.after st x).Comparing st chains := by
  obtain ⟨hmember, followed, hfollowed, hfollows, hcase⟩ := h
  cases x with
  | reorg chain => exact hx.elim
  | operation i reply =>
    obtain rfl : () = i := rfl
    refine ⟨hmember, ?_⟩
    rw [stage_after]
    rcases hfollows.step commits hfollowed hmember reply with hcurrent | ⟨hsame, hcompared⟩
    · exact ⟨σ.chain, hmember, hcurrent, .inl rfl⟩
    · exact ⟨followed, hfollowed, hsame, hcase.imp_right fun hnot h => hnot (hcompared (.inl h))⟩

theorem System.Comparing.settles (commits : HashesCommit chains) (h : σ.Comparing st chains)
    (completes : Completes st σ.chain (σ.stage ()) σ.db reply) :
    (σ.after st (.operation () reply)).Settled st := by
  obtain ⟨hmember, followed, hfollowed, hfollows, hcase⟩ := h
  unfold System.Settled
  rw [stage_after]
  rcases hfollows.step commits hfollowed hmember reply with hcurrent | ⟨hsame, hcompared⟩
  · exact hcurrent
  · obtain rfl | hnot := hcase
    · exact hsame
    · exact absurd (hcompared (.inr completes)) hnot

theorem System.Settled.after (commits : HashesCommit chains) (member : σ.chain ∈ chains)
    (h : σ.Settled st) {x : Happening Unit} (hx : x.IsOperation) : (σ.after st x).Settled st := by
  cases x with
  | reorg chain => exact hx.elim
  | operation i reply =>
    obtain rfl : () = i := rfl
    unfold System.Settled
    rw [stage_after]
    rcases Sync.Follows.step commits member member h reply with hcurrent | ⟨hsame, -⟩
    · exact hcurrent
    · exact hsame

theorem Reached.chain_eq (h : Reached st (fun _ x => x.IsOperation) σ₀ σ) : σ.chain = σ₀.chain := by
  refine h.invariant (I := fun σ => σ.chain = σ₀.chain) rfl fun σ x hσ hx => ?_
  cases x with
  | reorg chain => exact hx.elim
  | operation i reply => exact hσ

/-- An operation, or a reorganisation of blocks that are not deep under the checkpoint. -/
def Shallow (st : Settings) (chains : Set Chain) (σ : System Unit) : Happening Unit → Prop
  | .operation _ _ => True
  | .reorg chain => chain ∈ chains ∧ ∀ c, σ.db.checkpoint = some c →
      ∀ n, n + st.rewindDepth ≤ c.lastProcessedBlock → chain.block n = σ.chain.block n

/-- If no reorganisation replaces what must stay, then, once the chain is at rest and a run that
began after that has returned, the ledger always has exactly the supported logs of the chain up to
the checkpoint. -/
theorem settled_chain_is_recorded (commits : HashesCommit chains) (fresh : σ₀.Fresh)
    (member : σ₀.chain ∈ chains) (h : Reached st (Traceable st chains) σ₀ σ₁)
    (idle : σ₁.stage () = .idle) (quiet : Reached st (fun _ x => x.IsOperation) σ₁ σ₂)
    (completes : Completes st σ₂.chain (σ₂.stage ()) σ₂.db reply)
    (further : Reached st (fun _ x => x.IsOperation) (σ₂.after st (.operation () reply)) σ₃) :
    ∃ logs, Enumerates SupportedEventLog.position
        (σ₃.chain.UpTo st (positionOf st.startBlock σ₃.db.checkpoint)) logs ∧
      List.Forall₂ (Records st.toDeployment) logs σ₃.db.chainEvents := by
  have hfollowing : σ₁.Following st chains :=
    h.invariant (fresh.following member) fun _ _ hσ hx => hσ.after commits hx
  have hcomparing : σ₁.Comparing st chains := by
    obtain ⟨hmember, followed, hfollowed, hfollows⟩ := hfollowing
    exact ⟨hmember, followed, hfollowed, hfollows, .inr (by rw [idle]; exact id)⟩
  have hlast : σ₂.Comparing st chains :=
    quiet.invariant hcomparing fun _ _ hσ hx => hσ.after commits hx
  have hsettled : σ₃.chain ∈ chains ∧ σ₃.Settled st :=
    further.invariant (I := fun σ => σ.chain ∈ chains ∧ σ.Settled st)
      ⟨hlast.1, hlast.settles commits completes⟩ fun σ x hσ hx => by
        refine ⟨?_, hσ.2.after commits hσ.1 hx⟩
        rw [(Reached.step x .start hx : Reached st (fun _ x => x.IsOperation) σ _).chain_eq]
        exact hσ.1
  obtain ⟨logs, hlogs⟩ := Sync.Follows.recorded hsettled.2
  exact ⟨logs, hlogs.logs, hlogs.chainEvents⟩

namespace Sample

/-- From block 5 on, another chain than `chain`: with the second review only. -/
def fork : Chain :=
  .single (fun n => if n < 5 then n else n + 1000) 5
    [⟨78, 0, some (.emitted (.tokenReviewAttested 6 1))⟩] (by decide)

/-- The chain without reviews that has the blocks of `chain` before the fifth. -/
def silent : Chain := .single id 5 [] (by decide)

theorem fork_agrees (logs : List RawLog) (nodup : (logs.map (·.logIndex)).Nodup) :
    HashesCommit {Chain.single id 5 logs nodup, fork} := by
  have hbelow : ∀ n < 5, (Chain.single id 5 logs nodup).block n = fork.block n := by
    intro n hn
    have hne : n ≠ 5 := by omega
    simp [fork, Chain.single, hn, hne]
  have hhash : ∀ b, ((Chain.single id 5 logs nodup).block b).hash = (fork.block b).hash →
      b < 5 := by
    intro b hb
    by_contra hge
    simp [fork, Chain.single, hge] at hb
  rintro c hc c' hc' b heq n hn
  rw [Set.mem_insert_iff, Set.mem_singleton_iff] at hc hc'
  obtain rfl | rfl := hc <;> obtain rfl | rfl := hc'
  · rfl
  · have hb := hhash b heq
    exact hbelow n (by omega)
  · have hb := hhash b heq.symm
    exact (hbelow n (by omega)).symm
  · rfl

def quietStart : System Unit := ⟨silent, noData, fun _ => .idle⟩

theorem fresh_quietStart : quietStart.Fresh :=
  ⟨rfl, rfl, fun r hr => absurd hr (by simp [quietStart, noData]), fun _ => rfl⟩

/-- A run stores block 3; the next one fetches the blocks 4 to 10, and then they are replaced. -/
def replaced : System Unit :=
  (quietStart.play settings (batch () 3 2 ++ batch () 10 1)).after settings (.reorg fork)

/-- It goes on with the hash of the new block 10, and another run finds no mismatch. -/
def unnoticed : System Unit :=
  replaced.play settings (List.replicate 2 (.operation () (.ok 0 none)) ++
    [.operation () (.began 10 0 500), .operation () (.ok 0 none)])

theorem reached_replaced :
    Reached settings (Shallow settings {silent, fork}) quietStart replaced := by
  refine .step _ (Reached.start.play (by simp [batch, Shallow])) ⟨by simp, fun c hc n hn => ?_⟩
  have hc' : c.lastProcessedBlock = 3 := by
    have h3 : ((quietStart.play settings (batch () 3 2 ++ batch () 10 1)).db.checkpoint.map
      (·.lastProcessedBlock)) = some 3 := by decide +kernel
    rw [hc] at h3
    exact Option.some.inj h3
  rw [hc'] at hn
  have hdepth : settings.rewindDepth = 50 := rfl
  omega

end Sample

/-- Blocks that are replaced after they were fetched, and before the hash of the last of them is
read, are never fetched again: the ledger stays without the log of block 5. -/
theorem replaced_batch_is_never_recorded :
    HashesCommit {Sample.silent, Sample.fork} ∧ Sample.quietStart.Fresh ∧
    Reached Sample.settings (Shallow Sample.settings {Sample.silent, Sample.fork}) Sample.quietStart
      Sample.replaced ∧
    Reached Sample.settings (fun _ x => x.IsOperation) Sample.replaced Sample.unnoticed ∧
    Completes Sample.settings Sample.unnoticed.chain (Sample.unnoticed.stage ()) Sample.unnoticed.db
      (.ok 0 none) ∧
    positionOf 1 (Sample.unnoticed.after Sample.settings
      (.operation () (.ok 0 none))).db.checkpoint = endOf 10 ∧
    (Sample.unnoticed.after Sample.settings (.operation () (.ok 0 none))).db.chainEvents = [] ∧
    ∃ x, x.blockNumber = 5 ∧ Sample.unnoticed.chain.Supports documentedDecoder x := by
  refine ⟨Sample.fork_agrees _ _, Sample.fresh_quietStart, Sample.reached_replaced,
    Reached.start.play (by simp [Happening.IsOperation]), ⟨by decide +kernel, ?_⟩,
    by decide +kernel, by decide +kernel, ?_⟩
  · have hstage : ∃ c, Sample.unnoticed.stage () = .check 10 500 c := by
      exact ⟨_, rfl⟩
    obtain ⟨c, hc⟩ := hstage
    rw [hc]
    trivial
  · obtain ⟨x, hx⟩ := Option.isSome_iff_exists.mp (show (parseSupportedEventLog documentedDecoder 5
      1005 ⟨78, 0, some (.emitted (.tokenReviewAttested 6 1))⟩).isSome = true from rfl)
    have hblock := (parse_fields hx).1
    exact ⟨x, hblock, _, by rw [hblock]; exact List.mem_singleton.mpr rfl, by rw [hblock]; exact hx⟩

namespace Sample

/-- A run ingests the two logs of `chain`, which is then replaced from block 5 on. -/
def reorganised : System Unit :=
  ((start Unit).play settings (batch () 9 3)).after settings (.reorg fork)

/-- The next run rewinds and is about to ingest the log of the fork. -/
def recovering : System Unit :=
  reorganised.play settings (batch () 9 2)

theorem recovering_completes : Completes settings recovering.chain (recovering.stage ())
    recovering.db (.ok 0 none) := by
  refine ⟨by decide +kernel, ?_⟩
  have hstage : ∃ log rest state seen,
    recovering.stage () = .ingest (log :: rest) state seen := ⟨_, _, _, _, rfl⟩
  obtain ⟨log, rest, state, seen, hstage⟩ := hstage
  rw [hstage]
  trivial

theorem chain_or_fork : HashesCommit {Sample.chain, fork} := fork_agrees _ _

theorem reached_reorganised :
    Reached settings (Traceable settings {Sample.chain, fork}) (start Unit) reorganised := by
  refine .step _ (Reached.start.play (by simp [batch, Traceable])) ⟨by simp, fun n hn hkept => ?_⟩
  have hstage : ((start Unit).play settings (batch () 9 3)).stage () = .idle := by decide +kernel
  have hrow : ((start Unit).play settings (batch () 9 3)).db.checkpoint.map
      (fun c => (c.lastProcessedBlock, c.lastProcessedBlockHash)) = some (5, some 5) := by
    decide +kernel
  rw [hstage] at hkept
  obtain ⟨c, hc, hfields⟩ := Option.map_eq_some_iff.mp hrow
  obtain ⟨block, hash, index, state, error⟩ := c
  obtain ⟨rfl, rfl⟩ := Prod.mk.inj hfields
  rw [hc] at hkept
  have hdeep : n + 50 ≤ 5 := hkept.resolve_left id
  omega

end Sample

/-- It ingests it. -/
theorem reorganised_sample_is_recorded :
    ∃ logs, Enumerates SupportedEventLog.position
        ((Sample.recovering.after Sample.settings (.operation () (.ok 0 none))).chain.UpTo
          Sample.settings (positionOf 1 (Sample.recovering.after Sample.settings
            (.operation () (.ok 0 none))).db.checkpoint)) logs ∧
      List.Forall₂ (Records Sample.settings.toDeployment) logs
        (Sample.recovering.after Sample.settings (.operation () (.ok 0 none))).db.chainEvents :=
  settled_chain_is_recorded Sample.chain_or_fork (Sample.fresh_start Unit) (.inl rfl)
    Sample.reached_reorganised (by decide +kernel)
    (Reached.start.play (by simp [Sample.batch, Happening.IsOperation]))
    Sample.recovering_completes .start

end EscrowFlow.Sync
