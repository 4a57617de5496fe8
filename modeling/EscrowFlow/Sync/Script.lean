import EscrowFlow.Sync.Runs

/-! # Scheduled runs

A schedule is a list of happenings; playing it is a run. The sample chains have supported logs in one
block only.
-/

namespace EscrowFlow.Sync
open EscrowFlow.Foundations EscrowFlow.Registry
set_option autoImplicit false

section
variable {ι : Type} [DecidableEq ι] {st : Settings} {allowed : System ι → Happening ι → Prop}

def System.play (st : Settings) (σ : System ι) (schedule : List (Happening ι)) : System ι :=
  schedule.foldl (fun σ x => σ.after st x) σ

theorem Reached.play {σ₀ σ : System ι} {schedule : List (Happening ι)}
    (h : Reached st allowed σ₀ σ) (hx : ∀ x ∈ schedule, ∀ σ, allowed σ x) :
    Reached st allowed σ₀ (σ.play st schedule) := by
  induction schedule generalizing σ with
  | nil => exact h
  | cons x schedule ih =>
    exact ih (.step x h (hx x (by simp) σ)) fun y hy => hx y (List.mem_cons_of_mem x hy)

/-- Each happening of the schedule is allowed when it comes. -/
def System.Follows (st : Settings) (allowed : System ι → Happening ι → Prop) :
    System ι → List (Happening ι) → Prop
  | _, [] => True
  | σ, x :: schedule => allowed σ x ∧ System.Follows st allowed (σ.after st x) schedule

instance [∀ σ x, Decidable (allowed σ x)] :
    ∀ (schedule : List (Happening ι)) (σ : System ι),
      Decidable (System.Follows st allowed σ schedule)
  | [], _ => isTrue trivial
  | x :: schedule, σ =>
    have := instDecidableFollows schedule (σ.after st x)
    inferInstanceAs (Decidable (_ ∧ _))

theorem Reached.follow {σ₀ σ : System ι} {schedule : List (Happening ι)}
    (h : Reached st allowed σ₀ σ) (hx : System.Follows st allowed σ schedule) :
    Reached st allowed σ₀ (σ.play st schedule) := by
  induction schedule generalizing σ with
  | nil => exact h
  | cons x schedule ih => exact ih (.step x h hx.1) hx.2

end

/-- The chain whose only logs are those of block `b`. -/
def Chain.single (hash : ℕ → ℕ) (b : ℕ) (logs : List RawLog)
    (nodup : (logs.map (·.logIndex)).Nodup) : Chain where
  block n := ⟨hash n, if n = b then logs else []⟩
  nodup n := by
    dsimp only
    split
    · exact nodup
    · exact List.nodup_nil
  unique n n' l l' hl hl' _ := by
    dsimp only at hl hl'
    split at hl
    · split at hl'
      · rename_i hn hn'
        rw [hn, hn']
      · cases hl'
    · cases hl

/-- The documented decoder. -/
def documentedDecoder : Decoder where
  decode
    | .uint bits n => if bits ≤ 48 then .number n else .bigint n
    | .address a => .string (.address a)
    | .bool b => .bool b
    | .role r => .string (.role r)
    | .action a => .string (.action a)
    | .string b => .string (.bytes b)
  uint _ _ h := if_neg (Nat.not_le.mpr h)
  address _ := rfl
  bool _ := rfl
  role _ := rfl
  action _ := rfl
  string _ := rfl

theorem documentedDecoder_documented : documentedDecoder.Documented := fun _ _ h => if_pos h

namespace Sample

def settings : Settings where
  chainId := 1
  contractAddress := 100
  startBlock := 1
  rewindDepth := 50
  startBlock_pos := by decide
  rewindDepth_pos := by decide
  decoder := documentedDecoder

def noTables : Tables where
  nextId := 1
  users := []
  projects := []
  milestones := []
  submissions := []
  disputes := []
  projections := ⟨[], [], [], [], [], [], [], []⟩

def noData : Database := ⟨noTables, [], none, []⟩

/-- Two tokens are reviewed in one transaction of block 5. -/
def reviews : List RawLog :=
  [⟨77, 0, some (.emitted (.tokenReviewAttested 5 1))⟩,
   ⟨77, 1, some (.emitted (.tokenReviewAttested 6 1))⟩]

def chain : Chain := .single id 5 reviews (by decide)

/-- All operations of a run that ingests `n` logs. -/
def batch {ι : Type} (i : ι) (latest n : ℕ) : List (Happening ι) :=
  .operation i (.began latest 0 500) :: List.replicate (2 + n) (.operation i (.ok 0 none))

/-- One idle runner, or several. -/
def start (ι : Type) : System ι := ⟨chain, noData, fun _ => .idle⟩

theorem fresh_start (ι : Type) : (start ι).Fresh :=
  ⟨rfl, rfl, fun r hr => absurd hr (by simp [start, noData]), fun _ => rfl⟩

end Sample
end EscrowFlow.Sync
