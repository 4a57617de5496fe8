import EscrowFlow.Registry.Run

/-! # Scripted runs

A script is a list of transactions with the time that passes between them, sent to a registry whose
tokens are standard: they move exactly what they are asked to move, or fail. Playing a script is a
run, so what it leads to is reachable.
-/

namespace EscrowFlow.Registry
open EscrowFlow.Foundations
set_option autoImplicit false

/-! ## Standard tokens -/

/-- `amount` of `token` moves from `holder` to `to_`, if `holder` has it. -/
def erc20Move (token holder to_ : Address) (amount : ℕ) (w : World) : TokenReturn × World :=
  if w.balanceOf token holder < amount then (⟨false, []⟩, w)
  else
    let debited := update2 w.balanceOf token holder (w.balanceOf token holder - amount)
    (⟨true, []⟩, { w with
      balanceOf := update2 debited token to_ (debited token to_ + amount) })

/-- The code of a standard ERC20 token, asked by the registry at `self`. -/
def erc20 (self : Address) : TokenCall → World → TokenReturn × World
  | .transfer token to_ amount, w => erc20Move token self to_ amount w
  | .transferFrom token holder to_ amount, w => erc20Move token holder to_ amount w

variable {self : Address} {steady : Address → Prop}

theorem erc20_run (tc : TokenCall) (stack : List Address) (w : World) :
    Run self steady (tc.token :: stack) w (erc20 self tc w).2 := by
  have hmove : ∀ token holder to_ amount,
      Run self steady (token :: stack) w (erc20Move token holder to_ amount w).2 := by
    intro token holder to_ amount
    unfold erc20Move
    split
    · exact .refl _ w
    · refine .balances _ (.refl _ w) fun T _ hT => ?_
      have hne : T ≠ token := fun heq => hT (by simp [heq])
      simp [update2_apply, hne]
  cases tc with
  | transfer token to_ amount => exact hmove token self to_ amount
  | transferFrom token holder to_ amount => exact hmove token holder to_ amount

/-! ## Scripts -/

inductive Move
  | call (sender : Address) (call : Call)
  | wait (seconds : ℕ)

/-- The senders a transaction can have. -/
def Move.Sendable (self : Address) : Move → Prop
  | .call sender _ => sender ≠ self ∧ sender ≠ zeroAddress
  | .wait _ => True

instance (self : Address) (m : Move) : Decidable (m.Sendable self) := by
  cases m <;> unfold Move.Sendable <;> infer_instance

/-- A call from `sender` in the chain `site` describes, with standard tokens. -/
def Message.standard (site : Message) (sender : Address) : Env :=
  { site with sender := sender, token := erc20 site.this }

/-- Playing one move; a call that reverts leaves the world as it is. -/
def Move.play (site : Message) : Move → World → World
  | .call sender c, w =>
    match exec (site.standard sender) c w with
    | .ok v => v
    | .error _ => w
  | .wait seconds, w => { w with timestamp := w.timestamp + seconds }

theorem exec_play {site : Message} {sender : Address} {c : Call} {w : World}
    (h : (exec (site.standard sender) c w).isOk = true) :
    exec (site.standard sender) c w = .ok ((Move.call sender c).play site w) := by
  cases hx : exec (site.standard sender) c w with
  | ok v =>
    simp only [Move.play, hx]
  | error e =>
    rw [hx] at h
    cases h

def play (site : Message) (script : List Move) (w : World) : World :=
  script.foldl (fun v m => m.play site v) w

theorem Run.play (site : Message) {script : List Move} {w v : World}
    (h : Run site.this steady [] w v) (hs : ∀ m ∈ script, m.Sendable site.this) :
    Run site.this steady [] w (Registry.play site script v) := by
  induction script generalizing v with
  | nil => exact h
  | cons m script ih =>
    refine ih ?_ fun m' hm' => hs m' (List.mem_cons_of_mem m hm')
    have hm := hs m (by simp)
    cases m with
    | wait seconds => exact .tick _ h (Nat.le_add_right _ _)
    | call sender c =>
      show Run site.this steady [] w
        (match exec (site.standard sender) c v with
        | .ok v' => v'
        | .error _ => v)
      split
      · rename_i v' hx
        exact .call (site.standard sender) c h rfl hm.1 hm.2
          (fun tc u => erc20_run tc [] u) hx
      · exact h

/-- What a script leads to from a fresh deployment. -/
theorem Reachable.play (site : Message) {script : List Move} {admin deployer : Address} {t : ℕ}
    {b : Address → Address → ℕ} (hadmin : admin ≠ zeroAddress)
    (hs : ∀ m ∈ script, m.Sendable site.this) :
    Reachable site.this steady (Registry.play site script (deployed admin deployer t b)) :=
  ⟨admin, deployer, t, b, hadmin, Run.play site (.refl _ _) hs⟩

/-- A call that reverts leaves the world as it is. -/
def attempt (env : Env) (c : Call) (w : World) : World :=
  match exec env c w with
  | .ok v => v
  | .error _ => w

theorem Reachable.attempt {self : Address} {env : Env} {w : World} (h : Reachable self steady w)
    (c : Call) (hthis : env.this = self) (hself : env.sender ≠ self)
    (hzero : env.sender ≠ zeroAddress)
    (htoken : ∀ tc v, Run self steady [tc.token] v (env.token tc v).2) :
    Reachable self steady (Registry.attempt env c w) := by
  unfold Registry.attempt
  split
  · rename_i v hx
    obtain ⟨a, d, t, b, ha, hrun⟩ := h
    exact ⟨a, d, t, b, ha, .call env c hrun hthis hself hzero htoken hx⟩
  · exact h

/-- A chain on which every token, when it is called, lets `sender` call `c` before it answers. -/
def Message.reentered (site : Message) (sender : Address) (c : Call) : Env :=
  { site with
    token := fun tc w => erc20 site.this tc ((Move.call sender c).play site w) }

theorem reentered_run (site : Message) {sender : Address} (c : Call) (hself : sender ≠ site.this)
    (hzero : sender ≠ zeroAddress) (tc : TokenCall) (w : World) :
    Run site.this steady [tc.token] w ((site.reentered sender c).token tc w).2 := by
  have hcall : Run site.this steady [tc.token] w ((Move.call sender c).play site w) := by
    rw [Move.play]
    split
    · rename_i v hx
      exact .call (site.standard sender) _ (.refl _ w) rfl hself hzero
        (fun tc' u => erc20_run tc' _ u) hx
    · exact .refl _ w
  exact hcall.trans (erc20_run tc [] _)

/-! ## A small registry

The addresses and the first transactions the examples of this development share. -/

namespace Sample

def registry : Address := 100
def admin : Address := 1
def client : Address := 2
def freelancer : Address := 3
def arbitrator : Address := 4
def token : Address := 5

/-- A chain on which tokens have code, nobody else does, and no signature is valid. -/
def site : Message where
  this := registry
  sender := admin
  codeLength := fun a => if a = token then 1 else 0
  isValidSignature := fun _ _ _ => none
  ecrecover := fun _ _ _ _ => zeroAddress

def start : World := deployed admin admin 1000 fun _ a => if a = client then 1000 else 0

/-- The token is allowed, and the client opens project 1 with two milestones for `freelancer`. -/
def opening (freelancer : Address) : List Move :=
  [.call admin (.attestTokenReviewForAllowlist token),
   .call admin (.setAllowedToken token true),
   .call admin (.grantRole .arbitrator arbitrator),
   .call client (.createProject freelancer token [] [⟨10, 2000⟩, ⟨20, 3000⟩])]

/-- The world after `opening`, full funding of project 1 and the transactions of `script`. -/
def after (script : List Move) : World :=
  play site (opening freelancer ++ .call client (.fundProject 1 30) :: script) start

theorem reachable_after (script : List Move) (hs : ∀ m ∈ script, m.Sendable registry) :
    Reachable registry (fun _ => True) (after script) := by
  refine Reachable.play site (by decide) fun m hm => ?_
  rcases List.mem_append.mp hm with hm | hm
  · exact (by decide : ∀ m ∈ opening freelancer, m.Sendable registry) m hm
  · rcases List.mem_cons.mp hm with rfl | hm
    · exact (by decide)
    · exact hs m hm

end Sample
end EscrowFlow.Registry
