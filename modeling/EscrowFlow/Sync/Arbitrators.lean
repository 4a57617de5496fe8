import EscrowFlow.Sync.Replay

/-! # The arbitrator mirror

The service counts arbitrators by adding and subtracting one and takes thresholds from the events.
The contract also sets the threshold where it emits nothing: when the first arbitrator joins it
becomes 1, which it was already.
-/

namespace EscrowFlow.Registry
set_option autoImplicit false

/-- Without arbitrators the threshold is 1. -/
def Docket.Alone (D : Docket) : Prop := D.arbitratorCount = 0 → D.arbitratorThreshold = 1

theorem Post.alone {J J' : Journal} (h : J.docket.Alone) (hpost : Post J J') : J'.docket.Alone := by
  have hnormalized : ∀ n, n = 0 → normalizedThreshold n J.docket.arbitratorThreshold = 1 := by
    rintro n rfl
    exact if_pos rfl
  cases hpost with
  | joined account caller new => exact fun hcount => absurd hcount (Nat.succ_ne_zero _)
  | left account caller had fits => exact hnormalized _
  | lowered account caller had => exact hnormalized _
  | threshold n caller pos le =>
    intro hcount
    have hcount : J.docket.arbitratorCount = 0 := hcount
    omega
  | _ => exact h

end EscrowFlow.Registry

namespace EscrowFlow.Sync
open EscrowFlow.Foundations EscrowFlow.Registry
set_option autoImplicit false

variable {c : Scope} {s : Tables} {d : Deployment} {F : Feed}

/-! ## What the tables say -/

def Projections.membership (x : Projections) (d : Deployment) (role : Role) (account : Address) :
    Option RoleMembershipState :=
  x.roleMembershipStates.find? fun r => r.deployment = d ∧ r.role = .role role ∧ r.account = account

def Projections.governance (x : Projections) (d : Deployment) : Option ArbitratorGovernanceState :=
  x.arbitratorGovernanceStates.find? fun r => r.deployment = d

/-- The tables say who has which role, how many arbitrators there are and how many must agree. A
missing row or threshold is read as no role, no arbitrator and a threshold of 1. -/
structure Projections.MirrorsRoles (x : Projections) (d : Deployment) (hasRole : Role → Address → Bool)
    (count threshold : ℕ) : Prop where
  active : ∀ role account, (x.membership d role account).any (·.isActive) = hasRole role account
  count : ((x.governance d).map (·.arbitratorCount)).getD 0 = count
  threshold : ((x.governance d).bind (·.arbitratorThreshold)).getD 1 = threshold

/-- No row of the deployment is there yet. -/
structure Projections.NoRoles (x : Projections) (d : Deployment) : Prop where
  memberships : ∀ r ∈ x.roleMembershipStates, r.deployment ≠ d
  governance : ∀ r ∈ x.arbitratorGovernanceStates, r.deployment ≠ d

theorem Projections.NoRoles.mirrors {x : Projections} (h : x.NoRoles d) :
    x.MirrorsRoles d (fun _ _ => false) 0 1 := by
  have hmembership : ∀ role account, x.membership d role account = none := by
    intro role account
    refine List.find?_eq_none.mpr fun r hr => ?_
    simp [h.memberships r hr]
  have hgovernance : x.governance d = none := by
    refine List.find?_eq_none.mpr fun r hr => ?_
    simp [h.governance r hr]
  refine ⟨fun role account => ?_, ?_, ?_⟩
  · rw [hmembership]
    rfl
  · rw [hgovernance]
    rfl
  · rw [hgovernance]
    rfl

/-! ## Changes of the tables -/

section Change

theorem membership_upsert {rows : List RoleMembershipState} {role : Role} {account : Address}
    {b : Bool} {f : RoleMembershipState → RoleMembershipState} {create : RoleMembershipState}
    (hf : ∀ r, (f r).deployment = r.deployment ∧ (f r).role = r.role ∧ (f r).account = r.account ∧
      (f r).isActive = b)
    (hcreate : create.deployment = d ∧ create.role = .role role ∧ create.account = account ∧
      create.isActive = b) (role' : Role) (account' : Address) :
    ((Table.upsert (fun r => r.deployment = d ∧ r.role = .role role ∧ r.account = account) f create
      rows).find? fun r => r.deployment = d ∧ r.role = .role role' ∧ r.account = account').any
        (·.isActive) =
      if role' = role ∧ account' = account then b
      else (rows.find? fun r =>
        r.deployment = d ∧ r.role = .role role' ∧ r.account = account').any (·.isActive) := by
  by_cases hhere : role' = role ∧ account' = account
  · obtain ⟨rfl, rfl⟩ := hhere
    rw [if_pos ⟨rfl, rfl⟩, Table.find?_upsert (fun r hr => by simpa [hf r] using hr) (by simp [hcreate])]
    cases rows.find? _ with
    | none => exact hcreate.2.2.2
    | some r => exact (hf r).2.2.2
  · have hother : ∀ r : RoleMembershipState, r.role = .role role → r.account = account →
        ¬(r.deployment = d ∧ r.role = .role role' ∧ r.account = account') := by
      rintro r hrole haccount ⟨-, hrole', haccount'⟩
      exact hhere ⟨(Text.role.inj (hrole.symm.trans hrole')).symm, haccount'.symm.trans haccount⟩
    have hrow : ∀ r : RoleMembershipState,
        decide (r.deployment = d ∧ r.role = .role role ∧ r.account = account) = true →
        decide (r.deployment = d ∧ r.role = .role role' ∧ r.account = account') = false ∧
        decide ((f r).deployment = d ∧ (f r).role = .role role' ∧ (f r).account = account') = false := by
      intro r hr
      obtain ⟨-, hrole, haccount⟩ := of_decide_eq_true hr
      obtain ⟨-, hrole', haccount', -⟩ := hf r
      exact ⟨decide_eq_false (hother r hrole haccount),
        decide_eq_false (hother (f r) (hrole'.trans hrole) (haccount'.trans haccount))⟩
    rw [if_neg hhere, Table.find?_upsert_of_ne hrow
      (decide_eq_false (hother create hcreate.2.1 hcreate.2.2.1))]

theorem governance_upsert {rows : List ArbitratorGovernanceState}
    {f : ArbitratorGovernanceState → ArbitratorGovernanceState} {create : ArbitratorGovernanceState}
    (hf : ∀ r, (f r).deployment = r.deployment) (hcreate : create.deployment = d) :
    (Table.upsert (fun r => r.deployment = d) f create rows).find? (fun r => r.deployment = d) =
      some (((rows.find? fun r => r.deployment = d).map f).getD create) :=
  Table.find?_upsert (fun r hr => by simpa [hf r] using hr) (by simp [hcreate]) rows

end Change

/-! ## The handler -/

def EventName.governs : EventName → Bool
  | .RoleGranted => true
  | .RoleRevoked => true
  | .ArbitratorThresholdUpdated => true
  | _ => false

theorem reports_of_governs (e : Event) (h : (ContractEvent.emitted e).name.governs = true) :
    e.reports = true := by
  cases e with
  | roleGranted | roleRevoked | arbitratorThresholdUpdated => rfl
  | _ => cases h

section Handler
variable {log : SupportedEventLog} {hasRole : Role → Address → Bool} {count threshold : ℕ}

/-- A change of a role is booked, and counted when the role is the arbitrators'. -/
theorem syncRoleMembership_mirrors {role : Role} {account : Address} {isActive : Bool}
    (h : s.projections.MirrorsRoles c.toDeployment hasRole count threshold)
    (hrole : asBytes32 (leafAt log.args .role) = .role role)
    (haccount : asAddress (leafAt log.args .account) = account)
    (hchange : hasRole role account = !isActive) :
    (syncRoleMembership log isActive).wp (fun _ s' => s'.projections.MirrorsRoles c.toDeployment
      (update2 hasRole role account isActive)
      (if role = .arbitrator then if isActive = true then count + 1 else count - 1 else count)
      threshold) (fun _ => True) c s := by
  unfold syncRoleMembership
  simp only [hrole, haccount, Tx.wp_bind, wp_deployment, wp_projections, wp_modifyProjections,
    upsertRoleGovernanceEvent, Tx.wp_ite, wp_intColumn, Tx.wp_pure]
  change (_ ∧ (s.projections.membership c.toDeployment role account).map (·.isActive) ≠ _ → _) ∧ _
  have hexisting : (s.projections.membership c.toDeployment role account).map (·.isActive) ≠
      some isActive := by
    have hactive := h.active role account
    rw [hchange] at hactive
    cases hrow : s.projections.membership c.toDeployment role account with
    | none => rintro ⟨⟩
    | some r =>
      rw [hrow] at hactive
      have hactive : r.isActive = !isActive := hactive
      simp [hactive]
  refine ⟨fun harbitrator => ⟨fun _ => trivial, fun _ => ?_⟩, fun hother => ?_⟩
  · rw [if_pos (Text.role.inj harbitrator.1)]
    refine ⟨fun role' account' => ?_, ?_, ?_⟩
    · unfold Projections.membership
      rw [membership_upsert, update2_apply, ← h.active]
      · rfl
      · exact fun _ => ⟨rfl, rfl, rfl, rfl⟩
      · exact ⟨rfl, rfl, rfl, rfl⟩
    · rw [← h.count]
      unfold Projections.governance
      rw [governance_upsert]
      · cases s.projections.arbitratorGovernanceStates.find? _ <;> rfl
      · exact fun _ => rfl
      · rfl
    · rw [← h.threshold]
      unfold Projections.governance
      rw [governance_upsert]
      · cases s.projections.arbitratorGovernanceStates.find? _ <;> rfl
      · exact fun _ => rfl
      · rfl
  · have hne : role ≠ .arbitrator := fun heq => hother ⟨congrArg Text.role heq, hexisting⟩
    rw [if_neg hne]
    refine ⟨fun role' account' => ?_, h.count, h.threshold⟩
    unfold Projections.membership
    rw [membership_upsert, update2_apply, ← h.active]
    · rfl
    · exact fun _ => ⟨rfl, rfl, rfl, rfl⟩
    · exact ⟨rfl, rfl, rfl, rfl⟩

/-- The threshold of an event is booked. -/
theorem threshold_mirrors {newThreshold : ℕ} (hname : log.name = .ArbitratorThresholdUpdated)
    (h : s.projections.MirrorsRoles c.toDeployment hasRole count threshold)
    (hnew : asBigInt (leafAt log.args .newThreshold) = newThreshold) :
    (syncRoleAndArbitratorGovernanceState log).wp
      (fun _ s' => s'.projections.MirrorsRoles c.toDeployment hasRole count newThreshold)
      (fun _ => True) c s := by
  unfold syncRoleAndArbitratorGovernanceState
  rw [Tx.wp_bind, wp_deployment, hname]
  simp only [hnew, Tx.wp_bind, wp_bigIntColumn, wp_projections, wp_modifyProjections, implies_true,
    true_and]
  intro _ _
  refine ⟨h.active, ?_, ?_⟩
  · rw [← h.count]
    unfold Projections.governance
    rw [governance_upsert]
    · cases s.projections.arbitratorGovernanceStates.find? _ <;> rfl
    · exact fun _ => rfl
    · rfl
  · unfold Projections.governance
    rw [governance_upsert]
    · cases s.projections.arbitratorGovernanceStates.find? _ <;> rfl
    · exact fun _ => rfl
    · rfl

/-- A grant or a revocation by the contract. -/
theorem roleGranted_mirrors {role : Role} {account : Address} (sender : Address) (n : ℕ)
    (h : s.projections.MirrorsRoles c.toDeployment hasRole count threshold)
    (hnew : hasRole role account = false) :
    (syncRoleAndArbitratorGovernanceState (F.log n (.roleGranted role account sender))).wp
      (fun _ s' => s'.projections.MirrorsRoles c.toDeployment (update2 hasRole role account true)
        (if role = .arbitrator then count + 1 else count) threshold) (fun _ => True) c s := by
  have hrole := F.asBytes32_log (n := n) (e := .roleGranted role account sender) (f := .role)
    (List.mem_cons_self)
  have haccount := F.asAddress_log (n := n) (e := .roleGranted role account sender) (f := .account)
    (List.mem_cons_of_mem _ List.mem_cons_self)
  unfold syncRoleAndArbitratorGovernanceState
  rw [Tx.wp_bind, wp_deployment]
  exact syncRoleMembership_mirrors h hrole haccount hnew

theorem roleRevoked_mirrors {role : Role} {account : Address} (sender : Address) (n : ℕ)
    (h : s.projections.MirrorsRoles c.toDeployment hasRole count threshold)
    (hhad : hasRole role account = true) :
    (syncRoleAndArbitratorGovernanceState (F.log n (.roleRevoked role account sender))).wp
      (fun _ s' => s'.projections.MirrorsRoles c.toDeployment (update2 hasRole role account false)
        (if role = .arbitrator then count - 1 else count) threshold) (fun _ => True) c s := by
  have hrole := Feed.asBytes32_log (F := F) (n := n) (e := .roleRevoked role account sender)
    (f := .role) (List.mem_cons_self)
  have haccount := F.asAddress_log (n := n) (e := .roleRevoked role account sender) (f := .account)
    (List.mem_cons_of_mem _ List.mem_cons_self)
  unfold syncRoleAndArbitratorGovernanceState
  rw [Tx.wp_bind, wp_deployment]
  exact syncRoleMembership_mirrors h hrole haccount hhad

theorem arbitratorThresholdUpdated_mirrors {previous new : ℕ} {caller : Address} (n : ℕ)
    (h : s.projections.MirrorsRoles c.toDeployment hasRole count threshold) :
    (syncRoleAndArbitratorGovernanceState
      (F.log n (.arbitratorThresholdUpdated previous new caller))).wp
      (fun _ s' => s'.projections.MirrorsRoles c.toDeployment hasRole count new) (fun _ => True) c
      s := by
  exact threshold_mirrors rfl h (Feed.asBigInt_log (List.mem_cons_of_mem _ List.mem_cons_self))

end Handler

/-! ## Runs -/

/-- After the logs of a history the tables say what the docket does about roles. -/
def RolesFollowed (F : Feed) (c : Scope) (s : Tables) (D : Docket) (history : List Record) : Prop :=
  (F.replay EventName.governs syncRoleAndArbitratorGovernanceState history).wp
    (fun _ s' => s'.projections.MirrorsRoles c.toDeployment D.hasRole D.arbitratorCount
      D.arbitratorThreshold) (fun _ => True) c s

section Followed
variable {D : Docket} {history : List Record} {e : Event}

theorem RolesFollowed.handled (h : RolesFollowed F c s D history) (D' : Docket)
    (he : (ContractEvent.emitted e).name.governs = true)
    (hstep : ∀ n s, s.projections.MirrorsRoles c.toDeployment D.hasRole D.arbitratorCount
      D.arbitratorThreshold →
      (syncRoleAndArbitratorGovernanceState (F.log n e)).wp (fun _ s' =>
        s'.projections.MirrorsRoles c.toDeployment D'.hasRole D'.arbitratorCount
          D'.arbitratorThreshold) (fun _ => True) c s) :
    RolesFollowed F c s D' (.event e :: history) :=
  (F.wp_replay_handled _ _ he).mpr (Tx.wp_mono h (fun _ s' hs' => hstep _ s' hs') fun _ => id)

theorem RolesFollowed.other (h : RolesFollowed F c s D history)
    (he : (ContractEvent.emitted e).name.governs = false) :
    RolesFollowed F c s D (.event e :: history) := (F.wp_replay_other _ _ he).mpr h

end Followed

theorem rolesFollowed_post {J J' : Journal} (halone : J.docket.Alone)
    (h : RolesFollowed F c s J.docket J.history) (hpost : Post J J') :
    RolesFollowed F c s J'.docket J'.history := by
  cases hpost with
  | note r idle => exact (F.wp_replay_idle _ _ reports_of_governs idle).mpr h
  | granted role account caller other new =>
    refine h.handled _ rfl fun n s hs => ?_
    have hbooked := roleGranted_mirrors (F := F) caller n hs new
    rw [if_neg other] at hbooked
    exact hbooked
  | revoked role account caller other had =>
    refine h.handled _ rfl fun n s hs => ?_
    have hbooked := roleRevoked_mirrors (F := F) caller n hs had
    rw [if_neg other] at hbooked
    exact hbooked
  | joined account caller new =>
    refine h.handled _ rfl fun n s hs => ?_
    -- the contract resets the threshold silently, to what it was
    have hsilent : (if J.docket.arbitratorCount + 1 = 1 then 1 else J.docket.arbitratorThreshold) =
        J.docket.arbitratorThreshold := by
      split
      · exact (halone (by omega)).symm
      · rfl
    rw [← hsilent] at hs
    exact roleGranted_mirrors _ n hs new
  | left account caller had fits =>
    refine h.handled _ rfl fun n s hs => ?_
    rw [← fits] at hs
    exact roleRevoked_mirrors _ n hs had
  | lowered account caller had =>
    refine RolesFollowed.handled (h.handled (J.docket.reconfigure
      (update2 J.docket.hasRole .arbitrator account false) (J.docket.arbitratorCount - 1)
      J.docket.arbitratorThreshold) rfl fun n s hs => roleRevoked_mirrors _ n hs had) _ rfl
      fun n s hs => arbitratorThresholdUpdated_mirrors n hs
  | threshold n caller pos le =>
    exact h.handled _ rfl fun n s hs => arbitratorThresholdUpdated_mirrors n hs
  | resolved p i e event closed => cases event <;> exact h.other rfl
  | cancelled p e event closed => cases event <;> exact h.other rfl
  | close | authorized | named | unnamed | accepted => exact h.other rfl
  | propose | withdraw | execute => exact (F.wp_replay_other _ _ (by rfl)).mpr h
  | tick | create | submit | turn | raise | append | clear => exact h

theorem deployed_roles (hfresh : s.projections.NoRoles c.toDeployment) (admin deployer : Address)
    (t : ℕ) (b : Address → Address → ℕ) :
    RolesFollowed F c s (deployed admin deployer t b).journal.docket
      (deployed admin deployer t b).journal.history := by
  have hstart : RolesFollowed F c s Storage.zero.docket [] := (Tx.wp_pure _).mpr hfresh.mirrors
  have hadmin := hstart.handled (Storage.zero.docket.setRole .defaultAdmin admin true)
    (e := .roleGranted .defaultAdmin admin deployer) rfl fun n s hs => roleGranted_mirrors _ n hs rfl
  refine hadmin.handled _ rfl fun n s hs => roleGranted_mirrors _ n hs ?_
  show update2 _ Role.defaultAdmin admin true Role.pauser admin = false
  rw [update2_apply, if_neg (by simp)]
  rfl

/-- The arbitrator mirror: after its logs, in order and once each, the tables say who has which role,
how many arbitrators there are and how many must agree. -/
theorem arbitrator_mirror {self : Address} {steady : Address → Prop} {w : World} {s s' : Tables}
    (F : Feed) (h : Reachable self steady w) (hfresh : s.projections.NoRoles c.toDeployment)
    (hlogs : F.replay EventName.governs syncRoleAndArbitratorGovernanceState w.history c s =
      .ok ((), s')) :
    s'.projections.MirrorsRoles c.toDeployment w.storage.hasRole w.storage.arbitratorCount
      w.storage.arbitratorThreshold := by
  have hfollowed : w.journal.docket.Alone ∧ RolesFollowed F c s w.journal.docket w.journal.history :=
    h.journal_invariant (I := fun J => J.docket.Alone ∧ RolesFollowed F c s J.docket J.history)
      (fun admin deployer t b _ => ⟨fun _ => rfl, deployed_roles hfresh admin deployer t b⟩)
      fun _ _ hJ hpost => ⟨Post.alone hJ.1 hpost, rolesFollowed_post hJ.1 hJ.2 hpost⟩
  have hreplayed := hfollowed.2
  unfold RolesFollowed at hreplayed
  have hmirrors := Tx.wp_of_ok hreplayed hlogs
  exact hmirrors

namespace Sample

/-- A second arbitrator joins, both have to agree, and one of them leaves. -/
def election : List Move :=
  [.call Registry.Sample.admin (.grantRole .arbitrator 6),
   .call Registry.Sample.admin (.setArbitratorThreshold 2),
   .call 6 (.renounceRole .arbitrator 6)]

end Sample

theorem lowered_sample_mirrored :
    let w := Registry.Sample.after Sample.election
    w.storage.arbitratorCount = 1 ∧ ∃ s', Sample.feed.replay EventName.governs
        syncRoleAndArbitratorGovernanceState w.history (Sample.settings.scope 0) Sample.noTables =
        .ok ((), s') ∧
      s'.projections.MirrorsRoles ⟨1, 100⟩ w.storage.hasRole w.storage.arbitratorCount
        w.storage.arbitratorThreshold := by
  refine ⟨by decide +kernel, ?_⟩
  obtain ⟨s', hs'⟩ := Sample.feed.exists_of_isOk EventName.governs
    syncRoleAndArbitratorGovernanceState (c := Sample.settings.scope 0) (s := Sample.noTables)
    (by decide +kernel : (Sample.feed.replay EventName.governs syncRoleAndArbitratorGovernanceState
      (Registry.Sample.after Sample.election).history (Sample.settings.scope 0)
        Sample.noTables).isOk = true)
  exact ⟨s', hs', arbitrator_mirror Sample.feed (Registry.Sample.reachable_after _ (by decide))
    ⟨fun r hr => absurd hr List.not_mem_nil, fun r hr => absurd hr List.not_mem_nil⟩ hs'⟩

end EscrowFlow.Sync
