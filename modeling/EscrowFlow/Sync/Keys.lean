import EscrowFlow.Sync.Domain

/-! # Keys of the application's rows

The columns of users, projects, milestones, submissions and disputes that `schema.prisma` declares to
be unique or to refer to another row, and what it takes to create a row beside the others.
-/

namespace EscrowFlow.Sync
open EscrowFlow.Foundations EscrowFlow.Registry
set_option autoImplicit false

/-! ## The columns in question -/

structure ProjectKey where
  id : ℕ
  clientUserId : ℕ
  freelancerUserId : Option ℕ

structure MilestoneKey where
  id : ℕ
  projectId : ℕ
  sortOrder : ℕ

structure SubmissionKey where
  id : ℕ
  milestoneId : ℕ
  submittedByUserId : ℕ
  attemptNumber : ℕ

structure DisputeKey where
  id : ℕ
  milestoneId : ℕ
  openedByUserId : ℕ

def ProjectRow.key (r : ProjectRow) : ProjectKey := ⟨r.id, r.clientUserId, r.freelancerUserId⟩

/-- The columns that link a row to a project of a registry. -/
def ProjectRow.link (r : ProjectRow) : Option ℕ × Option Address × Option Text :=
  (r.chainId, r.escrowContractAddress, r.onChainProjectId)

def MilestoneRow.key (m : MilestoneRow) : MilestoneKey := ⟨m.id, m.projectId, m.sortOrder⟩

def Submission.key (x : Submission) : SubmissionKey :=
  ⟨x.id, x.milestoneId, x.submittedByUserId, x.attemptNumber⟩

def Dispute.key (x : Dispute) : DisputeKey := ⟨x.id, x.milestoneId, x.openedByUserId⟩

structure Keys where
  nextId : ℕ
  users : List User
  projects : List ProjectKey
  milestones : List MilestoneKey
  submissions : List SubmissionKey
  disputes : List DisputeKey

def Tables.keys (s : Tables) : Keys where
  nextId := s.nextId
  users := s.users
  projects := s.projects.map (·.key)
  milestones := s.milestones.map (·.key)
  submissions := s.submissions.map (·.key)
  disputes := s.disputes.map (·.key)

namespace Keys

def userIds (k : Keys) : List ℕ := k.users.map (·.id)
def projectIds (k : Keys) : List ℕ := k.projects.map (·.id)
def milestoneIds (k : Keys) : List ℕ := k.milestones.map (·.id)

/-- The constraints on the application's tables; generated ids are new. -/
structure Valid (k : Keys) : Prop where
  userId : k.userIds.Nodup
  walletAddress : (k.users.map (·.walletAddress)).Nodup
  projectId : k.projectIds.Nodup
  milestoneId : k.milestoneIds.Nodup
  sortOrder : (k.milestones.map fun m => (m.projectId, m.sortOrder)).Nodup
  submissionId : (k.submissions.map (·.id)).Nodup
  attemptNumber : (k.submissions.map fun x => (x.milestoneId, x.attemptNumber)).Nodup
  disputeId : (k.disputes.map (·.id)).Nodup
  client : ∀ r ∈ k.projects, r.clientUserId ∈ k.userIds
  freelancer : ∀ r ∈ k.projects, ∀ u, r.freelancerUserId = some u → u ∈ k.userIds
  milestoneProject : ∀ m ∈ k.milestones, m.projectId ∈ k.projectIds
  submissionMilestone : ∀ x ∈ k.submissions, x.milestoneId ∈ k.milestoneIds
  submittedBy : ∀ x ∈ k.submissions, x.submittedByUserId ∈ k.userIds
  disputeMilestone : ∀ x ∈ k.disputes, x.milestoneId ∈ k.milestoneIds
  openedBy : ∀ x ∈ k.disputes, x.openedByUserId ∈ k.userIds
  newUser : ∀ u ∈ k.userIds, u < k.nextId
  newProject : ∀ p ∈ k.projectIds, p < k.nextId
  newSubmission : ∀ x ∈ k.submissions, x.id < k.nextId
  newDispute : ∀ x ∈ k.disputes, x.id < k.nextId

/-! ## Creating a row -/

variable {k : Keys}

theorem nodup_concat {α β : Type} {rows : List α} {key : α → β} {r : α} (h : (rows.map key).Nodup)
    (hr : ∀ x ∈ rows, key x ≠ key r) : ((rows ++ [r]).map key).Nodup := by
  rw [List.map_append, List.map_singleton]
  apply h.append (List.nodup_singleton _)
  rw [List.disjoint_singleton]
  intro hmem
  obtain ⟨x, hx, hkey⟩ := List.mem_map.mp hmem
  exact hr x hx hkey

theorem forall_concat {α : Type} {P : α → Prop} {rows : List α} {r : α} (h : ∀ x ∈ rows, P x)
    (hr : P r) : ∀ x ∈ rows ++ [r], P x := by
  intro x hx
  rcases List.mem_append.mp hx with hx | hx
  · exact h x hx
  · rw [List.mem_singleton.mp hx]
    exact hr

theorem Valid.takeId (h : k.Valid) : ({ k with nextId := k.nextId + 1 } : Keys).Valid :=
  { h with
    newUser := fun u hu => Nat.lt_succ_of_lt (h.newUser u hu)
    newProject := fun p hp => Nat.lt_succ_of_lt (h.newProject p hp)
    newSubmission := fun x hx => Nat.lt_succ_of_lt (h.newSubmission x hx)
    newDispute := fun x hx => Nat.lt_succ_of_lt (h.newDispute x hx) }

theorem Valid.addUser (h : k.Valid) {a : Address} (ha : ∀ u ∈ k.users, u.walletAddress ≠ a) :
    ({ k with nextId := k.nextId + 1, users := k.users ++ [⟨k.nextId, a⟩] } : Keys).Valid := by
  have hids : ∀ u, u ∈ k.userIds → u ∈ (k.users ++ [(⟨k.nextId, a⟩ : User)]).map (·.id) := by
    intro u hu
    rw [List.map_append]
    exact List.mem_append_left _ hu
  exact
    { h.takeId with
      userId := nodup_concat h.userId fun u hu =>
        (h.newUser u.id (List.mem_map_of_mem hu)).ne
      walletAddress := nodup_concat h.walletAddress ha
      client := fun r hr => hids _ (h.client r hr)
      freelancer := fun r hr u hu => hids u (h.freelancer r hr u hu)
      submittedBy := fun x hx => hids _ (h.submittedBy x hx)
      openedBy := fun x hx => hids _ (h.openedBy x hx)
      newUser := by
        intro u hu
        obtain ⟨x, hx, rfl⟩ := List.mem_map.mp hu
        rcases List.mem_append.mp hx with hx | hx
        · exact Nat.lt_succ_of_lt (h.newUser x.id (List.mem_map_of_mem hx))
        · rw [List.mem_singleton.mp hx]
          exact Nat.lt_succ_self _ }

theorem Valid.addProject (h : k.Valid) {client : ℕ} {freelancer : Option ℕ}
    (hclient : client ∈ k.userIds) (hfreelancer : ∀ u, freelancer = some u → u ∈ k.userIds) :
    ({ k with
      nextId := k.nextId + 1
      projects := k.projects ++ [⟨k.nextId, client, freelancer⟩] } : Keys).Valid :=
  { h.takeId with
    projectId := nodup_concat h.projectId fun r hr =>
      (h.newProject r.id (List.mem_map_of_mem hr)).ne
    client := forall_concat h.client hclient
    freelancer := forall_concat h.freelancer hfreelancer
    milestoneProject := by
      intro m hm
      show m.projectId ∈ List.map _ _
      rw [List.map_append]
      exact List.mem_append_left _ (h.milestoneProject m hm)
    newProject := by
      intro p hp
      obtain ⟨r, hr, rfl⟩ := List.mem_map.mp hp
      rcases List.mem_append.mp hr with hr | hr
      · exact Nat.lt_succ_of_lt (h.newProject r.id (List.mem_map_of_mem hr))
      · rw [List.mem_singleton.mp hr]
        exact Nat.lt_succ_self _ }

theorem Valid.addSubmission (h : k.Valid) {milestoneId submittedByUserId attemptNumber : ℕ}
    (hmilestone : milestoneId ∈ k.milestoneIds) (huser : submittedByUserId ∈ k.userIds)
    (hattempt : ∀ x ∈ k.submissions, x.milestoneId = milestoneId → x.attemptNumber ≠ attemptNumber) :
    ({ k with
      nextId := k.nextId + 1
      submissions := k.submissions ++
        [⟨k.nextId, milestoneId, submittedByUserId, attemptNumber⟩] } : Keys).Valid :=
  { h.takeId with
    submissionId := nodup_concat h.submissionId fun x hx => (h.newSubmission x hx).ne
    attemptNumber := nodup_concat h.attemptNumber fun x hx heq =>
      hattempt x hx (congrArg Prod.fst heq) (congrArg Prod.snd heq)
    submissionMilestone := forall_concat h.submissionMilestone hmilestone
    submittedBy := forall_concat h.submittedBy huser
    newSubmission := forall_concat (fun x hx => Nat.lt_succ_of_lt (h.newSubmission x hx))
      (Nat.lt_succ_self _) }

theorem Valid.addDispute (h : k.Valid) {milestoneId openedByUserId : ℕ}
    (hmilestone : milestoneId ∈ k.milestoneIds) (huser : openedByUserId ∈ k.userIds) :
    ({ k with
      nextId := k.nextId + 1
      disputes := k.disputes ++ [⟨k.nextId, milestoneId, openedByUserId⟩] } : Keys).Valid :=
  { h.takeId with
    disputeId := nodup_concat h.disputeId fun x hx => (h.newDispute x hx).ne
    disputeMilestone := forall_concat h.disputeMilestone hmilestone
    openedBy := forall_concat h.openedBy huser
    newDispute := forall_concat (fun x hx => Nat.lt_succ_of_lt (h.newDispute x hx))
      (Nat.lt_succ_self _) }

end Keys

variable {s : Tables}

theorem userIds_keys : s.keys.userIds = s.users.map (·.id) := rfl

theorem projectIds_keys : s.keys.projectIds = s.projects.map (·.id) := List.map_map

theorem milestoneIds_keys : s.keys.milestoneIds = s.milestones.map (·.id) := List.map_map

end EscrowFlow.Sync
