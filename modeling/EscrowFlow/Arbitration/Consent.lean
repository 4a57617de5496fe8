import EscrowFlow.Arbitration.Recipients

/-! # Which consent counts

A party names the recipient of its leg by a call of its own or by a signed authorization that anybody
may submit. Only the second channel uses a nonce up, so a call of the party leaves the authorizations
it signed before as good as they were. What holds is that nonces and block times never fall: once an
authorization is behind the stored nonce or past its deadline, it stays without effect.
-/

namespace EscrowFlow.Registry
open EscrowFlow.Foundations
set_option autoImplicit false

/-! ## Authorizations in the history -/

/-- The authorization a call submits to the registry at `self`. -/
def Call.consent (self : Address) : Call → Option RecipientConsent
  | .setPartyAuthorizedRecipientBySig p i leg party r nonce deadline _ =>
    some ⟨self, p, i, leg, party, r, nonce, deadline⟩
  | _ => none

/-- The authorization that took effect with a record. -/
def Record.consent (self : Address) : Record → Option RecipientConsent
  | .call _ _ _ c => c.consent self
  | _ => none

/-- The nonce a signed authorization must carry. -/
def Storage.expects (s : Storage) (a : RecipientConsent) : ℕ :=
  s.partyRecipientAuthorizationNonce a.projectId a.milestoneIndex a.isFreelancer

/-- Nothing in `h` is ahead of the nonces of `s` or the time `t`. -/
structure Behind (addr : Address) (s : Storage) (t : ℕ) (h : List Record) : Prop where
  nonce : ∀ before t' msg c, .call before t' msg c ∈ h → ∀ p i leg,
    before.partyRecipientAuthorizationNonce p i leg ≤ s.partyRecipientAuthorizationNonce p i leg
  time : ∀ before t' msg c, .call before t' msg c ∈ h → t' ≤ t
  used : ∀ x ∈ h, ∀ a, x.consent addr = some a → a.nonce < s.expects a

/-- A call entered from `before` at time `t` with `older` behind it; the authorization it submits is
the expected one and still good. -/
def Consented (self : Address) : Record → List Record → Prop := fun x older =>
  ∀ before t msg c, x = .call before t msg c → Behind self before t older ∧
    ∀ a, c.consent self = some a →
      a.nonce = before.expects a ∧ t ≤ a.deadline ∧ a.newRecipient ≠ self

structure Consents (addr : Address) (w : World) : Prop where
  behind : Behind addr w.storage w.timestamp w.history
  past : Always (Consented addr) w.history

/-! ## What a step does to nonces and history -/

inductive Signing (self : Address) : World → World → Prop
  | quiet {w w' : World} (new : List Record) (history : w'.history = new ++ w.history)
      (uncalled : ∀ before t msg c, .call before t msg c ∉ new)
      (nonces : w'.storage.partyRecipientAuthorizationNonce =
        w.storage.partyRecipientAuthorizationNonce)
      (time : w.timestamp ≤ w'.timestamp) : Signing self w w'
  | entered {w : World} (s : Storage) (msg : Message) (c : Call) (unsigned : c.consent self = none)
      (nonces : s.partyRecipientAuthorizationNonce = w.storage.partyRecipientAuthorizationNonce) :
      Signing self w ((w.enter msg c).put s)
  | signed {w : World} (s : Storage) (msg : Message) (c : Call) (a : RecipientConsent)
      (consent : c.consent self = some a) (expected : a.nonce = w.storage.expects a)
      (fresh : w.timestamp ≤ a.deadline) (outside : a.newRecipient ≠ self)
      (nonces : s.partyRecipientAuthorizationNonce = update3
        w.storage.partyRecipientAuthorizationNonce a.projectId a.milestoneIndex a.isFreelancer
        (a.nonce + 1)) :
      Signing self w ((w.enter msg c).put s)

variable {self : Address} {steady : Address → Prop} {w w' : World}

theorem Signing.still {s : Storage}
    (h : s.partyRecipientAuthorizationNonce = w.storage.partyRecipientAuthorizationNonce) :
    Signing self w (w.put s) :=
  .quiet [] rfl (fun _ _ _ _ => List.not_mem_nil) h (Nat.le_refl _)

theorem Signing.noted (x : Record) (h : ∀ before t msg c, x ≠ .call before t msg c)
    {s : Storage}
    (hs : s.partyRecipientAuthorizationNonce = w.storage.partyRecipientAuthorizationNonce) :
    Signing self w ((w.put s).push x) :=
  .quiet [x] rfl (fun before t msg c hmem => h before t msg c (List.mem_singleton.mp hmem).symm) hs
    (Nat.le_refl _)

theorem Call.consent_of_plain {c : Call} (h : c.plain = true) : c.consent self = none := by
  cases c with
  | setPartyAuthorizedRecipientBySig => cases h
  | _ => rfl

theorem Aside.signing (h : Aside self w w') : Signing self w w' := by
  cases h with
  | enter msg c plain => exact .entered _ msg c (Call.consent_of_plain plain) rfl
  | announce e plain => exact .noted (.event e) nofun rfl
  | configured roles count threshold es =>
    refine .quiet (es.map Record.event).reverse (World.pushEvents_history _ es) ?_ (by simp) (by simp)
    intro before t msg c hmem
    obtain ⟨e, -, heq⟩ := List.mem_map.mp (List.mem_reverse.mp hmem)
    cases heq
  | vote id msg before c => exact .noted (.event _) nofun rfl
  | authorized msg p i leg r => exact .entered _ msg _ rfl rfl
  | authorizedBySig msg p i leg r deadline signature hexists this outside fresh valid =>
    exact .signed _ msg _ _ rfl rfl fresh outside rfl
  | withdrawn msg p i kind a b => exact .entered _ msg _ rfl rfl
  | created s hs _ => exact .still (congrArg Storage.partyRecipientAuthorizationNonce hs.rest :)
  | _ => exact .still rfl

theorem Step.signing {c c' : Config} (h : Step self steady c c') : Signing self c.1 c'.1 := by
  cases h with
  | tick t ht => exact .quiet [] rfl (fun _ _ _ _ => List.not_mem_nil) rfl ht
  | balances b => exact .quiet [] rfl (fun _ _ _ _ => List.not_mem_nil) rfl (Nat.le_refl _)
  | aside h => exact h.signing
  | propose msg p i kind a b => exact .entered _ msg _ rfl rfl
  | consume msg p i kind a b => exact .entered _ msg _ rfl rfl
  | work hexists hstep disputes booked => exact .still booked.sameRoutes.nonce
  | raise caller t st uri hexists hstep fresh unsettled raised others booked =>
    exact .noted (.event _) nofun booked.sameRoutes.nonce
  | close hexists hstep opened closed settled others booked => exact .still booked.sameRoutes.nonce
  | funded hexists token received hstep disputes booked => exact .still booked.sameRoutes.nonce
  | pay due waiting => exact .noted (.paying _) nofun rfl
  | paid due waiting => exact .noted (.paid _ _ _) nofun rfl
  | fund | sweep | swept | skip =>
    exact .quiet [] rfl (fun _ _ _ _ => List.not_mem_nil) rfl (Nat.le_refl _)
  | _ => exact .still rfl

/-! ## The invariant -/

theorem Behind.grown {s s' : Storage} {t t' : ℕ} {h new : List Record} (hb : Behind self s t h)
    (nonces : s'.partyRecipientAuthorizationNonce = s.partyRecipientAuthorizationNonce)
    (time : t ≤ t') (uncalled : ∀ before t msg c, .call before t msg c ∉ new) :
    Behind self s' t' (new ++ h) where
  nonce before u msg c hmem p i leg := by
    rw [nonces]
    exact hb.nonce before u msg c ((List.mem_append.mp hmem).resolve_left (uncalled _ _ _ _)) p i leg
  time before u msg c hmem :=
    (hb.time before u msg c ((List.mem_append.mp hmem).resolve_left (uncalled _ _ _ _))).trans time
  used x hx a ha := by
    have hexpects : s'.expects a = s.expects a := by
      unfold Storage.expects
      rw [nonces]
    rw [hexpects]
    rcases List.mem_append.mp hx with hx | hx
    · cases x with
      | call before u msg c => exact absurd hx (uncalled _ _ _ _)
      | _ => cases ha
    · exact hb.used x hx a ha

/-- A call entered from `s` at `t`, after which the nonces are those of `s'`. -/
theorem Behind.called {s s' : Storage} {t : ℕ} {h : List Record} (hb : Behind self s t h)
    (msg : Message) (c : Call)
    (nonces : ∀ p i leg, s.partyRecipientAuthorizationNonce p i leg ≤
      s'.partyRecipientAuthorizationNonce p i leg)
    (used : ∀ a, c.consent self = some a → a.nonce < s'.expects a) :
    Behind self s' t (.call s t msg c :: h) where
  nonce before u m d hmem p i leg := by
    rcases List.mem_cons.mp hmem with heq | hmem
    · cases heq
      exact nonces p i leg
    · exact (hb.nonce before u m d hmem p i leg).trans (nonces p i leg)
  time before u m d hmem := by
    rcases List.mem_cons.mp hmem with heq | hmem
    · cases heq
      exact Nat.le_refl t
    · exact hb.time before u m d hmem
  used x hx a ha := by
    rcases List.mem_cons.mp hx with rfl | hx
    · exact used a ha
    · exact (hb.used x hx a ha).trans_le (nonces _ _ _)

theorem Consents.signing (h : Consents self w) (ha : Signing self w w') : Consents self w' := by
  cases ha with
  | quiet new history uncalled nonces time =>
    refine ⟨?_, ?_⟩
    · rw [history]
      exact h.behind.grown nonces time uncalled
    · rw [history]
      clear history
      induction new with
      | nil => exact h.past
      | cons x new ih =>
        have hrest := ih fun before t msg c hmem =>
          uncalled before t msg c (List.mem_cons_of_mem x hmem)
        refine hrest.push ?_
        rintro before t msg c rfl
        exact absurd List.mem_cons_self (uncalled before t msg c)
  | entered s msg c unsigned nonces =>
    refine ⟨h.behind.called msg c ?_ ?_, h.past.push ?_⟩
    · intro p i leg
      rw [World.put_storage, nonces]
    · intro a ha
      rw [unsigned] at ha
      cases ha
    · intro before t msg' c' heq
      cases heq
      refine ⟨h.behind, ?_⟩
      intro a ha
      rw [unsigned] at ha
      cases ha
  | signed s msg c a consent expected fresh outside nonces =>
    refine ⟨h.behind.called msg c ?_ ?_, h.past.push ?_⟩
    · intro p i leg
      rw [World.put_storage, nonces, update3_apply]
      split
      · rename_i heq
        obtain ⟨rfl, rfl, rfl⟩ := heq
        rw [expected]
        exact Nat.le_succ _
      · exact Nat.le_refl _
    · intro b hb
      obtain rfl := Option.some.inj (consent.symm.trans hb)
      show a.nonce < s.partyRecipientAuthorizationNonce a.projectId a.milestoneIndex a.isFreelancer
      rw [nonces, update3_self]
      exact Nat.lt_succ_self _
    · intro before t msg' c' heq
      cases heq
      refine ⟨h.behind, ?_⟩
      intro b hb
      obtain rfl := Option.some.inj (consent.symm.trans hb)
      exact ⟨expected, fresh, outside⟩

theorem Visited.consents {c : Config} (h : Visited self steady c) : Consents self c.1 := by
  have hstep : ∀ c c' : Config, Visited self steady c → Consents self c.1 → Step self steady c c' →
      Consents self c'.1 := fun _ _ _ hinv hstep => hinv.signing hstep.signing
  refine h.invariant (fun admin deployer t b _ => ?_) hstep
  refine ⟨⟨?_, ?_, ?_⟩, ?_⟩
  · intro before u msg c hmem
    simp [deployed] at hmem
  · intro before u msg c hmem
    simp [deployed] at hmem
  · intro x hx a ha
    rcases List.mem_cons.mp hx with rfl | hx
    · cases ha
    · obtain rfl := List.mem_singleton.mp hx
      cases ha
  · exact ⟨by rintro _ _ _ _ ⟨⟩, by rintro _ _ _ _ ⟨⟩, trivial⟩

/-! ## The latest consent -/

/-- Once the party has set the recipient of a leg by a call of its own, no authorization for that leg
it had signed before takes effect. `signed older` are the authorizations that were signed when the
history was `older`. -/
def LatestConsentWins (self : Address) (signed : List Record → RecipientConsent → Prop)
    (history : List Record) : Prop :=
  ∀ newer before t msg p i leg r older,
    history = newer ++ .call before t msg (.setPartyAuthorizedRecipient p i leg r) :: older →
    ∀ a, signed older a → a.projectId = p → a.milestoneIndex = i → a.isFreelancer = leg →
      ∀ x ∈ newer, x.consent self ≠ some a

/-- If the record is a call by which the party sets the recipient `a` is about, `a` is of no use any
more: its nonce is used up, its deadline has passed, or it names the registry. -/
def Record.Supersedes (addr : Address) (a : RecipientConsent) : Record → Prop
  | .call before t _ (.setPartyAuthorizedRecipient p i leg _) =>
    a.projectId = p ∧ a.milestoneIndex = i ∧ a.isFreelancer = leg →
      a.nonce < before.expects a ∨ a.deadline < t ∨ a.newRecipient = addr
  | _ => True

instance (addr : Address) (a : RecipientConsent) (x : Record) : Decidable (x.Supersedes addr a) := by
  unfold Record.Supersedes
  split <;> infer_instance

/-- An authorization carries the nonce expected when it takes effect, which is above all used before. -/
theorem consented_once {h : List Record} (hpast : Always (Consented self) h) (a : RecipientConsent) :
    (h.countP fun x => x.consent self = some a) ≤ 1 := by
  induction h with
  | nil => exact Nat.zero_le 1
  | cons x older ih =>
    by_cases hx : x.consent self = some a
    · cases x with
      | call before t msg c =>
        obtain ⟨hbehind, hgood⟩ := hpast.1 before t msg c rfl
        have hnone : older.countP (fun x => x.consent self = some a) = 0 := by
          rw [List.countP_eq_zero]
          intro y hy hconsent
          have hused := hbehind.used y hy a (of_decide_eq_true hconsent)
          have hnonce := (hgood a hx).1
          omega
        rw [List.countP_cons, hnone]
        split <;> omega
      | _ => cases hx
    · rw [List.countP_cons, if_neg (by simpa using hx)]
      exact ih hpast.2

/-- In a run in which the party sets a recipient itself only when the authorizations it signed before
are of no use any more, they stay without effect; and in every run each takes effect at most once. -/
theorem latest_consent_wins (h : Reachable self steady w)
    (signed : List Record → RecipientConsent → Prop)
    (superseded : Always (fun x older => ∀ a, signed older a → x.Supersedes self a) w.history) :
    LatestConsentWins self signed w.history ∧
      ∀ a, (w.history.countP fun x => x.consent self = some a) ≤ 1 := by
  have hpast := h.visited.1.consents.past
  constructor
  · intro newer before t msg p i leg r older hhistory a ha hp hi hleg x hx hconsent
    have hsuperseded := superseded.at hhistory a ha ⟨hp, hi, hleg⟩
    obtain ⟨later, middle, rfl⟩ := List.append_of_mem hx
    cases x with
    | call before' t' msg' c' =>
      rw [List.append_assoc, List.cons_append] at hhistory
      obtain ⟨hbehind, hgood⟩ := hpast.at hhistory before' t' msg' c' rfl
      obtain ⟨hnonce, hfresh, houtside⟩ := hgood a hconsent
      have hmem : Record.call before t msg (.setPartyAuthorizedRecipient p i leg r) ∈
          middle ++ .call before t msg (.setPartyAuthorizedRecipient p i leg r) :: older :=
        List.mem_append_right middle List.mem_cons_self
      have hle : before.expects a ≤ before'.expects a := hbehind.nonce _ _ _ _ hmem _ _ _
      have htime := hbehind.time _ _ _ _ hmem
      rcases hsuperseded with hused | hexpired | hself
      · omega
      · omega
      · exact houtside hself
    | _ => cases hconsent
  · exact fun a => consented_once hpast a

/-! ## A late submission -/

/-- The freelancer of the sample project once meant to be paid at address 50. -/
def Sample.staleConsent : RecipientConsent :=
  ⟨Sample.registry, 1, 0, true, Sample.freelancer, 50, 0, 5000⟩

/-- A chain on which the freelancer signed that, and nothing else is signed. -/
def Sample.signedSite : Message :=
  { Sample.site with
    ecrecover := fun digest _ _ _ =>
      if digest = Sample.staleConsent then Sample.freelancer else zeroAddress }

def Sample.signature : Bytes := List.replicate 64 0 ++ [27]

/-- The submission of the authorization, which anybody can make. -/
def Sample.submission : Call :=
  .setPartyAuthorizedRecipientBySig 1 0 true Sample.freelancer 50 0 5000 Sample.signature

/-- The freelancer names address 60 by a call of its own; then address 9 submits what it signed. -/
def Sample.lateWorld : World :=
  play Sample.signedSite (Sample.opening Sample.freelancer ++
    [.call Sample.freelancer (.setPartyAuthorizedRecipient 1 0 true 60),
     .call 9 Sample.submission]) Sample.start

def Record.call? : Record → Option Call
  | .call _ _ _ c => some c
  | _ => none

/-- The two newest calls of a history. -/
theorem newest_calls {h : List Record} {c d : Call}
    (hh : (h.filterMap Record.call?).take 2 = [c, d]) :
    ∃ newer before t msg middle before' t' msg' older,
      h = (newer ++ .call before t msg c :: middle) ++ .call before' t' msg' d :: older := by
  have hcall : ∀ {x : Record} {e : Call}, x.call? = some e → ∃ b t m, x = .call b t m e := by
    intro x e hx
    cases x with
    | call b t m e' =>
      obtain rfl := Option.some.inj hx
      exact ⟨b, t, m, rfl⟩
    | _ => cases hx
  obtain ⟨rest, hrest⟩ : ∃ rest, h.filterMap Record.call? = c :: d :: rest := by
    have hsplit := List.take_append_drop 2 (h.filterMap Record.call?)
    rw [hh] at hsplit
    exact ⟨_, hsplit.symm⟩
  obtain ⟨newer, x, later, rfl, -, hx, hlater⟩ := List.filterMap_eq_cons_iff.mp hrest
  obtain ⟨middle, y, older, rfl, -, hy, -⟩ := List.filterMap_eq_cons_iff.mp hlater
  obtain ⟨before, t, msg, rfl⟩ := hcall hx
  obtain ⟨before', t', msg', rfl⟩ := hcall hy
  exact ⟨newer, before, t, msg, middle, before', t', msg', older, by simp⟩

/-- The recipient is the one signed first, not the one set last. -/
theorem late_authorization_wins :
    isValidPartySignature Sample.signedSite Sample.freelancer Sample.staleConsent Sample.signature =
      true ∧
    ∃ w, Reachable Sample.registry (fun _ => True) w ∧
      w.storage.partyAuthorizedRecipient 1 0 true = 50 ∧
      ¬LatestConsentWins Sample.registry (fun _ a => a = Sample.staleConsent) w.history := by
  refine ⟨by decide +kernel, Sample.lateWorld, Reachable.play Sample.signedSite (by decide) (by decide),
    by decide +kernel, fun hwins => ?_⟩
  have hcalls : (Sample.lateWorld.history.filterMap Record.call?).take 2 =
      [Sample.submission, .setPartyAuthorizedRecipient 1 0 true 60] := by decide +kernel
  obtain ⟨newer, before, t, msg, middle, before', t', msg', older, hhistory⟩ := newest_calls hcalls
  exact hwins _ before' t' msg' 1 0 true 60 older hhistory Sample.staleConsent rfl rfl rfl rfl
    (.call before t msg Sample.submission) (List.mem_append_right newer List.mem_cons_self) rfl

/-- The authorization is submitted first; then the freelancer names another address. -/
def Sample.earlyWorld : World :=
  play Sample.signedSite (Sample.opening Sample.freelancer ++
    [.call 9 Sample.submission,
     .call Sample.freelancer (.setPartyAuthorizedRecipient 1 0 true 60)]) Sample.start

theorem early_authorization_superseded :
    Sample.earlyWorld.storage.partyAuthorizedRecipient 1 0 true = 60 ∧
      LatestConsentWins Sample.registry (fun _ a => a = Sample.staleConsent)
        Sample.earlyWorld.history := by
  have hsuperseded : ∀ x ∈ Sample.earlyWorld.history,
      x.Supersedes Sample.registry Sample.staleConsent := by decide +kernel
  have halways : ∀ h : List Record, (∀ x ∈ h, x.Supersedes Sample.registry Sample.staleConsent) →
      Always (fun x _ => ∀ a, a = Sample.staleConsent → x.Supersedes Sample.registry a) h := by
    intro h hh
    induction h with
    | nil => trivial
    | cons x h ih =>
      have hx := hh x List.mem_cons_self
      refine ⟨?_, ih fun y hy => hh y (List.mem_cons_of_mem x hy)⟩
      rintro a rfl
      exact hx
  have hreach : Reachable Sample.registry (fun _ => True) Sample.earlyWorld :=
    Reachable.play Sample.signedSite (by decide) (by decide)
  exact ⟨by decide +kernel,
    (latest_consent_wins hreach (fun _ a => a = Sample.staleConsent) (halways _ hsuperseded)).1⟩

end EscrowFlow.Registry
