import TradingAgent.Hermes.Delivery

/-!
# Stranded deliveries

A delivery without an outcome is served (`IsServed`) if it can still be claimed, at a later time and
after the deliveries that are ordered before it, or if it waits for a root that can still be
acknowledged. That is not always so: a delivery is stranded once it has used its last attempt and
nobody answered it, and so are the replies to a root that will never be acknowledged
(`isServed_iff`).
-/

namespace TradingAgent.Hermes

open Transition HermesDeliveryStore

variable {sha : Sha256} {w w' : HermesWorld} {s : HermesDeliveryStore} {e : HermesDeliveryEvent}
  {a : HermesDeliveryAttempt} {claim : HermesDeliveryClaim} {now : DateTime} {deliveryId : String}

/-- Whether some calls can be made after which a call for the next delivery returns this one. -/
def CanBeClaimed (sha : Sha256) (w : HermesWorld) (deliveryId : String) : Prop :=
  ∃ calls w', (hermesSystem sha).Run w calls w' ∧ ∃ workerId now leaseSeconds s claim,
    w'.clock ≤ now.instant ∧
    w'.store.claimNext sha workerId now leaseSeconds = .ok (s, some claim) ∧
    claim.event.deliveryId = deliveryId

/-- Whether a delivery is not acknowledged, but some calls can be made after which it is. -/
def CanBeAcknowledged (sha : Sha256) (w : HermesWorld) (deliveryId : String) : Prop :=
  w.store.isAcknowledged deliveryId = false ∧
    ∃ calls w', (hermesSystem sha).Run w calls w' ∧ w'.store.isAcknowledged deliveryId = true

/-- Whether a delivery can be claimed, or waits for a root that can still be acknowledged. -/
def IsServed (sha : Sha256) (w : HermesWorld) (e : HermesDeliveryEvent) : Prop :=
  CanBeClaimed sha w e.deliveryId ∨
    e.deliveryId ≠ e.rootDeliveryId ∧ CanBeAcknowledged sha w e.rootDeliveryId

/-- The deliveries that have not been acknowledged and may still be, at a time: those whose last
    attempt is under way, and those that have attempts left and do not wait for another one in
    vain. -/
inductive Acknowledgeable (s : HermesDeliveryStore) (clock : ℤ) : String → Prop
  | held (id : String) (last : HermesDeliveryAttempt) (hunacked : s.isAcknowledged id = false)
      (hlatest : s.latestAttempt id = some last) (hrunning : s.transitionOf last.attemptId = none)
      (hlease : clock ≤ last.leaseExpiresAt.instant) : Acknowledgeable s clock id
  | free (d : HermesDeliveryEvent) (hd : d ∈ s.events)
      (hunacked : s.isAcknowledged d.deliveryId = false)
      (hundead : s.isDeadLettered d.deliveryId = false)
      (hlt : (s.attemptsOf d.deliveryId).length < d.maxAttempts)
      (hready : s.rootIsReady d = true) : Acknowledgeable s clock d.deliveryId
  | reply (d : HermesDeliveryEvent) (hd : d ∈ s.events)
      (hunacked : s.isAcknowledged d.deliveryId = false)
      (hundead : s.isDeadLettered d.deliveryId = false)
      (hlt : (s.attemptsOf d.deliveryId).length < d.maxAttempts)
      (hroot : Acknowledgeable s clock d.rootDeliveryId) : Acknowledgeable s clock d.deliveryId

theorem Acknowledgeable.unacknowledged {clock : ℤ} (h : Acknowledgeable s clock deliveryId) :
    s.isAcknowledged deliveryId = false := by
  cases h with
  | held _ _ hunacked => exact hunacked
  | free _ _ hunacked => exact hunacked
  | reply _ _ hunacked => exact hunacked

/-! ## Digests -/

/-- The texts that the identities of attempts and acknowledgements are made of, besides those of
    deliveries. -/
def textsOf (s : HermesDeliveryStore) : List String :=
  (List.range 11).map Nat.repr ++ s.events.map (·.deliveryId) ++
    s.acknowledgements.map (·.platformMessageId)

/-- The texts of the identities of attempts and acknowledgements. -/
def materialsOf (s : HermesDeliveryStore) : Set (List JsonAtom) :=
  {material | ∃ e ∈ s.events, ∃ text ∈ textsOf s, material = [.str e.deliveryId, .str text]}

theorem attemptMaterial_mem (he : e ∈ s.events) {n : ℕ} (hn : n ≤ 10) :
    attemptMaterial e.deliveryId n ∈ materialsOf s := by
  refine ⟨e, he, n.repr, ?_, rfl⟩
  rw [textsOf, List.append_assoc]
  exact List.mem_append_left _ (List.mem_map_of_mem (List.mem_range.2 (by omega)))

theorem acknowledgementMaterial_mem (he : e ∈ s.events) {e' : HermesDeliveryEvent}
    (he' : e' ∈ s.events) : acknowledgementMaterial e.deliveryId e'.deliveryId ∈ materialsOf s := by
  refine ⟨e, he, e'.deliveryId, ?_, rfl⟩
  exact List.mem_append_left _ (List.mem_append_right _ (List.mem_map_of_mem he'))

/-! ## A claim succeeds -/

theorem isIdentifier_worker : isIdentifier "worker" = true := by decide +kernel

theorem astimezone_utc (clock : ℤ) : (DateTime.utc clock).astimezone UTC = DateTime.utc clock :=
  congrArg (DateTime.mk · _) (by
    show clock - 0 + 0 = clock
    omega)

theorem event_bounds (h : StoreInv sha s) (he : e ∈ s.events) :
    isHex64 e.deliveryId = true ∧ 1 ≤ e.maxAttempts ∧ e.maxAttempts ≤ 10 := by
  have hvalid := h.events e he
  simp only [validateEvent, Bool.decide_and, Bool.and_eq_true, decide_eq_true_eq] at hvalid
  obtain ⟨hid, -, -, -, -, -, -, -, -, -, -, -, hpos, hle⟩ := hvalid
  exact ⟨hid ▸ sha.isHex64_hexdigest _, hpos, hle⟩

/-- The numbers of attempts are told apart by their texts. -/
theorem repr_inj_of_le {m n : ℕ} (hm : m ≤ 10) (hn : n ≤ 10) (h : m.repr = n.repr) : m = n := by
  have hall : ∀ m < 11, ∀ n < 11, m.repr = n.repr → m = n := by decide +kernel
  exact hall m (by omega) n (by omega) h

/-- The next attempt of a delivery that has attempts left is valid, and new. -/
theorem nextAttempt_valid (h : StoreInv sha s) (hsha : sha.Separates (materialsOf s))
    (he : e ∈ s.events) (hlt : (s.attemptsOf e.deliveryId).length < e.maxAttempts) (clock : ℤ) :
    validateAttempt sha (s.nextAttempt sha e "worker" (DateTime.utc clock) 1) = true ∧
      ∀ x ∈ s.attempts, x.attemptId ≠
        (s.nextAttempt sha e "worker" (DateTime.utc clock) 1).attemptId := by
  obtain ⟨hhex, -, hle⟩ := event_bounds h he
  refine ⟨?_, fun x hx hid => ?_⟩
  · simp only [validateAttempt, Bool.decide_and, Bool.and_eq_true, decide_eq_true_eq]
    refine ⟨rfl, hhex, Nat.le_add_left _ _, by
      show (s.attemptsOf e.deliveryId).length + 1 ≤ 10
      omega, isIdentifier_worker, rfl, rfl, ?_⟩
    show clock - 0 < clock + 1 * 1000000 - 0
    omega
  · have hvalid := h.attempts x hx
    simp only [validateAttempt, Bool.decide_and, Bool.and_eq_true, decide_eq_true_eq] at hvalid
    obtain ⟨hxid, -, -, hx10, -⟩ := hvalid
    obtain ⟨e', he', hdelivery⟩ := h.attempted x hx
    rw [hxid] at hid
    have hmaterial := hsha (hdelivery ▸ attemptMaterial_mem he' hx10)
      (attemptMaterial_mem he (n := (s.attemptsOf e.deliveryId).length + 1) (by omega)) hid
    simp only [attemptMaterial, List.cons.injEq, JsonAtom.str.injEq, and_true] at hmaterial
    have hlt := h.sequence_le (mem_attemptsOf.2 ⟨hx, hmaterial.1⟩)
    have heq := repr_inj_of_le hx10 (by omega) hmaterial.2
    omega

/-- The attempt of a worker that claims a delivery for a second. -/
def secondAttempt (sha : Sha256) (s : HermesDeliveryStore) (e : HermesDeliveryEvent) (clock : ℤ) :
    HermesDeliveryAttempt :=
  s.nextAttempt sha e "worker" (DateTime.utc clock) 1

/-- The store after a worker has claimed a delivery for a second. -/
def claimedStore (sha : Sha256) (s : HermesDeliveryStore) (e : HermesDeliveryEvent) (clock : ℤ) :
    HermesDeliveryStore :=
  { s with attempts := s.attempts ++ [secondAttempt sha s e clock] }

/-- A worker gets the first delivery that can be claimed. -/
theorem claimNext_eq (h : StoreInv sha s) (hsha : sha.Separates (materialsOf s)) {clock : ℤ}
    (hnext : s.nextClaimable (DateTime.utc clock) = some e) :
    s.claimNext sha "worker" (DateTime.utc clock) 1 =
      .ok (claimedStore sha s e clock,
        some ((claimedStore sha s e clock).claimOf e (secondAttempt sha s e clock))) := by
  obtain ⟨he, hclaimable⟩ := nextClaimable_eq_some hnext
  obtain ⟨-, -, hlt, -, -⟩ := isClaimable_iff.1 hclaimable
  obtain ⟨hvalid, hnew⟩ := nextAttempt_valid h hsha he hlt clock
  have hinsert : s.insertAttempt (secondAttempt sha s e clock) =
      .ok (claimedStore sha s e clock) := by
    have hfresh : ¬ (s.attempts.any fun x => x.attemptId = (secondAttempt sha s e clock).attemptId ∨
        (x.deliveryId = (secondAttempt sha s e clock).deliveryId ∧
          x.attemptNumber = (secondAttempt sha s e clock).attemptNumber)) = true := by
      intro hany
      obtain ⟨x, hx, hsame⟩ := List.any_eq_true.1 hany
      rcases of_decide_eq_true hsame with hid | ⟨hdelivery, hnumber⟩
      · exact hnew x hx hid
      · have hle := h.sequence_le (mem_attemptsOf.2 ⟨hx, hdelivery⟩)
        exact absurd hnumber (Nat.ne_of_lt hle)
    rw [HermesDeliveryStore.insertAttempt, Except.raiseIf, if_neg hfresh]
    rfl
  have hlease : ¬ ((1 : ℤ) < 1 ∨ 300 < (1 : ℤ) ∨ ¬ (DateTime.utc clock).aware = true) := by
    rintro (hlt | hlt | haware)
    · omega
    · omega
    · exact haware rfl
  rw [claimNext, Except.raiseIf, if_neg hlease, Except.ok_bind]
  dsimp only
  rw [astimezone_utc, hnext]
  dsimp only
  rw [Except.raiseIf, if_neg (not_not.2 hvalid), Except.ok_bind]
  rw [secondAttempt] at hinsert
  rw [hinsert]
  rfl

/-! ## The deliveries before are claimed first -/

section Claimed

variable {clock : ℤ} (h : StoreInv sha s) (hsha : sha.Separates (materialsOf s))
  (hnext : s.nextClaimable (DateTime.utc clock) = some e)
include h hsha hnext

omit hsha hnext in
theorem latestAttempt_claimedStore :
    (claimedStore sha s e clock).latestAttempt e.deliveryId = some (secondAttempt sha s e clock) :=
  h.latestAttempt_insert rfl

theorem transitionOf_secondAttempt :
    s.transitionOf (secondAttempt sha s e clock).attemptId = none := by
  obtain ⟨he, hclaimable⟩ := nextClaimable_eq_some hnext
  obtain ⟨-, -, hlt, -, -⟩ := isClaimable_iff.1 hclaimable
  refine transitionOf_eq_none.2 fun t ht hid => ?_
  obtain ⟨x, hx, hxid, -⟩ := h.failed t ht
  exact (nextAttempt_valid h hsha he hlt clock).2 x hx (hxid.trans hid)

/-- What was claimed cannot be claimed again at that time. -/
theorem not_isClaimable_claimedStore :
    (claimedStore sha s e clock).isClaimable (DateTime.utc clock) e = false := by
  rw [Bool.eq_false_iff]
  intro hclaimable
  obtain ⟨-, -, -, -, hfree⟩ := isClaimable_iff.1 hclaimable
  have hrunning : (claimedStore sha s e clock).transitionOf
      (secondAttempt sha s e clock).attemptId = none := transitionOf_secondAttempt h hsha hnext
  rw [isFree, latestAttempt_claimedStore h] at hfree
  dsimp only at hfree
  rw [hrunning] at hfree
  have hlease : clock + 1 * 1000000 - 0 ≤ clock - 0 := of_decide_eq_true hfree
  omega

omit h hsha hnext in
/-- The other deliveries can be claimed as before. -/
theorem isClaimable_claimedStore {d : HermesDeliveryEvent} (hne : e.deliveryId ≠ d.deliveryId) :
    (claimedStore sha s e clock).isClaimable now d = s.isClaimable now d := by
  have hattempts : (claimedStore sha s e clock).attemptsOf d.deliveryId =
      s.attemptsOf d.deliveryId := attemptsOf_insert_of_ne hne
  have hlatest : (claimedStore sha s e clock).latestAttempt d.deliveryId =
      s.latestAttempt d.deliveryId := by
    rw [latestAttempt, hattempts, latestAttempt]
  rw [isClaimable, isClaimable, isFree, isFree, hattempts, hlatest]
  rfl

theorem length_claimable_lt :
    (s.events.filter ((claimedStore sha s e clock).isClaimable (DateTime.utc clock))).length <
      (s.events.filter (s.isClaimable (DateTime.utc clock))).length := by
  obtain ⟨he, hclaimable⟩ := nextClaimable_eq_some hnext
  have hfilter : s.events.filter ((claimedStore sha s e clock).isClaimable (DateTime.utc clock)) =
      (s.events.filter (s.isClaimable (DateTime.utc clock))).filter
        ((claimedStore sha s e clock).isClaimable (DateTime.utc clock)) := by
    rw [List.filter_filter]
    refine List.filter_congr fun d hd => ?_
    by_cases hid : e.deliveryId = d.deliveryId
    · have hsame : e = d := List.inj_on_of_nodup_map h.eventIds he hd hid
      rw [← hsame, not_isClaimable_claimedStore h hsha hnext, Bool.false_and]
    · rw [isClaimable_claimedStore hid, Bool.and_self]
  rw [hfilter, List.length_filter_lt_length_iff_exists]
  refine ⟨e, List.mem_filter.2 ⟨he, hclaimable⟩, ?_⟩
  rw [not_isClaimable_claimedStore h hsha hnext]
  exact Bool.false_ne_true

end Claimed

/-- The world after a worker has claimed a delivery for a second. -/
def claimedWorld (sha : Sha256) (w : HermesWorld) (e : HermesDeliveryEvent) (clock : ℤ) :
    HermesWorld :=
  ⟨claimedStore sha w.store e clock,
    w.claims ++ [(claimedStore sha w.store e clock).claimOf e (secondAttempt sha w.store e clock)],
    clock⟩

theorem step_claimedWorld {clock : ℤ} (h : StoreInv sha w.store)
    (hsha : sha.Separates (materialsOf w.store)) (hclock : w.clock ≤ clock)
    (hnext : w.store.nextClaimable (DateTime.utc clock) = some e) :
    (hermesSystem sha).step w (.claimNext "worker" (DateTime.utc clock) 1)
      (claimedWorld sha w e clock) := by
  refine ⟨?_, fun _ hclaim => absurd hclaim (Option.not_mem_none _), ?_⟩
  · rintro t ht
    cases ht
    rwa [DateTime.instant_utc]
  · rw [HermesWorld.after, HermesCall.result, claimNext_eq h hsha hnext]
    show _ = HermesWorld.mk _ _ (DateTime.utc clock).instant
    rw [DateTime.instant_utc]
    rfl

/-- A delivery that can be claimed is claimed after those that are ordered before it. -/
theorem exists_claimed {clock : ℤ} (h : WorldInv sha w) (hsha : sha.Separates (materialsOf w.store))
    (hclock : w.clock ≤ clock) (he : e ∈ w.store.events)
    (hclaimable : w.store.isClaimable (DateTime.utc clock) e = true) :
    ∃ calls w', (hermesSystem sha).Run w calls w' ∧ w'.clock ≤ clock ∧
      w'.store.nextClaimable (DateTime.utc clock) = some e ∧
      w'.store.events = w.store.events ∧
      w'.store.acknowledgements = w.store.acknowledgements := by
  induction hn : (w.store.events.filter (w.store.isClaimable (DateTime.utc clock))).length using
    Nat.strong_induction_on generalizing w with
  | _ n ih =>
    cases hnext : w.store.nextClaimable (DateTime.utc clock) with
    | none =>
      have hnil := List.argmin_eq_none.1 hnext
      exact absurd (hnil ▸ List.mem_filter.2 ⟨he, hclaimable⟩) List.not_mem_nil
    | some d =>
      by_cases hsame : d = e
      · exact ⟨[], w, .nil w, hclock, hsame ▸ hnext, rfl, rfl⟩
      · -- Another one comes first: it is claimed, and then there is one less.
        have hd := (nextClaimable_eq_some hnext).1
        have hid : d.deliveryId ≠ e.deliveryId := fun hid =>
          hsame (List.inj_on_of_nodup_map h.eventIds hd he hid)
        have hstep := step_claimedWorld h.toStoreInv hsha hclock hnext
        have hlt := length_claimable_lt h.toStoreInv hsha hnext
        rw [hn] at hlt
        have hclaimable' : (claimedWorld sha w d clock).store.isClaimable (DateTime.utc clock) e =
            true := (isClaimable_claimedStore hid).trans hclaimable
        obtain ⟨calls, w', hrun, hrest⟩ := ih _ hlt (h.step hstep) hsha (Int.le_refl clock) he
          hclaimable' rfl
        exact ⟨_ :: calls, w', .cons hstep hrun, hrest⟩

/-! ## A claim can be acknowledged -/

/-- The delivery of a row that names one. -/
theorem acknowledged_event (h : StoreInv sha s) {k : HermesDeliveryAcknowledgement}
    (hk : k ∈ s.acknowledgements) : ∃ d ∈ s.events, d.deliveryId = k.deliveryId := by
  obtain ⟨x, hx, -⟩ := Option.map_eq_some_iff.1 (h.acknowledged k hk).1
  obtain ⟨hmem, hid⟩ := latestAttempt_mem hx
  obtain ⟨d, hd, hdelivery⟩ := h.attempted x hmem
  exact ⟨d, hd, hdelivery.trans hid⟩

/-- There are fewer acknowledgements than deliveries, so the identity of some delivery was not used
    as that of a message. -/
theorem exists_platformMessageId (h : StoreInv sha s) (he : e ∈ s.events)
    (hunacked : s.isAcknowledged e.deliveryId = false) :
    ∃ d ∈ s.events, ∀ k ∈ s.acknowledgements, k.platformMessageId ≠ d.deliveryId := by
  by_contra hall
  push Not at hall
  have hacked : (e.deliveryId :: s.acknowledgements.map (·.deliveryId)).Nodup := by
    refine List.nodup_cons.2 ⟨fun hmem => ?_, h.acknowledgedOnce⟩
    obtain ⟨k, hk, hid⟩ := List.mem_map.1 hmem
    rw [isAcknowledged_iff.2 ⟨k, hk, hid⟩] at hunacked
    cases hunacked
  have hdeliveries : e.deliveryId :: s.acknowledgements.map (·.deliveryId) ⊆
      s.events.map (·.deliveryId) := by
    rw [List.cons_subset]
    refine ⟨List.mem_map_of_mem he, fun id hid => ?_⟩
    obtain ⟨k, hk, rfl⟩ := List.mem_map.1 hid
    obtain ⟨d, hd, hid⟩ := acknowledged_event h hk
    exact List.mem_map.2 ⟨d, hd, hid⟩
  have hmessages : s.events.map (·.deliveryId) ⊆
      s.acknowledgements.map (·.platformMessageId) := by
    intro id hid
    obtain ⟨d, hd, rfl⟩ := List.mem_map.1 hid
    obtain ⟨k, hk, hmessage⟩ := hall d hd
    exact List.mem_map.2 ⟨k, hk, hmessage⟩
  have hle := (hacked.subperm hdeliveries).length_le
  have hle' := (h.eventIds.subperm hmessages).length_le
  simp only [List.length_cons, List.length_map] at hle hle'
  omega

theorem insertAcknowledgement_eq {k : HermesDeliveryAcknowledgement}
    (h : ∀ x ∈ s.acknowledgements, ¬ (x.acknowledgementId = k.acknowledgementId ∨
      x.deliveryId = k.deliveryId ∨ x.attemptId = k.attemptId ∨
      x.platformMessageId = k.platformMessageId)) :
    s.insertAcknowledgement k = .ok { s with acknowledgements := s.acknowledgements ++ [k] } := by
  have hfresh : ¬ (s.acknowledgements.any fun x =>
      x.acknowledgementId = k.acknowledgementId ∨ x.deliveryId = k.deliveryId ∨
        x.attemptId = k.attemptId ∨ x.platformMessageId = k.platformMessageId) = true := by
    intro hany
    obtain ⟨x, hx, hsame⟩ := List.any_eq_true.1 hany
    exact h x hx (of_decide_eq_true hsame)
  rw [HermesDeliveryStore.insertAcknowledgement, Except.raiseIf, if_neg hfresh]
  rfl

/-- The acknowledgement of a claim that runs is accepted, if its message is a new one. -/
theorem acknowledge_eq (h : StoreInv sha s) (hsha : sha.Separates (materialsOf s))
    (hgiven : IsGiven s claim) {d : HermesDeliveryEvent} (hd : d ∈ s.events)
    (hnew : ∀ k ∈ s.acknowledgements, k.platformMessageId ≠ d.deliveryId) {clock : ℤ}
    (hclaim : s.requireClaim claim (DateTime.utc clock) = .ok ()) :
    s.acknowledge sha claim d.deliveryId (DateTime.utc clock) =
      .ok ({ s with acknowledgements := s.acknowledgements ++
        [acknowledgementFor sha claim d.deliveryId (DateTime.utc clock)] }, true) := by
  obtain ⟨-, hlatest, -, hunacked⟩ := requireClaim_eq_ok.1 hclaim
  have hattempt := h.attempts _ hgiven.attempt
  simp only [validateAttempt, Bool.decide_and, Bool.and_eq_true, decide_eq_true_eq] at hattempt
  have hhex : isHex64 claim.attempt.attemptId = true := hattempt.1 ▸ sha.isHex64_hexdigest _
  have hvalid : validateAcknowledgement sha
      (acknowledgementFor sha claim d.deliveryId (DateTime.utc clock)) = true := by
    simp only [validateAcknowledgement, Bool.decide_and, Bool.and_eq_true, decide_eq_true_eq]
    exact ⟨rfl, (event_bounds h hgiven.event).1, hhex,
      isIdentifier_of_isHex64 (event_bounds h hd).1, rfl⟩
  have hnone : s.acknowledgementOf claim.event.deliveryId = none := by
    refine List.find?_eq_none.2 fun k hk hid => ?_
    rw [isAcknowledged_iff.2 ⟨k, hk, of_decide_eq_true hid⟩] at hunacked
    cases hunacked
  have hinsert := insertAcknowledgement_eq (s := s)
    (k := acknowledgementFor sha claim d.deliveryId (DateTime.utc clock)) fun x hx hsame => by
    have hother : x.deliveryId ≠ claim.event.deliveryId := fun hid => by
      rw [isAcknowledged_iff.2 ⟨x, hx, hid⟩] at hunacked
      cases hunacked
    rcases hsame with hid | hid | hid | hid
    · have hxvalid := h.acknowledgements x hx
      simp only [validateAcknowledgement, Bool.decide_and, Bool.and_eq_true,
        decide_eq_true_eq] at hxvalid
      obtain ⟨y, hy, hyid⟩ := acknowledged_event h hx
      have hid : x.acknowledgementId =
          hermesAcknowledgementId sha claim.event.deliveryId d.deliveryId := hid
      rw [hxvalid.1] at hid
      have hmem : acknowledgementMaterial x.deliveryId x.platformMessageId ∈ materialsOf s :=
        ⟨y, hy, x.platformMessageId, List.mem_append_right _ (List.mem_map_of_mem hx), by
          rw [hyid, acknowledgementMaterial]⟩
      have hmaterial := hsha hmem (acknowledgementMaterial_mem hgiven.event hd) hid
      simp only [acknowledgementMaterial, List.cons.injEq, JsonAtom.str.injEq,
        and_true] at hmaterial
      exact hnew x hx hmaterial.2
    · exact hother hid
    · have hid : x.attemptId = claim.attempt.attemptId := hid
      have hlast := (h.acknowledged x hx).1
      rw [hid] at hlast
      have hdelivery := (latestAttempt_mem (h.eq_of_latest hgiven.attempt hlast)).2
      exact hother (hdelivery.symm.trans hgiven.deliveryId)
    · exact hnew x hx hid
  rw [acknowledge, Except.raiseIf, if_neg (not_not.2 hvalid), Except.ok_bind, hnone]
  dsimp only
  rw [hclaim, Except.ok_bind, hinsert]
  rfl

/-- Some calls lead to a world in which a delivery is acknowledged, and its replies are as they were
    made. -/
def LeadsToAcknowledged (sha : Sha256) (w : HermesWorld) (deliveryId : String) : Prop :=
  ∃ calls w', (hermesSystem sha).Run w calls w' ∧ w'.store.isAcknowledged deliveryId = true ∧
    w'.store.events = w.store.events ∧ materialsOf w'.store ⊆ materialsOf w.store ∧
    ∀ d ∈ w.store.events, d.rootDeliveryId = deliveryId → d.deliveryId ≠ deliveryId →
      w'.store.attemptsOf d.deliveryId = []

theorem LeadsToAcknowledged.trans {calls : List HermesCall}
    (hrun : (hermesSystem sha).Run w calls w') (hevents : w'.store.events = w.store.events)
    (hmaterials : materialsOf w'.store ⊆ materialsOf w.store)
    (h : LeadsToAcknowledged sha w' deliveryId) : LeadsToAcknowledged sha w deliveryId := by
  obtain ⟨calls', w'', hrun', hacked, hevents', hmaterials', hreplies⟩ := h
  rw [hevents] at hreplies
  exact ⟨calls ++ calls', w'', hrun.append hrun', hacked, hevents'.trans hevents,
    hmaterials'.trans hmaterials, hreplies⟩

/-- A delivery whose last attempt is under way may be acknowledged at once. -/
theorem leadsToAcknowledged_of_held (h : WorldInv sha w)
    (hsha : sha.Separates (materialsOf w.store))
    (hunacked : w.store.isAcknowledged deliveryId = false)
    (hlatest : w.store.latestAttempt deliveryId = some a)
    (hrunning : w.store.transitionOf a.attemptId = none)
    (hlease : w.clock ≤ a.leaseExpiresAt.instant) : LeadsToAcknowledged sha w deliveryId := by
  obtain ⟨hmem, hid⟩ := latestAttempt_mem hlatest
  obtain ⟨claim, hclaim, rfl⟩ := h.owned a hmem
  have hgiven := h.given claim hclaim
  have hevent : claim.event.deliveryId = deliveryId := hgiven.deliveryId.symm.trans hid
  subst hevent
  obtain ⟨d, hd, hnew⟩ := exists_platformMessageId h.toStoreInv hgiven.event hunacked
  have hrequire : w.store.requireClaim claim (DateTime.utc w.clock) = .ok () := by
    rw [requireClaim_eq_ok]
    refine ⟨⟨rfl, ?_⟩, ?_, hrunning, hunacked⟩
    · rwa [DateTime.le_def, DateTime.instant_utc]
    · rw [hlatest, Option.map_some]
  have hresult := acknowledge_eq h.toStoreInv hsha hgiven hd hnew hrequire
  have hstep : (hermesSystem sha).step w
      (.acknowledge claim d.deliveryId (DateTime.utc w.clock))
      (w.after sha (.acknowledge claim d.deliveryId (DateTime.utc w.clock))) := by
    refine ⟨fun t ht => ?_, fun c hc => ?_, rfl⟩
    · cases ht
      rw [DateTime.instant_utc]
    · cases hc
      exact hclaim
  have hstore : (w.after sha (.acknowledge claim d.deliveryId (DateTime.utc w.clock))).store =
      { w.store with acknowledgements := w.store.acknowledgements ++
        [acknowledgementFor sha claim d.deliveryId (DateTime.utc w.clock)] } := by
    rw [HermesWorld.after, HermesCall.result, hresult]
    rfl
  refine ⟨[_], _, .single hstep, ?_, ?_, ?_, ?_⟩
  · rw [hstore]
    exact isAcknowledged_iff.2 ⟨_, List.mem_append_right _ List.mem_cons_self, rfl⟩
  · rw [hstore]
  · rw [hstore]
    rintro material ⟨e, he, text, htext, rfl⟩
    refine ⟨e, he, text, ?_, rfl⟩
    rw [textsOf, List.map_append, ← List.append_assoc, List.mem_append] at htext
    rcases htext with htext | htext
    · exact htext
    · -- The message was given the identity of a delivery.
      rw [List.map_singleton, List.mem_singleton] at htext
      rw [htext]
      exact List.mem_append_left _ (List.mem_append_right _ (List.mem_map_of_mem hd))
  · intro e he hroot hne
    rw [hstore]
    by_contra hattempts
    rcases of_decide_eq_true ((h.claimed e he).ready hattempts) with hself | hacked
    · exact hne (hself.trans hroot)
    · rw [hroot, hunacked] at hacked
      cases hacked

/-- A delivery that can be claimed may be acknowledged afterwards. -/
theorem leadsToAcknowledged_of_isClaimable {clock : ℤ} (h : WorldInv sha w)
    (hsha : sha.Separates (materialsOf w.store)) (hclock : w.clock ≤ clock)
    (he : e ∈ w.store.events)
    (hclaimable : w.store.isClaimable (DateTime.utc clock) e = true) :
    LeadsToAcknowledged sha w e.deliveryId := by
  obtain ⟨calls, w', hrun, hclock', hnext, hevents, hacks⟩ :=
    exists_claimed h hsha hclock he hclaimable
  have h' := h.run hrun
  have hmaterials : materialsOf w'.store = materialsOf w.store := by
    rw [materialsOf, textsOf, hevents, hacks, materialsOf, textsOf]
  have hsha' : sha.Separates (materialsOf w'.store) := hmaterials ▸ hsha
  have hstep := step_claimedWorld h'.toStoreInv hsha' hclock' hnext
  have hlease : clock ≤ (secondAttempt sha w'.store e clock).leaseExpiresAt.instant := by
    show clock ≤ clock + 1 * 1000000 - 0
    omega
  have hunacked := (isClaimable_iff.1 (nextClaimable_eq_some hnext).2).1
  have hheld := leadsToAcknowledged_of_held (w := claimedWorld sha w' e clock) (h'.step hstep) hsha'
    hunacked (latestAttempt_claimedStore h'.toStoreInv)
    (transitionOf_secondAttempt h'.toStoreInv hsha' hnext) hlease
  exact .trans (hrun.append (.single hstep)) hevents hmaterials.subset hheld

/-- The last attempt of a delivery is over at some time, if it is not the end of it. -/
theorem exists_isFree (h : StoreInv sha s) (hundead : s.isDeadLettered deliveryId = false)
    (clock : ℤ) : ∃ clock' ≥ clock, s.isFree (DateTime.utc clock') deliveryId = true := by
  have hutc {t : DateTime} {c : ℤ} (hle : t.instant ≤ c) : t ≤ DateTime.utc c := by
    rwa [DateTime.le_def, DateTime.instant_utc]
  cases hlatest : s.latestAttempt deliveryId with
  | none =>
    refine ⟨clock, Int.le_refl clock, ?_⟩
    rw [isFree, hlatest]
  | some a =>
    cases hfailed : s.transitionOf a.attemptId with
    | none =>
      refine ⟨max clock a.leaseExpiresAt.instant, Int.le_max_left _ _, ?_⟩
      rw [isFree, hlatest]
      dsimp only
      rw [hfailed]
      exact decide_eq_true (hutc (Int.le_max_right _ _))
    | some t =>
      obtain ⟨ht, hid⟩ := transitionOf_eq_some hfailed
      obtain ⟨hmem, hdelivery⟩ := latestAttempt_mem hlatest
      have hvalid := h.transitions t ht
      simp only [validateTransition, Bool.decide_and, Bool.and_eq_true,
        decide_eq_true_eq] at hvalid
      rcases hvalid.2.2.2.2.2.2.1 with ⟨hkind, havailable⟩ | ⟨hkind, -⟩
      · obtain ⟨available, hsome⟩ := Option.ne_none_iff_exists'.1 havailable
        refine ⟨max clock available.instant, Int.le_max_left _ _, ?_⟩
        rw [isFree, hlatest]
        dsimp only
        rw [hfailed]
        refine decide_eq_true ⟨hkind, (Option.any_eq_true _ _).2 ⟨available, hsome, ?_⟩⟩
        exact decide_eq_true (hutc (Int.le_max_right _ _))
      · -- A dead letter of the last attempt is one of the delivery.
        obtain ⟨x, hx, hxid, hxdelivery⟩ := h.failed t ht
        have hsame : x = a := List.inj_on_of_nodup_map h.attemptIds hx hmem (hxid.trans hid)
        have hdead : s.isDeadLettered deliveryId = true := by
          refine isDeadLettered_iff.2 ⟨t, ht, ?_, hkind⟩
          rw [← hxdelivery, hsame, hdelivery]
        rw [hundead] at hdead
        cases hdead

theorem exists_isClaimable (h : StoreInv sha s) (hunacked : s.isAcknowledged e.deliveryId = false)
    (hundead : s.isDeadLettered e.deliveryId = false)
    (hlt : (s.attemptsOf e.deliveryId).length < e.maxAttempts) (hready : s.rootIsReady e = true)
    (clock : ℤ) : ∃ clock' ≥ clock, s.isClaimable (DateTime.utc clock') e = true := by
  obtain ⟨clock', hle, hfree⟩ := exists_isFree h hundead clock
  exact ⟨clock', hle, isClaimable_iff.2 ⟨hunacked, hundead, hlt, hready, hfree⟩⟩

/-- A reply that was not tried has no outcome. -/
theorem no_outcome (h : StoreInv sha s) (hattempts : s.attemptsOf deliveryId = []) :
    s.isAcknowledged deliveryId = false ∧ s.isDeadLettered deliveryId = false := by
  have hlatest := latestAttempt_eq_none.2 hattempts
  constructor
  · rw [Bool.eq_false_iff]
    intro hacked
    obtain ⟨k, hk, rfl⟩ := isAcknowledged_iff.1 hacked
    have hlast := (h.acknowledged k hk).1
    rw [hlatest] at hlast
    cases hlast
  · rw [Bool.eq_false_iff]
    intro hdead
    obtain ⟨t, ht, rfl, hkind⟩ := isDeadLettered_iff.1 hdead
    have hlast := h.dead t ht hkind
    rw [hlatest] at hlast
    cases hlast

/-- After its root was acknowledged, a reply can be claimed. -/
theorem isClaimable_reply (h : WorldInv sha w') (he : e ∈ w'.store.events)
    (hacked : w'.store.isAcknowledged e.rootDeliveryId = true)
    (hattempts : w'.store.attemptsOf e.deliveryId = []) :
    w'.store.isClaimable (DateTime.utc w'.clock) e = true := by
  obtain ⟨hunacked, hundead⟩ := no_outcome h.toStoreInv hattempts
  refine isClaimable_iff.2 ⟨hunacked, hundead, ?_, decide_eq_true (.inr hacked), ?_⟩
  · rw [hattempts]
    exact (event_bounds h.toStoreInv he).2.1
  · rw [isFree, latestAttempt_eq_none.2 hattempts]

theorem leadsToAcknowledged (h : WorldInv sha w) (hsha : sha.Separates (materialsOf w.store))
    (hack : Acknowledgeable w.store w.clock deliveryId) : LeadsToAcknowledged sha w deliveryId := by
  induction hack with
  | held id last hunacked hlatest hrunning hlease =>
    exact leadsToAcknowledged_of_held h hsha hunacked hlatest hrunning hlease
  | free d hd hunacked hundead hlt hready =>
    obtain ⟨clock, hle, hclaimable⟩ :=
      exists_isClaimable h.toStoreInv hunacked hundead hlt hready w.clock
    exact leadsToAcknowledged_of_isClaimable h hsha hle hd hclaimable
  | reply d hd hunacked hundead hlt hroot ih =>
    by_cases hself : d.deliveryId = d.rootDeliveryId
    · rw [hself]
      exact ih
    · obtain ⟨calls, w', hrun, hacked, hevents, hmaterials, hreplies⟩ := ih
      have h' := h.run hrun
      have hd' : d ∈ w'.store.events := hevents ▸ hd
      have hclaimable := isClaimable_reply h' hd' hacked (hreplies d hd rfl hself)
      exact .trans hrun hevents hmaterials (leadsToAcknowledged_of_isClaimable h'
        (hsha.mono hmaterials) (Int.le_refl _) hd' hclaimable)

/-! ## What is lost for good -/

theorem Extends.trans {s' s'' : HermesDeliveryStore} (h : Extends s s') (h' : Extends s' s'') :
    Extends s s'' :=
  ⟨h.events.trans h'.events, h.attempts.trans h'.attempts, h.transitions.trans h'.transitions,
    h.acknowledgements.trans h'.acknowledgements⟩

theorem extends_of_run {calls : List HermesCall} (hrun : (hermesSystem sha).Run w calls w') :
    Extends w.store w'.store := by
  induction hrun with
  | nil w => exact ⟨List.prefix_rfl, List.prefix_rfl, List.prefix_rfl, List.prefix_rfl⟩
  | cons hstep _ ih =>
    obtain ⟨given, heffect, -⟩ := effect_of_step hstep
    exact heffect.extends.trans ih

section Extends

variable {s' : HermesDeliveryStore} (h : Extends s s')
include h

theorem Extends.length_attemptsOf :
    (s.attemptsOf deliveryId).length ≤ (s'.attemptsOf deliveryId).length :=
  (h.attempts.sublist.filter _).length_le

theorem Extends.unacknowledged (hunacked : s'.isAcknowledged deliveryId = false) :
    s.isAcknowledged deliveryId = false := by
  rw [Bool.eq_false_iff] at hunacked ⊢
  intro hacked
  obtain ⟨k, hk, hid⟩ := isAcknowledged_iff.1 hacked
  exact hunacked (isAcknowledged_iff.2 ⟨k, h.acknowledgements.subset hk, hid⟩)

theorem Extends.notDead (hundead : s'.isDeadLettered deliveryId = false) :
    s.isDeadLettered deliveryId = false := by
  rw [Bool.eq_false_iff] at hundead ⊢
  intro hdead
  obtain ⟨t, ht, hid⟩ := isDeadLettered_iff.1 hdead
  exact hundead (isDeadLettered_iff.2 ⟨t, h.transitions.subset ht, hid⟩)

theorem Extends.running {attemptId : String} (hrunning : s'.transitionOf attemptId = none) :
    s.transitionOf attemptId = none :=
  transitionOf_eq_none.2 fun t ht => transitionOf_eq_none.1 hrunning t (h.transitions.subset ht)

/-- A delivery that was there before is still the same. -/
theorem Extends.event (hs' : StoreInv sha s') {d d' : HermesDeliveryEvent} (hd : d ∈ s.events)
    (hd' : d' ∈ s'.events) (hid : d.deliveryId = d'.deliveryId) : d' ∈ s.events := by
  rwa [← List.inj_on_of_nodup_map hs'.eventIds (h.events.subset hd) hd' hid]

end Extends

/-- Whether a delivery was acknowledged, or may still be. -/
def NotLost (w : HermesWorld) (deliveryId : String) : Prop :=
  w.store.isAcknowledged deliveryId = true ∨ Acknowledgeable w.store w.clock deliveryId

section Step

variable {call : HermesCall} (h : WorldInv sha w) (hstep : (hermesSystem sha).step w call w')
include h hstep

/-- What is acknowledged by a step could be acknowledged before. -/
theorem notLost_of_acknowledged (hacked : w'.store.isAcknowledged deliveryId = true) :
    NotLost w deliveryId := by
  by_cases hold : w.store.isAcknowledged deliveryId = true
  · exact .inl hold
  rw [Bool.not_eq_true] at hold
  obtain ⟨given, heffect, -⟩ := effect_of_step hstep
  obtain ⟨k, hk, rfl⟩ := isAcknowledged_iff.1 hacked
  have hnew : k ∉ w.store.acknowledgements := by
    intro hmem
    rw [isAcknowledged_iff.2 ⟨k, hmem, rfl⟩] at hold
    cases hold
  obtain ⟨htime, hclaims, -⟩ := hstep
  generalize w'.store = s' at heffect hk
  cases heffect with
  | same | event | transition => exact absurd hk hnew
  | attempt _ _ _ _ _ _ _ _ _ _ _ hs =>
    rw [hs] at hk
    exact absurd hk hnew
  | acknowledgement claim platformMessageId acknowledgedAt hclaim hvalid =>
    rcases List.mem_append.1 hk with hmem | hmem
    · exact absurd hmem hnew
    · rw [List.mem_singleton.1 hmem]
      obtain ⟨⟨-, hle⟩, hlatest, hrunning, hunacked⟩ := requireClaim_eq_ok.1 hclaim
      have hgiven := h.given claim (hclaims claim rfl)
      have hclock : w.clock ≤ acknowledgedAt.instant := htime acknowledgedAt rfl
      exact .inr (.held claim.event.deliveryId claim.attempt hunacked
        (h.eq_of_latest hgiven.attempt hlatest) hrunning (Int.le_trans hclock hle))

omit h in
/-- The last attempt of a delivery is that from before, or the delivery could be claimed. -/
theorem latestAttempt_step (hlatest : w'.store.latestAttempt deliveryId = some a) :
    w.store.latestAttempt deliveryId = some a ∨
      ∃ d ∈ w.store.events, ∃ now, d.deliveryId = deliveryId ∧ w.store.isClaimable now d = true := by
  obtain ⟨given, heffect, -⟩ := effect_of_step hstep
  generalize w'.store = s' at heffect hlatest
  cases heffect with
  | same | event | acknowledgement | transition => exact .inl hlatest
  | attempt workerId now _ d x s' hd hclaimable hx _ _ hs =>
    by_cases hid : d.deliveryId = deliveryId
    · exact .inr ⟨d, hd, _, hid, hclaimable⟩
    · have hxid : x.deliveryId ≠ deliveryId := by
        rw [hx]
        exact hid
      rw [hs, latestAttempt, attemptsOf_insert_of_ne hxid] at hlatest
      exact .inl hlatest

theorem notLost_of_notLost (hd : ∃ d ∈ w.store.events, d.deliveryId = deliveryId)
    (hlost : NotLost w' deliveryId) : NotLost w deliveryId := by
  rcases hlost with hacked | hack
  · exact notLost_of_acknowledged h hstep hacked
  obtain ⟨given, heffect, -⟩ := effect_of_step hstep
  have hextends := heffect.extends
  have h' := h.step hstep
  -- A root that was lost before is lost now.
  have hroot {d : HermesDeliveryEvent} (hd : d ∈ w.store.events)
      (hunacked : w.store.isAcknowledged d.deliveryId = false)
      (hundead : w.store.isDeadLettered d.deliveryId = false)
      (hlt : (w.store.attemptsOf d.deliveryId).length < d.maxAttempts)
      (hlost : NotLost w d.rootDeliveryId) : NotLost w d.deliveryId := by
    rcases hlost with hacked | hack
    · exact .inr (.free d hd hunacked hundead hlt (decide_eq_true (.inr hacked)))
    · exact .inr (.reply d hd hunacked hundead hlt hack)
  induction hack with
  | held id last hunacked hlatest hrunning hlease =>
    have hunacked := hextends.unacknowledged hunacked
    rcases latestAttempt_step hstep hlatest with hlast | ⟨d, hmem, now, rfl, hclaimable⟩
    · exact .inr (.held id last hunacked hlast (hextends.running hrunning)
        (Int.le_trans (clock_le hstep) hlease))
    · obtain ⟨-, hundead, hlt, hready, -⟩ := isClaimable_iff.1 hclaimable
      exact .inr (.free d hmem hunacked hundead hlt hready)
  | free d hd' hunacked hundead hlt hready =>
    obtain ⟨d₀, hd₀, hid⟩ := hd
    have hd := hextends.event h'.toStoreInv hd₀ hd' hid
    have hunacked := hextends.unacknowledged hunacked
    have hundead := hextends.notDead hundead
    have hlt := Nat.lt_of_le_of_lt hextends.length_attemptsOf hlt
    rcases of_decide_eq_true hready with hself | hacked
    · exact .inr (.free d hd hunacked hundead hlt (decide_eq_true (.inl hself)))
    · exact hroot hd hunacked hundead hlt (notLost_of_acknowledged h hstep hacked)
  | reply d hd' hunacked hundead hlt _ ih =>
    obtain ⟨d₀, hd₀, hid⟩ := hd
    have hd := hextends.event h'.toStoreInv hd₀ hd' hid
    exact hroot hd (hextends.unacknowledged hunacked) (hextends.notDead hundead)
      (Nat.lt_of_le_of_lt hextends.length_attemptsOf hlt) (ih (h.roots d hd))

end Step

/-- What is lost is lost for good. -/
theorem notLost_of_run {calls : List HermesCall} (h : WorldInv sha w)
    (hrun : (hermesSystem sha).Run w calls w')
    (hd : ∃ d ∈ w.store.events, d.deliveryId = deliveryId) (hlost : NotLost w' deliveryId) :
    NotLost w deliveryId := by
  induction hrun with
  | nil => exact hlost
  | cons hstep _ ih =>
    obtain ⟨given, heffect, -⟩ := effect_of_step hstep
    obtain ⟨d, hmem, hid⟩ := hd
    exact notLost_of_notLost h hstep ⟨d, hmem, hid⟩
      (ih (h.step hstep) ⟨d, heffect.extends.events.subset hmem, hid⟩ hlost)

/-! ## Exactly which deliveries are served -/

theorem canBeClaimed_of_isClaimable {clock : ℤ} (h : WorldInv sha w)
    (hsha : sha.Separates (materialsOf w.store)) (hclock : w.clock ≤ clock)
    (he : e ∈ w.store.events) (hclaimable : w.store.isClaimable (DateTime.utc clock) e = true) :
    CanBeClaimed sha w e.deliveryId := by
  obtain ⟨calls, w', hrun, hclock', hnext, hevents, hacks⟩ :=
    exists_claimed h hsha hclock he hclaimable
  have hsha' : sha.Separates (materialsOf w'.store) := by
    rwa [materialsOf, textsOf, hevents, hacks]
  refine ⟨calls, w', hrun, "worker", DateTime.utc clock, 1, _, _, ?_,
    claimNext_eq (h.run hrun).toStoreInv hsha' hnext, rfl⟩
  rwa [DateTime.instant_utc]

/-- A delivery that can be claimed after some calls has attempts left, and its root is not lost. -/
theorem of_canBeClaimed (h : WorldInv sha w) (he : e ∈ w.store.events)
    (hclaimed : CanBeClaimed sha w e.deliveryId) :
    (w.store.attemptsOf e.deliveryId).length < e.maxAttempts ∧
      (w.store.rootIsReady e = true ∨ Acknowledgeable w.store w.clock e.rootDeliveryId) := by
  obtain ⟨calls, w', hrun, workerId, now, leaseSeconds, s, claim, -, hclaim, hid⟩ := hclaimed
  have hextends := extends_of_run hrun
  obtain ⟨-, ⟨-, hnone⟩ | ⟨d, a, hd, hclaimable, -, -, -, -, hgiven⟩⟩ := claimNext_cases hclaim
  · cases hnone
  cases hgiven
  have hsame : d = e :=
    List.inj_on_of_nodup_map (h.run hrun).eventIds hd (hextends.events.subset he) hid
  rw [hsame] at hclaimable
  obtain ⟨-, -, hlt, hready, -⟩ := isClaimable_iff.1 hclaimable
  refine ⟨Nat.lt_of_le_of_lt hextends.length_attemptsOf hlt, ?_⟩
  rcases of_decide_eq_true hready with hself | hacked
  · exact .inl (decide_eq_true (.inl hself))
  · rcases notLost_of_run h hrun (h.roots e he) (.inl hacked) with hacked | hack
    · exact .inl (decide_eq_true (.inr hacked))
    · exact .inr hack

/-- A delivery without an outcome is served exactly if it has attempts left, and its root is
    acknowledged or may still be. -/
theorem isServed_iff (hw : (hermesSystem sha).Reachable w)
    (hsha : sha.Separates (materialsOf w.store)) (he : e ∈ w.store.events)
    (hunacked : w.store.isAcknowledged e.deliveryId = false)
    (hundead : w.store.isDeadLettered e.deliveryId = false) :
    IsServed sha w e ↔ (w.store.attemptsOf e.deliveryId).length < e.maxAttempts ∧
      (w.store.rootIsReady e = true ∨ Acknowledgeable w.store w.clock e.rootDeliveryId) := by
  have h := worldInv_of_reachable hw
  constructor
  · rintro (hclaimed | ⟨hreply, hunackedRoot, calls, w', hrun, hacked⟩)
    · exact of_canBeClaimed h he hclaimed
    · -- The root is not acknowledged yet, so the reply was not tried.
      have hnone : w.store.attemptsOf e.deliveryId = [] := by
        by_contra hattempts
        rcases of_decide_eq_true ((h.claimed e he).ready hattempts) with hself | hacked
        · exact hreply hself
        · rw [hunackedRoot] at hacked
          cases hacked
      refine ⟨?_, ?_⟩
      · rw [hnone]
        exact (event_bounds h.toStoreInv he).2.1
      · rcases notLost_of_run h hrun (h.roots e he) (.inl hacked) with hacked | hack
        · rw [hunackedRoot] at hacked
          cases hacked
        · exact .inr hack
  · rintro ⟨hlt, hready | hroot⟩
    · obtain ⟨clock, hle, hclaimable⟩ :=
        exists_isClaimable h.toStoreInv hunacked hundead hlt hready w.clock
      exact .inl (canBeClaimed_of_isClaimable h hsha hle he hclaimable)
    · by_cases hself : e.deliveryId = e.rootDeliveryId
      · obtain ⟨clock, hle, hclaimable⟩ := exists_isClaimable h.toStoreInv hunacked hundead hlt
          (decide_eq_true (.inl hself)) w.clock
        exact .inl (canBeClaimed_of_isClaimable h hsha hle he hclaimable)
      · obtain ⟨calls, w', hrun, hacked, -⟩ := leadsToAcknowledged h hsha hroot
        exact .inr ⟨hself, hroot.unacknowledged, calls, w', hrun, hacked⟩

namespace DeliverySample

theorem separates_silent : digest.Separates (materialsOf (silent 3).store) := by
  have hletters : ∀ x ∈ textsOf { events := [signal 3] }, ∀ y ∈ textsOf { events := [signal 3] },
      letter [.str (signal 3).deliveryId, .str x] = letter [.str (signal 3).deliveryId, .str y] →
        x = y := by decide +kernel
  rw [silent_three]
  rintro material ⟨e, he, x, hx, rfl⟩ material' ⟨e', he', y, hy, rfl⟩ heq
  have he : e = signal 3 := List.mem_singleton.1 he
  have he' : e' = signal 3 := List.mem_singleton.1 he'
  subst he he'
  have hletter := congrArg (·.toList.head?) heq
  simp only [digest, String.toList_ofList, List.replicate_succ, List.head?_cons,
    Option.some.injEq] at hletter
  rw [hletters x hx y hy hletter]

theorem silent_one : silent 1 =
    { store := { events := [signal 1], attempts := [attempt 1 "worker-a" 0] }
      claims := [given 1 (attempt 1 "worker-a" 0)]
      clock := (noon 11).instant } := by decide +kernel

end DeliverySample

open DeliverySample in
/-- A delivery that workers left unanswered can be claimed again. -/
theorem isServed_sample : IsServed digest (silent 3) (signal 3) := by
  have he : signal 3 ∈ (silent 3).store.events := by
    rw [silent_three]
    exact List.mem_cons_self
  have hattempts : (silent 3).store.attemptsOf (signal 3).deliveryId =
      [attempt 1 "worker-a" 0, attempt 2 "worker-b" 11] := by
    rw [silent_three]
    exact List.filter_eq_self.2 fun a ha => decide_eq_true (by
      rcases List.mem_pair.1 ha with rfl | rfl <;> rfl)
  refine (isServed_iff (reachable_silent 3) separates_silent he ?_ ?_).2 ⟨?_, .inl ?_⟩
  · rw [silent_three]
    rfl
  · rw [silent_three]
    rfl
  · rw [hattempts]
    decide
  · exact decide_eq_true (.inl rfl)

open DeliverySample in
/-- A delivery that a worker left unanswered at its only attempt is neither acknowledged nor
    dead-lettered, and never claimed again. -/
theorem silent_delivery_is_stranded :
    (hermesSystem digest).Reachable (silent 1) ∧ signal 1 ∈ (silent 1).store.events ∧
      (silent 1).store.isAcknowledged (signal 1).deliveryId = false ∧
      (silent 1).store.isDeadLettered (signal 1).deliveryId = false ∧
      ¬ IsServed digest (silent 1) (signal 1) := by
  have he : signal 1 ∈ (silent 1).store.events := by
    rw [silent_one]
    exact List.mem_cons_self
  have hattempts : (silent 1).store.attemptsOf (signal 1).deliveryId = [attempt 1 "worker-a" 0] := by
    rw [silent_one]
    exact List.filter_eq_self.2 fun a ha => decide_eq_true (by
      rw [List.mem_singleton.1 ha]
      rfl)
  refine ⟨reachable_silent 1, he, ?_, ?_, ?_⟩
  · rw [silent_one]
    rfl
  · rw [silent_one]
    rfl
  · rintro (hclaimed | ⟨hreply, -⟩)
    · have hlt := (of_canBeClaimed (worldInv_of_reachable (reachable_silent 1)) he hclaimed).1
      rw [hattempts] at hlt
      exact absurd hlt (Nat.lt_irrefl 1)
    · exact hreply rfl

end TradingAgent.Hermes
