import TradingAgent.Hermes.Redrive
import TradingAgent.Library.Transition

/-!
# Workers and the store of deliveries

Any number of workers append, claim, acknowledge and fail deliveries (`hermesSystem`). A worker
keeps the claims that it was given, however late it answers them, and the times of the calls do not
decrease. A call that fails leaves the store as it is.

What each operation does is said by one lemma (`appendEvent_cases`, `claimNext_cases`,
`acknowledge_cases`, `fail_cases`), and what holds of every store that is reached is `StoreInv`.
-/

namespace TradingAgent.Hermes

open Transition

/-- The store, the claims that workers were given, and the time of the last call. -/
structure HermesWorld where
  store : HermesDeliveryStore := {}
  claims : List HermesDeliveryClaim := []
  clock : ℤ
  deriving DecidableEq, Repr

inductive HermesCall
  | appendEvent (e : HermesDeliveryEvent)
  | claimNext (workerId : String) (now : DateTime) (leaseSeconds : ℤ)
  | acknowledge (claim : HermesDeliveryClaim) (platformMessageId : String)
      (acknowledgedAt : DateTime)
  | fail (claim : HermesDeliveryClaim) (failure : HermesDeliveryFailure)
  | redrive (deadLetterTransitionId : String)
  deriving DecidableEq, Repr

namespace HermesCall

/-- The time of a call. -/
def time : HermesCall → Option DateTime
  | claimNext _ now _ => some now
  | acknowledge _ _ acknowledgedAt => some acknowledgedAt
  | fail _ failure => some failure.failedAt
  | appendEvent _ | redrive _ => none

/-- The claim that a call answers. -/
def claim : HermesCall → Option HermesDeliveryClaim
  | acknowledge claim _ _ | fail claim _ => some claim
  | appendEvent _ | claimNext _ _ _ | redrive _ => none

/-- The store after a call, and the claim that it gives. -/
def result (sha : Sha256) (s : HermesDeliveryStore) :
    HermesCall → Except HermesDeliveryError (HermesDeliveryStore × Option HermesDeliveryClaim)
  | appendEvent e => do
    let (s, _) ← s.appendEvent sha e
    return (s, none)
  | claimNext workerId now leaseSeconds => s.claimNext sha workerId now leaseSeconds
  | acknowledge claim platformMessageId acknowledgedAt => do
    let (s, _) ← s.acknowledge sha claim platformMessageId acknowledgedAt
    return (s, none)
  | fail claim failure => do
    let (s, _) ← s.fail sha claim failure
    return (s, none)
  | redrive deadLetterTransitionId => do
    let (s, _) ← s.redriveTimeoutDeadLetter sha deadLetterTransitionId
    return (s, none)

end HermesCall

/-- The world after a call. -/
def HermesWorld.after (sha : Sha256) (w : HermesWorld) (call : HermesCall) : HermesWorld :=
  let clock := (call.time.map DateTime.instant).getD w.clock
  match call.result sha w.store with
  | .ok (s, claim) => ⟨s, w.claims ++ claim.toList, clock⟩
  | .error _ => { w with clock := clock }

def hermesSystem (sha : Sha256) : System HermesWorld HermesCall where
  init w := w.store = {} ∧ w.claims = []
  step w call w' := (∀ t ∈ call.time, w.clock ≤ t.instant) ∧ (∀ claim ∈ call.claim, claim ∈ w.claims) ∧
    w' = w.after sha call

variable {sha : Sha256} {s s' : HermesDeliveryStore} {e : HermesDeliveryEvent}
  {a : HermesDeliveryAttempt} {t : HermesDeliveryTransition} {k : HermesDeliveryAcknowledgement}
  {claim : HermesDeliveryClaim} {now : DateTime} {deliveryId : String}

namespace HermesDeliveryStore

/-! ## What the operations do -/

theorem event?_eq_none : s.event? deliveryId = none ↔ ∀ e ∈ s.events, e.deliveryId ≠ deliveryId := by
  simp [event?]

theorem event?_eq_some (h : s.event? deliveryId = some e) :
    e ∈ s.events ∧ e.deliveryId = deliveryId :=
  ⟨List.mem_of_find?_eq_some h, by simpa using List.find?_some h⟩

theorem appendEvent_cases {new : Bool} (h : s.appendEvent sha e = .ok (s', new)) :
    s' = s ∨ validateEvent sha e = true ∧ (∀ x ∈ s.events, x.deliveryId ≠ e.deliveryId) ∧
      (∃ r ∈ s.events ++ [e], r.deliveryId = e.rootDeliveryId) ∧
      s' = { s with events := s.events ++ [e] } := by
  rw [appendEvent, Except.bind_eq_ok] at h
  obtain ⟨u, hvalid, h⟩ := h
  rw [Except.raiseIf_eq_ok, not_not] at hvalid
  split at h
  next existing hexisting =>
    simp only [Except.bind_eq_ok, Except.pure_eq_ok, Prod.mk.injEq] at h
    obtain ⟨-, -, rfl, -⟩ := h
    exact .inl rfl
  next hnone =>
    simp only [Except.bind_eq_ok, Except.raiseIf_eq_ok, Except.pure_eq_ok, Prod.mk.injEq] at h
    obtain ⟨-, hroot, rfl, -⟩ := h
    refine .inr ⟨hvalid, event?_eq_none.1 hnone, ?_, rfl⟩
    by_cases hself : e.rootDeliveryId = e.deliveryId
    · exact ⟨e, List.mem_append_right _ List.mem_cons_self, hself.symm⟩
    · obtain ⟨r, hr⟩ := Option.ne_none_iff_exists'.1 fun hnone => hroot ⟨hself, hnone⟩
      obtain ⟨hmem, hid⟩ := event?_eq_some hr
      exact ⟨r, List.mem_append_left _ hmem, hid⟩

theorem nextClaimable_eq_some (h : s.nextClaimable now = some e) :
    e ∈ s.events ∧ s.isClaimable now e = true :=
  List.mem_filter.1 (List.argmin_mem h)

theorem isClaimable_iff : s.isClaimable now e = true ↔
    s.isAcknowledged e.deliveryId = false ∧ s.isDeadLettered e.deliveryId = false ∧
      (s.attemptsOf e.deliveryId).length < e.maxAttempts ∧ s.rootIsReady e = true ∧
      s.isFree now e.deliveryId = true := by
  simp [isClaimable]

theorem claimNext_cases {workerId : String} {leaseSeconds : ℤ} {given : Option HermesDeliveryClaim}
    (h : s.claimNext sha workerId now leaseSeconds = .ok (s', given)) :
    now.aware = true ∧ (s' = s ∧ given = none ∨
      ∃ e a, e ∈ s.events ∧ s.isClaimable (now.astimezone UTC) e = true ∧
        a = s.nextAttempt sha e workerId (now.astimezone UTC) leaseSeconds ∧
        validateAttempt sha a = true ∧ (∀ x ∈ s.attempts, x.attemptId ≠ a.attemptId) ∧
        s' = { s with attempts := s.attempts ++ [a] } ∧ given = some (s'.claimOf e a)) := by
  rw [claimNext, Except.bind_eq_ok] at h
  obtain ⟨u, hvalid, h⟩ := h
  rw [Except.raiseIf_eq_ok, not_or, not_or, not_not] at hvalid
  refine ⟨hvalid.2.2, ?_⟩
  dsimp only at h
  split at h
  next =>
    simp only [Except.pure_eq_ok, Prod.mk.injEq] at h
    exact .inl ⟨h.1.symm, h.2.symm⟩
  next e hnext =>
    simp only [insertAttempt, Except.bind_eq_ok, Except.raiseIf_eq_ok, Except.pure_eq_ok,
      Prod.mk.injEq, not_not] at h
    obtain ⟨-, hattempt, -, ⟨-, hfresh, rfl⟩, rfl, rfl⟩ := h
    obtain ⟨hmem, hclaimable⟩ := nextClaimable_eq_some hnext
    refine .inr ⟨e, _, hmem, hclaimable, rfl, hattempt, fun x hx hid => hfresh ?_, rfl, rfl⟩
    exact List.any_eq_true.2 ⟨x, hx, decide_eq_true (.inl hid)⟩

theorem requireClaim_eq_ok {at_ : DateTime} {u : Unit} : s.requireClaim claim at_ = .ok u ↔
    (at_.aware = true ∧ at_ ≤ claim.attempt.leaseExpiresAt) ∧
      (s.latestAttempt claim.event.deliveryId).map (·.attemptId) = some claim.attempt.attemptId ∧
      s.transitionOf claim.attempt.attemptId = none ∧
      s.isAcknowledged claim.event.deliveryId = false := by
  simp only [requireClaim, Except.bind_eq_ok, Except.raiseIf_eq_ok, not_or, not_not, exists_const,
    DateTime.not_lt, Bool.not_eq_true, Bool.not_eq_false]

theorem acknowledge_cases {platformMessageId : String} {acknowledgedAt : DateTime} {new : Bool}
    (h : s.acknowledge sha claim platformMessageId acknowledgedAt = .ok (s', new)) :
    s' = s ∧ s.acknowledgementOf claim.event.deliveryId =
        some (acknowledgementFor sha claim platformMessageId acknowledgedAt) ∨
      s.requireClaim claim acknowledgedAt = .ok () ∧
        validateAcknowledgement sha (acknowledgementFor sha claim platformMessageId acknowledgedAt)
          = true ∧
        s' = { s with acknowledgements := s.acknowledgements ++
          [acknowledgementFor sha claim platformMessageId acknowledgedAt] } := by
  rw [acknowledge, Except.bind_eq_ok] at h
  obtain ⟨u, hvalid, h⟩ := h
  rw [Except.raiseIf_eq_ok, not_not] at hvalid
  split at h
  next existing hexisting =>
    simp only [Except.bind_eq_ok, Except.raiseIf_eq_ok, Except.pure_eq_ok, Prod.mk.injEq,
      not_not] at h
    obtain ⟨-, rfl, rfl, -⟩ := h
    exact .inl ⟨rfl, hexisting⟩
  next =>
    rw [Except.bind_eq_ok] at h
    obtain ⟨u, hclaim, h⟩ := h
    simp only [insertAcknowledgement, Except.bind_eq_ok, Except.raiseIf_eq_ok, Except.pure_eq_ok,
      Prod.mk.injEq] at h
    obtain ⟨-, ⟨-, -, rfl⟩, rfl, -⟩ := h
    exact .inr ⟨hclaim, hvalid, rfl⟩

theorem fail_cases {failure : HermesDeliveryFailure} (h : s.fail sha claim failure = .ok (s', t)) :
    s.requireClaim claim failure.failedAt = .ok () ∧ t = transitionFor sha claim failure ∧
      validateTransition sha t = true ∧ s' = { s with transitions := s.transitions ++ [t] } := by
  rw [fail, Except.bind_eq_ok] at h
  obtain ⟨u, -, h⟩ := h
  rw [Except.bind_eq_ok] at h
  obtain ⟨u, hclaim, h⟩ := h
  simp only [insertTransition, Except.bind_eq_ok, Except.raiseIf_eq_ok, Except.pure_eq_ok,
    Prod.mk.injEq, not_not] at h
  obtain ⟨-, hvalid, -, ⟨-, -, rfl⟩, rfl, rfl⟩ := h
  exact ⟨hclaim, rfl, hvalid, rfl⟩

theorem redrive_cases {transitionId : String} {new : Bool}
    (h : s.redriveTimeoutDeadLetter sha transitionId = .ok (s', new)) :
    ∃ e, s.appendEvent sha e = .ok (s', new) := by
  rw [redriveTimeoutDeadLetter, Except.bind_eq_ok] at h
  obtain ⟨-, -, h⟩ := h
  split at h
  next transition htransition =>
    split at h
    next original horiginal =>
      rw [Except.bind_eq_ok] at h
      obtain ⟨-, -, h⟩ := h
      split at h
      next => cases h
      next => exact ⟨_, h⟩
    next => cases h
  next => cases h

/-! ## Attempts -/

theorem mem_attemptsOf : a ∈ s.attemptsOf deliveryId ↔ a ∈ s.attempts ∧ a.deliveryId = deliveryId := by
  rw [attemptsOf, List.mem_filter, decide_eq_true_eq]

theorem attemptsOf_insert (s : HermesDeliveryStore) (a : HermesDeliveryAttempt)
    (deliveryId : String) :
    ({ s with attempts := s.attempts ++ [a] } : HermesDeliveryStore).attemptsOf deliveryId =
      s.attemptsOf deliveryId ++ if a.deliveryId = deliveryId then [a] else [] := by
  rw [attemptsOf, attemptsOf, List.filter_append, List.filter_singleton]
  by_cases h : a.deliveryId = deliveryId <;> simp [h]

theorem attemptsOf_insert_of_ne (h : a.deliveryId ≠ deliveryId) :
    ({ s with attempts := s.attempts ++ [a] } : HermesDeliveryStore).attemptsOf deliveryId =
      s.attemptsOf deliveryId := by
  rw [attemptsOf_insert, if_neg h, List.append_nil]

theorem latestAttempt_mem (h : s.latestAttempt deliveryId = some a) :
    a ∈ s.attempts ∧ a.deliveryId = deliveryId :=
  mem_attemptsOf.1 (List.argmax_mem h)

theorem latestAttempt_eq_none : s.latestAttempt deliveryId = none ↔ s.attemptsOf deliveryId = [] :=
  List.argmax_eq_none

theorem transitionOf_eq_none {attemptId : String} :
    s.transitionOf attemptId = none ↔ ∀ t ∈ s.transitions, t.attemptId ≠ attemptId := by
  simp [transitionOf]

theorem transitionOf_eq_some {attemptId : String} (h : s.transitionOf attemptId = some t) :
    t ∈ s.transitions ∧ t.attemptId = attemptId :=
  ⟨List.mem_of_find?_eq_some h, by simpa using List.find?_some h⟩

theorem isAcknowledged_iff :
    s.isAcknowledged deliveryId = true ↔ ∃ k ∈ s.acknowledgements, k.deliveryId = deliveryId := by
  simp [isAcknowledged]

theorem isDeadLettered_iff : s.isDeadLettered deliveryId = true ↔
    ∃ t ∈ s.transitions, t.deliveryId = deliveryId ∧ t.kind = .deadLetter := by
  simp [isDeadLettered]

end HermesDeliveryStore

open HermesDeliveryStore

/-! ## What holds of every store -/

/-- The attempts of a delivery, as they are allowed: it has not more than it may have, and was not
    tried before its root was acknowledged. -/
structure IsClaimed (s : HermesDeliveryStore) (e : HermesDeliveryEvent) : Prop where
  length_le : (s.attemptsOf e.deliveryId).length ≤ e.maxAttempts
  ready : s.attemptsOf e.deliveryId ≠ [] → s.rootIsReady e = true

structure StoreInv (sha : Sha256) (s : HermesDeliveryStore) : Prop where
  events : ∀ e ∈ s.events, validateEvent sha e = true
  eventIds : (s.events.map (·.deliveryId)).Nodup
  roots : ∀ e ∈ s.events, ∃ r ∈ s.events, r.deliveryId = e.rootDeliveryId
  attempts : ∀ a ∈ s.attempts, validateAttempt sha a = true
  attemptIds : (s.attempts.map (·.attemptId)).Nodup
  numbered : ∀ deliveryId, (s.attemptsOf deliveryId).map (·.attemptNumber) =
    List.range' 1 (s.attemptsOf deliveryId).length
  attempted : ∀ a ∈ s.attempts, ∃ e ∈ s.events, e.deliveryId = a.deliveryId
  claimed : ∀ e ∈ s.events, IsClaimed s e
  transitions : ∀ t ∈ s.transitions, validateTransition sha t = true
  failed : ∀ t ∈ s.transitions, ∃ a ∈ s.attempts,
    a.attemptId = t.attemptId ∧ a.deliveryId = t.deliveryId
  /-- No attempt follows a dead letter. -/
  dead : ∀ t ∈ s.transitions, t.kind = .deadLetter →
    (s.latestAttempt t.deliveryId).map (·.attemptId) = some t.attemptId
  acknowledgements : ∀ k ∈ s.acknowledgements, validateAcknowledgement sha k = true
  /-- No attempt follows an acknowledgement, and the one that was acknowledged did not fail. -/
  acknowledged : ∀ k ∈ s.acknowledgements,
    (s.latestAttempt k.deliveryId).map (·.attemptId) = some k.attemptId ∧
      s.transitionOf k.attemptId = none
  acknowledgedOnce : (s.acknowledgements.map (·.deliveryId)).Nodup

namespace StoreInv

theorem empty : StoreInv sha {} := by
  constructor <;> simp [attemptsOf]

/-- The last attempt of a delivery has the number of its attempts. -/
theorem sequence_le (h : StoreInv sha s) (ha : a ∈ s.attemptsOf deliveryId) :
    a.attemptNumber < (s.attemptsOf deliveryId).length + 1 := by
  have hmem : a.attemptNumber ∈ List.range' 1 (s.attemptsOf deliveryId).length :=
    h.numbered deliveryId ▸ List.mem_map_of_mem ha
  have hlt := (List.mem_range'_1.1 hmem).2
  omega

theorem appendEvent (h : StoreInv sha s) (hvalid : validateEvent sha e = true)
    (hnew : ∀ x ∈ s.events, x.deliveryId ≠ e.deliveryId)
    (hroot : ∃ r ∈ s.events ++ [e], r.deliveryId = e.rootDeliveryId) :
    StoreInv sha { s with events := s.events ++ [e] } where
  events := by
    rw [List.forall_mem_append, List.forall_mem_singleton]
    exact ⟨h.events, hvalid⟩
  eventIds := by
    rw [List.map_append, List.map_singleton, List.nodup_append_comm]
    refine List.nodup_cons.2 ⟨fun hmem => ?_, h.eventIds⟩
    obtain ⟨x, hx, hid⟩ := List.mem_map.1 hmem
    exact hnew x hx hid
  roots := by
    rw [List.forall_mem_append, List.forall_mem_singleton]
    refine ⟨fun x hx => ?_, hroot⟩
    obtain ⟨r, hr, hid⟩ := h.roots x hx
    exact ⟨r, List.mem_append_left _ hr, hid⟩
  attempts := h.attempts
  attemptIds := h.attemptIds
  numbered := h.numbered
  attempted a ha := by
    obtain ⟨x, hx, hid⟩ := h.attempted a ha
    exact ⟨x, List.mem_append_left _ hx, hid⟩
  claimed := by
    rw [List.forall_mem_append, List.forall_mem_singleton]
    have hnone : s.attemptsOf e.deliveryId = [] := by
      refine List.eq_nil_iff_forall_not_mem.2 fun a ha => ?_
      obtain ⟨ha, hid⟩ := mem_attemptsOf.1 ha
      obtain ⟨x, hx, hxid⟩ := h.attempted a ha
      exact hnew x hx (hxid.trans hid)
    refine ⟨fun x hx => ⟨(h.claimed x hx).length_le, (h.claimed x hx).ready⟩, ?_, ?_⟩
    · show (s.attemptsOf e.deliveryId).length ≤ e.maxAttempts
      rw [hnone]
      exact Nat.zero_le _
    · exact fun hne => absurd hnone hne
  transitions := h.transitions
  failed := h.failed
  dead := h.dead
  acknowledgements := h.acknowledgements
  acknowledged := h.acknowledged
  acknowledgedOnce := h.acknowledgedOnce

/-- The next attempt has a number greater than those before it, so it is the latest one. -/
theorem latestAttempt_insert (h : StoreInv sha s) {workerId : String} {leaseSeconds : ℤ}
    (ha : a = s.nextAttempt sha e workerId now leaseSeconds) :
    ({ s with attempts := s.attempts ++ [a] } : HermesDeliveryStore).latestAttempt e.deliveryId =
      some a := by
  have hid : a.deliveryId = e.deliveryId := congrArg (·.deliveryId) ha
  rw [latestAttempt, attemptsOf_insert, if_pos hid]
  refine argmax_concat_of_lt fun b hb => ?_
  rw [ha]
  exact h.sequence_le hb

theorem insertAttempt (h : StoreInv sha s) (he : e ∈ s.events) {workerId : String}
    {leaseSeconds : ℤ} (hclaimable : s.isClaimable now e = true)
    (ha : a = s.nextAttempt sha e workerId now leaseSeconds) (hvalid : validateAttempt sha a = true)
    (hnew : ∀ x ∈ s.attempts, x.attemptId ≠ a.attemptId) :
    StoreInv sha { s with attempts := s.attempts ++ [a] } := by
  obtain ⟨hunacked, hundead, hlt, hready, -⟩ := isClaimable_iff.1 hclaimable
  have hid : a.deliveryId = e.deliveryId := congrArg (·.deliveryId) ha
  have hnumber : a.attemptNumber = (s.attemptsOf e.deliveryId).length + 1 :=
    congrArg (·.attemptNumber) ha
  -- The attempts of all other deliveries stay as they are.
  have hother : ∀ deliveryId, e.deliveryId ≠ deliveryId →
      ({ s with attempts := s.attempts ++ [a] } : HermesDeliveryStore).attemptsOf deliveryId =
        s.attemptsOf deliveryId := fun deliveryId hne => attemptsOf_insert_of_ne (hid ▸ hne)
  have hlatest : ∀ deliveryId, e.deliveryId ≠ deliveryId →
      ({ s with attempts := s.attempts ++ [a] } : HermesDeliveryStore).latestAttempt deliveryId =
        s.latestAttempt deliveryId := fun deliveryId hne => by
    rw [latestAttempt, hother deliveryId hne, latestAttempt]
  constructor
  case events => exact h.events
  case eventIds => exact h.eventIds
  case roots => exact h.roots
  case attempts =>
    rw [List.forall_mem_append, List.forall_mem_singleton]
    exact ⟨h.attempts, hvalid⟩
  case attemptIds =>
    rw [List.map_append, List.map_singleton, List.nodup_append_comm]
    refine List.nodup_cons.2 ⟨fun hmem => ?_, h.attemptIds⟩
    obtain ⟨x, hx, hxid⟩ := List.mem_map.1 hmem
    exact hnew x hx hxid
  case numbered =>
    intro deliveryId
    by_cases heq : e.deliveryId = deliveryId
    · subst heq
      rw [attemptsOf_insert, if_pos hid, List.map_append, h.numbered, List.length_append,
        List.map_singleton, List.length_singleton, List.range'_1_concat, hnumber, Nat.add_comm 1]
    · rw [hother deliveryId heq]
      exact h.numbered deliveryId
  case attempted =>
    rw [List.forall_mem_append, List.forall_mem_singleton]
    exact ⟨h.attempted, e, he, hid.symm⟩
  case claimed =>
    intro x hx
    by_cases heq : e.deliveryId = x.deliveryId
    · have hsame : x = e := List.inj_on_of_nodup_map h.eventIds hx he heq.symm
      rw [hsame]
      refine ⟨?_, fun _ => hready⟩
      rw [attemptsOf_insert, if_pos hid, List.length_append]
      exact hlt
    · refine ⟨?_, fun hne => ?_⟩
      · rw [hother x.deliveryId heq]
        exact (h.claimed x hx).length_le
      · rw [hother x.deliveryId heq] at hne
        exact (h.claimed x hx).ready hne
  case transitions => exact h.transitions
  case failed =>
    intro t ht
    obtain ⟨x, hx, hids⟩ := h.failed t ht
    exact ⟨x, List.mem_append_left _ hx, hids⟩
  case dead =>
    intro t ht hdead
    have hne : e.deliveryId ≠ t.deliveryId := by
      intro heq
      have : s.isDeadLettered e.deliveryId = true := isDeadLettered_iff.2 ⟨t, ht, heq.symm, hdead⟩
      rw [hundead] at this
      cases this
    rw [hlatest t.deliveryId hne]
    exact h.dead t ht hdead
  case acknowledgements => exact h.acknowledgements
  case acknowledged =>
    intro k hk
    have hne : e.deliveryId ≠ k.deliveryId := by
      intro heq
      have : s.isAcknowledged e.deliveryId = true := isAcknowledged_iff.2 ⟨k, hk, heq.symm⟩
      rw [hunacked] at this
      cases this
    rw [hlatest k.deliveryId hne]
    exact h.acknowledged k hk
  case acknowledgedOnce => exact h.acknowledgedOnce

/-- The attempt of an identity that is the latest one of a delivery. -/
theorem eq_of_latest (h : StoreInv sha s) (ha : a ∈ s.attempts)
    (hlatest : (s.latestAttempt deliveryId).map (·.attemptId) = some a.attemptId) :
    s.latestAttempt deliveryId = some a := by
  obtain ⟨last, hlast, hid⟩ := Option.map_eq_some_iff.1 hlatest
  rw [hlast, List.inj_on_of_nodup_map h.attemptIds (latestAttempt_mem hlast).1 ha hid]

theorem insertAcknowledgement (h : StoreInv sha s) (hvalid : validateAcknowledgement sha k = true)
    (hlatest : (s.latestAttempt k.deliveryId).map (·.attemptId) = some k.attemptId)
    (hrunning : s.transitionOf k.attemptId = none) (hunacked : s.isAcknowledged k.deliveryId = false) :
    StoreInv sha { s with acknowledgements := s.acknowledgements ++ [k] } := by
  have hready : ∀ e, s.rootIsReady e = true → ({ s with
      acknowledgements := s.acknowledgements ++ [k] } : HermesDeliveryStore).rootIsReady e = true := by
    intro e he
    rcases of_decide_eq_true he with hself | hroot
    · exact decide_eq_true (.inl hself)
    · obtain ⟨x, hx, hid⟩ := isAcknowledged_iff.1 hroot
      exact decide_eq_true (.inr (isAcknowledged_iff.2 ⟨x, List.mem_append_left _ hx, hid⟩))
  constructor
  case events => exact h.events
  case eventIds => exact h.eventIds
  case roots => exact h.roots
  case attempts => exact h.attempts
  case attemptIds => exact h.attemptIds
  case numbered => exact h.numbered
  case attempted => exact h.attempted
  case claimed =>
    exact fun x hx => ⟨(h.claimed x hx).length_le, fun hne => hready x ((h.claimed x hx).ready hne)⟩
  case transitions => exact h.transitions
  case failed => exact h.failed
  case dead => exact h.dead
  case acknowledgements =>
    rw [List.forall_mem_append, List.forall_mem_singleton]
    exact ⟨h.acknowledgements, hvalid⟩
  case acknowledged =>
    rw [List.forall_mem_append, List.forall_mem_singleton]
    exact ⟨h.acknowledged, hlatest, hrunning⟩
  case acknowledgedOnce =>
    rw [List.map_append, List.map_singleton, List.nodup_append_comm]
    refine List.nodup_cons.2 ⟨fun hmem => ?_, h.acknowledgedOnce⟩
    obtain ⟨x, hx, hid⟩ := List.mem_map.1 hmem
    rw [isAcknowledged_iff.2 ⟨x, hx, hid⟩] at hunacked
    cases hunacked

theorem insertTransition (h : StoreInv sha s) (hvalid : validateTransition sha t = true)
    (hlatest : (s.latestAttempt t.deliveryId).map (·.attemptId) = some t.attemptId)
    (hunacked : s.isAcknowledged t.deliveryId = false) :
    StoreInv sha { s with transitions := s.transitions ++ [t] } := by
  obtain ⟨a, ha, hid⟩ := Option.map_eq_some_iff.1 hlatest
  obtain ⟨hmem, hdelivery⟩ := latestAttempt_mem ha
  constructor
  case events => exact h.events
  case eventIds => exact h.eventIds
  case roots => exact h.roots
  case attempts => exact h.attempts
  case attemptIds => exact h.attemptIds
  case numbered => exact h.numbered
  case attempted => exact h.attempted
  case claimed => exact fun x hx => ⟨(h.claimed x hx).length_le, (h.claimed x hx).ready⟩
  case transitions =>
    rw [List.forall_mem_append, List.forall_mem_singleton]
    exact ⟨h.transitions, hvalid⟩
  case failed =>
    rw [List.forall_mem_append, List.forall_mem_singleton]
    exact ⟨h.failed, a, hmem, hid, hdelivery⟩
  case dead =>
    rw [List.forall_mem_append, List.forall_mem_singleton]
    exact ⟨h.dead, fun _ => hlatest⟩
  case acknowledgements => exact h.acknowledgements
  case acknowledged =>
    intro k hk
    obtain ⟨hlast, hnone⟩ := h.acknowledged k hk
    refine ⟨hlast, transitionOf_eq_none.2 ?_⟩
    rw [List.forall_mem_append, List.forall_mem_singleton]
    refine ⟨transitionOf_eq_none.1 hnone, fun heq => ?_⟩
    -- The attempt that failed is not the one that was acknowledged: it is of another delivery.
    rw [← heq, ← hid] at hlast
    have hsame := (latestAttempt_mem (h.eq_of_latest hmem hlast)).2
    have hacked : s.isAcknowledged t.deliveryId = true :=
      isAcknowledged_iff.2 ⟨k, hk, hsame.symm.trans hdelivery⟩
    rw [hacked] at hunacked
    cases hunacked
  case acknowledgedOnce => exact h.acknowledgedOnce

end StoreInv

/-! ## What holds of every world -/

/-- A claim that was given to a worker. -/
structure IsGiven (s : HermesDeliveryStore) (claim : HermesDeliveryClaim) : Prop where
  event : claim.event ∈ s.events
  attempt : claim.attempt ∈ s.attempts
  deliveryId : claim.attempt.deliveryId = claim.event.deliveryId

structure WorldInv (sha : Sha256) (w : HermesWorld) : Prop extends StoreInv sha w.store where
  given : ∀ claim ∈ w.claims, IsGiven w.store claim
  owned : ∀ a ∈ w.store.attempts, ∃ claim ∈ w.claims, claim.attempt = a

/-- What a call does to the store and the claims, if it does not fail. -/
inductive Effect (sha : Sha256) (w : HermesWorld) :
    HermesCall → HermesDeliveryStore → Option HermesDeliveryClaim → Prop
  | same (call) : Effect sha w call w.store none
  | event (call) (e) (hvalid : validateEvent sha e = true)
      (hnew : ∀ x ∈ w.store.events, x.deliveryId ≠ e.deliveryId)
      (hroot : ∃ r ∈ w.store.events ++ [e], r.deliveryId = e.rootDeliveryId) :
      Effect sha w call { w.store with events := w.store.events ++ [e] } none
  | attempt (workerId now leaseSeconds) (e) (a) (s) (he : e ∈ w.store.events)
      (hclaimable : w.store.isClaimable (now.astimezone UTC) e = true)
      (ha : a = w.store.nextAttempt sha e workerId (now.astimezone UTC) leaseSeconds)
      (hvalid : validateAttempt sha a = true)
      (hnew : ∀ x ∈ w.store.attempts, x.attemptId ≠ a.attemptId)
      (hs : s = { w.store with attempts := w.store.attempts ++ [a] }) :
      Effect sha w (.claimNext workerId now leaseSeconds) s (some (s.claimOf e a))
  | acknowledgement (claim platformMessageId acknowledgedAt)
      (hclaim : w.store.requireClaim claim acknowledgedAt = .ok ())
      (hvalid : validateAcknowledgement sha
        (acknowledgementFor sha claim platformMessageId acknowledgedAt) = true) :
      Effect sha w (.acknowledge claim platformMessageId acknowledgedAt)
        { w.store with acknowledgements := w.store.acknowledgements ++
          [acknowledgementFor sha claim platformMessageId acknowledgedAt] } none
  | transition (claim failure)
      (hclaim : w.store.requireClaim claim failure.failedAt = .ok ())
      (hvalid : validateTransition sha (transitionFor sha claim failure) = true) :
      Effect sha w (.fail claim failure)
        { w.store with transitions := w.store.transitions ++
          [transitionFor sha claim failure] } none

theorem effect_of_result {w : HermesWorld} {call : HermesCall} {given : Option HermesDeliveryClaim}
    (h : call.result sha w.store = .ok (s, given)) : Effect sha w call s given := by
  cases call with
  | appendEvent e =>
    rw [HermesCall.result, Except.bind_eq_ok] at h
    obtain ⟨⟨s', new⟩, happend, h⟩ := h
    cases h
    obtain rfl | ⟨hvalid, hnew, hroot, rfl⟩ := appendEvent_cases happend
    · exact .same _
    · exact .event _ e hvalid hnew hroot
  | claimNext workerId now leaseSeconds =>
    obtain ⟨-, ⟨rfl, rfl⟩ | ⟨e, a, he, hclaimable, ha, hvalid, hnew, hs, rfl⟩⟩ := claimNext_cases h
    · exact .same _
    · exact .attempt workerId now leaseSeconds e a s he hclaimable ha hvalid hnew hs
  | acknowledge claim platformMessageId acknowledgedAt =>
    rw [HermesCall.result, Except.bind_eq_ok] at h
    obtain ⟨⟨s', new⟩, hacknowledge, h⟩ := h
    cases h
    obtain ⟨rfl, -⟩ | ⟨hclaim, hvalid, rfl⟩ := acknowledge_cases hacknowledge
    · exact .same _
    · exact .acknowledgement claim platformMessageId acknowledgedAt hclaim hvalid
  | fail claim failure =>
    rw [HermesCall.result, Except.bind_eq_ok] at h
    obtain ⟨⟨s', t⟩, hfail, h⟩ := h
    cases h
    obtain ⟨hclaim, rfl, hvalid, rfl⟩ := fail_cases hfail
    exact .transition claim failure hclaim hvalid
  | redrive transitionId =>
    rw [HermesCall.result, Except.bind_eq_ok] at h
    obtain ⟨⟨s', new⟩, hredrive, h⟩ := h
    cases h
    obtain ⟨e, happend⟩ := redrive_cases hredrive
    obtain rfl | ⟨hvalid, hnew, hroot, rfl⟩ := appendEvent_cases happend
    · exact .same _
    · exact .event _ e hvalid hnew hroot

/-- What a step does: nothing, if the call fails, or else the effect of the call. -/
theorem effect_of_step {w w' : HermesWorld} {call : HermesCall}
    (h : (hermesSystem sha).step w call w') :
    ∃ given, Effect sha w call w'.store given ∧ w'.claims = w.claims ++ given.toList := by
  obtain ⟨-, -, rfl⟩ := h
  rw [HermesWorld.after]
  split
  next s given hresult => exact ⟨given, effect_of_result hresult, rfl⟩
  next => exact ⟨none, .same call, (List.append_nil _).symm⟩

theorem clock_after {w : HermesWorld} {call : HermesCall} :
    (w.after sha call).clock = (call.time.map DateTime.instant).getD w.clock := by
  rw [HermesWorld.after]
  split <;> rfl

theorem clock_le {w w' : HermesWorld} {call : HermesCall}
    (h : (hermesSystem sha).step w call w') : w.clock ≤ w'.clock := by
  obtain ⟨htime, -, rfl⟩ := h
  rw [clock_after]
  cases ht : call.time with
  | none => exact Int.le_refl _
  | some t => exact htime t ht

/-- Calls that answer no claim can be made by anyone. -/
theorem reachable_after {w : HermesWorld} (call : HermesCall) (h : (hermesSystem sha).Reachable w)
    (htime : ∀ t ∈ call.time, w.clock ≤ t.instant) (hclaim : call.claim = none) :
    (hermesSystem sha).Reachable (w.after sha call) :=
  h.step ⟨htime, fun _ hc => absurd (hclaim ▸ hc) (Option.not_mem_none _), rfl⟩

/-- The tables are only added to. -/
structure Extends (s s' : HermesDeliveryStore) : Prop where
  events : s.events <+: s'.events
  attempts : s.attempts <+: s'.attempts
  transitions : s.transitions <+: s'.transitions
  acknowledgements : s.acknowledgements <+: s'.acknowledgements

theorem Effect.extends {w : HermesWorld} {call : HermesCall} {given : Option HermesDeliveryClaim}
    (h : Effect sha w call s given) : Extends w.store s := by
  have hself {α : Type} (l : List α) : l <+: l := List.prefix_rfl
  cases h with
  | same => exact ⟨hself _, hself _, hself _, hself _⟩
  | event => exact ⟨List.prefix_append _ _, hself _, hself _, hself _⟩
  | attempt _ _ _ e a s _ _ _ _ _ hs =>
    subst hs
    exact ⟨hself _, List.prefix_append _ _, hself _, hself _⟩
  | acknowledgement => exact ⟨hself _, hself _, hself _, List.prefix_append _ _⟩
  | transition => exact ⟨hself _, hself _, List.prefix_append _ _, hself _⟩

theorem StoreInv.effect {w : HermesWorld} {call : HermesCall} {given : Option HermesDeliveryClaim}
    (h : StoreInv sha w.store) (heffect : Effect sha w call s given) : StoreInv sha s := by
  cases heffect with
  | same => exact h
  | event _ e hvalid hnew hroot => exact h.appendEvent hvalid hnew hroot
  | attempt _ _ _ e a s he hclaimable ha hvalid hnew hs =>
    rw [hs]
    exact h.insertAttempt he hclaimable ha hvalid hnew
  | acknowledgement claim _ _ hclaim hvalid =>
    obtain ⟨-, hlatest, hrunning, hunacked⟩ := requireClaim_eq_ok.1 hclaim
    exact h.insertAcknowledgement hvalid hlatest hrunning hunacked
  | transition claim failure hclaim hvalid =>
    obtain ⟨-, hlatest, -, hunacked⟩ := requireClaim_eq_ok.1 hclaim
    exact h.insertTransition hvalid hlatest hunacked

theorem Effect.isGiven {w : HermesWorld} {call : HermesCall}
    (h : Effect sha w call s (some claim)) : IsGiven s claim := by
  cases h with
  | attempt workerId now leaseSeconds e a s he hclaimable ha hvalid hnew hs =>
    subst hs
    exact ⟨he, List.mem_append_right _ List.mem_cons_self, congrArg (·.deliveryId) ha⟩

/-- An attempt that a call adds is that of the claim that it gives. -/
theorem Effect.owned {w : HermesWorld} {call : HermesCall} {given : Option HermesDeliveryClaim}
    (h : Effect sha w call s given) (ha : a ∈ s.attempts) :
    a ∈ w.store.attempts ∨ ∃ claim ∈ given, claim.attempt = a := by
  cases h with
  | same | event | acknowledgement | transition => exact .inl ha
  | attempt _ _ _ e x s _ _ _ _ _ hs =>
    subst hs
    rcases List.mem_append.1 ha with hold | hnew
    · exact .inl hold
    · exact .inr ⟨_, rfl, (List.mem_singleton.1 hnew).symm⟩

theorem WorldInv.step {w w' : HermesWorld} {call : HermesCall} (h : WorldInv sha w)
    (hstep : (hermesSystem sha).step w call w') : WorldInv sha w' := by
  obtain ⟨given, heffect, hclaims⟩ := effect_of_step hstep
  have hextends := heffect.extends
  refine ⟨h.toStoreInv.effect heffect, fun claim hclaim => ?_, fun a ha => ?_⟩
  · rw [hclaims, List.mem_append, Option.mem_toList] at hclaim
    rcases hclaim with hold | hnew
    · have hgiven := h.given claim hold
      exact ⟨hextends.events.subset hgiven.event, hextends.attempts.subset hgiven.attempt,
        hgiven.deliveryId⟩
    · rw [Option.mem_def.1 hnew] at heffect
      exact heffect.isGiven
  · rw [hclaims]
    rcases heffect.owned ha with hold | ⟨claim, hclaim, hattempt⟩
    · obtain ⟨claim, hclaim, hattempt⟩ := h.owned a hold
      exact ⟨claim, List.mem_append_left _ hclaim, hattempt⟩
    · exact ⟨claim, List.mem_append_right _ (Option.mem_toList.2 hclaim), hattempt⟩

theorem WorldInv.run {w w' : HermesWorld} {calls : List HermesCall} (h : WorldInv sha w)
    (hrun : (hermesSystem sha).Run w calls w') : WorldInv sha w' := by
  induction hrun with
  | nil => exact h
  | cons hstep _ ih => exact ih (h.step hstep)

theorem worldInv_of_reachable {w : HermesWorld} (h : (hermesSystem sha).Reachable w) :
    WorldInv sha w := by
  refine h.invariant (fun w hinit => ?_) fun _ _ _ _ hinv hstep => hinv.step hstep
  obtain ⟨hstore, hclaims⟩ := hinit
  refine ⟨hstore ▸ StoreInv.empty, fun claim hclaim => ?_, fun a ha => ?_⟩
  · rw [hclaims] at hclaim
    exact absurd hclaim List.not_mem_nil
  · rw [hstore] at ha
    exact absurd ha List.not_mem_nil

end TradingAgent.Hermes
