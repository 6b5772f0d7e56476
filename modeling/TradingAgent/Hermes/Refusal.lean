import TradingAgent.Hermes.Connection
import TradingAgent.Hermes.Stranded

/-!
# Refused operations of the writer

An operation that raises an error is to leave the writer usable: no transaction is open, what is
committed is as it was, and the next operation does what it would have done before
(`LeavesUsable`). Two kinds of operations do not: a claim by a worker whose identity is no
identifier, if there is a delivery to claim, and an acknowledgement with a message that another
delivery was acknowledged with. Unless there is one of them (`WriterCall.IsClean`), the writer
stays usable along every run (`refused_leaves_usable_iff`).
-/

namespace TradingAgent.Hermes

open Transition HermesDeliveryStore

variable {sha : Sha256} {s s' : HermesDeliveryStore} {call : WriterCall}
  {error : HermesDeliveryError} {e : HermesDeliveryEvent} {now : DateTime} {workerId : String}
  {leaseSeconds : ℤ} {claim : HermesDeliveryClaim}

/-- The operation leaves the writer as usable as it was. -/
structure LeavesUsable (sha : Sha256) (c : Connection HermesDeliveryStore) (call : WriterCall) :
    Prop where
  closed : (call.run sha c).2.transaction = none
  committed : (call.run sha c).2.committed = c.committed
  next : ∀ next : WriterCall, next.run sha (call.run sha c).2 = next.run sha c

/-- What is asked of an operation: a worker that may get a delivery has an identifier, and no row
    is inserted that repeats a stored one. -/
def WriterCall.IsClean (sha : Sha256) (s : HermesDeliveryStore) : WriterCall → Prop
  | appendEvent _ => True
  | claimNext workerId now leaseSeconds =>
    1 ≤ leaseSeconds → leaseSeconds ≤ 300 → now.aware = true →
      ∀ e, s.nextClaimable (now.astimezone UTC) = some e →
        isIdentifier workerId = true ∧
          s.repeatsAttempt (s.nextAttempt sha e workerId (now.astimezone UTC) leaseSeconds) = false
  | acknowledge claim platformMessageId acknowledgedAt =>
    let k := acknowledgementFor sha claim platformMessageId acknowledgedAt
    validateAcknowledgement sha k = true → s.requireClaim claim acknowledgedAt = .ok () →
      s.repeatsAcknowledgement k = false
  | fail claim failure =>
    let t := transitionFor sha claim failure
    validateFailure failure = true → s.requireClaim claim failure.failedAt = .ok () →
      validateTransition sha t = true → s.repeatsTransition t = false

/-! ## When an error leaves a transaction open -/

/-- The next attempt of a delivery that can be claimed is valid exactly if the worker has an
    identifier. -/
theorem validateAttempt_nextAttempt (workerId : String) (now : DateTime) (h : StoreInv sha s)
    (he : e ∈ s.events)
    (hlt : (s.attemptsOf e.deliveryId).length < e.maxAttempts) (hlease : 1 ≤ leaseSeconds) :
    validateAttempt sha (s.nextAttempt sha e workerId (now.astimezone UTC) leaseSeconds) = true ↔
      isIdentifier workerId = true := by
  obtain ⟨hhex, -, hle⟩ := event_bounds h he
  simp only [validateAttempt, Bool.decide_and, Bool.and_eq_true, decide_eq_true_eq]
  refine ⟨fun hvalid => hvalid.2.2.2.2.1, fun hidentifier => ?_⟩
  refine ⟨rfl, hhex, Nat.le_add_left _ _, ?_, hidentifier, rfl, rfl, ?_⟩
  · show (s.attemptsOf e.deliveryId).length + 1 ≤ 10
    omega
  · show (now.astimezone UTC).wall - 0 < (now.astimezone UTC).wall + leaseSeconds * 1000000 - 0
    omega

theorem isClean_claimNext_iff (h : StoreInv sha s)
    (hrefused : s.claimNext sha workerId now leaseSeconds = .error error) :
    (WriterCall.claimNext workerId now leaseSeconds).IsClean sha s ↔ error = .invalidOperation := by
  rw [claimNext] at hrefused
  by_cases hlease : leaseSeconds < 1 ∨ 300 < leaseSeconds ∨ ¬ now.aware = true
  · rw [Except.raiseIf, if_pos hlease] at hrefused
    cases hrefused
    refine iff_of_true (fun hmin hmax haware => ?_) rfl
    rcases hlease with hlow | hhigh | hnaive
    · omega
    · omega
    · exact absurd haware hnaive
  rw [Except.raiseIf, if_neg hlease, Except.ok_bind] at hrefused
  dsimp only at hrefused
  cases hnext : s.nextClaimable (now.astimezone UTC) with
  | none =>
    rw [hnext] at hrefused
    cases hrefused
  | some e =>
    rw [hnext] at hrefused
    simp only [not_or, not_lt, not_not] at hlease
    obtain ⟨he, hclaimable⟩ := nextClaimable_eq_some hnext
    have hvalid := validateAttempt_nextAttempt workerId now h he
      (isClaimable_iff.1 hclaimable).2.2.1 hlease.1
    simp only [Except.bind_eq_error, Except.raiseIf_eq_error, Except.raiseIf_eq_ok, not_not,
      exists_const, Except.pure_ne_error, and_false, exists_false, or_false] at hrefused
    rcases hrefused with ⟨hinvalid, rfl⟩ | ⟨-, hinsert⟩
    · refine iff_of_false (fun hclean => hinvalid (hvalid.2 ?_)) (fun heq => by cases heq)
      exact (hclean hlease.1 hlease.2.1 hlease.2.2 e hnext).1
    · obtain ⟨hrepeats, rfl⟩ := insertAttempt_eq_error hinsert
      refine iff_of_false (fun hclean => ?_) (fun heq => by cases heq)
      rw [(hclean hlease.1 hlease.2.1 hlease.2.2 e hnext).2] at hrepeats
      cases hrepeats

theorem isClean_acknowledge_iff {platformMessageId : String} {acknowledgedAt : DateTime}
    (hrefused : s.acknowledge sha claim platformMessageId acknowledgedAt = .error error) :
    (WriterCall.acknowledge claim platformMessageId acknowledgedAt).IsClean sha s ↔
      error ≠ .integrity := by
  rw [acknowledge] at hrefused
  simp only [Except.bind_eq_error, Except.raiseIf_eq_error, Except.raiseIf_eq_ok, not_not,
    exists_const] at hrefused
  rcases hrefused with ⟨hinvalid, rfl⟩ | ⟨hvalid, hrefused⟩
  · exact iff_of_true (fun hvalid => absurd hvalid hinvalid) (fun heq => by cases heq)
  cases hexisting : s.acknowledgementOf claim.event.deliveryId with
  | some existing =>
    rw [hexisting] at hrefused
    simp only [Except.bind_eq_error, Except.raiseIf_eq_error, Except.pure_ne_error, and_false,
      exists_false, or_false] at hrefused
    obtain ⟨-, rfl⟩ := hrefused
    refine iff_of_true (fun _ hclaim => ?_) (fun heq => by cases heq)
    have hunacked := (requireClaim_eq_ok.1 hclaim).2.2.2
    have hacked : s.isAcknowledged claim.event.deliveryId = true :=
      isAcknowledged_iff.2 ⟨existing, List.mem_of_find?_eq_some hexisting,
        by simpa using List.find?_some hexisting⟩
    rw [hunacked] at hacked
    cases hacked
  | none =>
    rw [hexisting] at hrefused
    simp only [Except.bind_eq_error, Except.pure_ne_error, and_false, exists_false,
      or_false] at hrefused
    rcases hrefused with hclaim | ⟨⟨⟩, hclaim, hinsert⟩
    · obtain rfl := requireClaim_eq_error hclaim
      refine iff_of_true (fun _ hok => ?_) (fun heq => by cases heq)
      rw [hok] at hclaim
      cases hclaim
    · obtain ⟨hrepeats, rfl⟩ := insertAcknowledgement_eq_error hinsert
      refine iff_of_false (fun hclean => ?_) (fun hne => hne rfl)
      rw [hclean hvalid hclaim] at hrepeats
      cases hrepeats

theorem isClean_fail_iff {failure : HermesDeliveryFailure}
    (hrefused : s.fail sha claim failure = .error error) :
    (WriterCall.fail claim failure).IsClean sha s ↔ error ≠ .integrity := by
  rw [fail] at hrefused
  simp only [Except.bind_eq_error, Except.raiseIf_eq_error, Except.raiseIf_eq_ok, not_not,
    exists_const, Except.pure_ne_error, and_false, exists_false, or_false] at hrefused
  rcases hrefused with ⟨hinvalid, rfl⟩ | ⟨hfailure, hclaim | ⟨⟨⟩, hclaim, ⟨hinvalid, rfl⟩ |
    ⟨hvalid, hinsert⟩⟩⟩
  · exact iff_of_true (fun hfailure => absurd hfailure hinvalid) nofun
  · obtain rfl := requireClaim_eq_error hclaim
    refine iff_of_true (fun _ hok => ?_) nofun
    rw [hok] at hclaim
    cases hclaim
  · exact iff_of_true (fun _ _ hvalid => absurd hvalid hinvalid) nofun
  · obtain ⟨hrepeats, rfl⟩ := insertTransition_eq_error hinsert
    refine iff_of_false (fun hclean => ?_) (fun hne => hne rfl)
    rw [hclean hfailure hclaim hvalid] at hrepeats
    cases hrepeats

/-- The operations that raise an error and leave a transaction open are those that are not clean. -/
theorem isClean_iff (h : StoreInv sha s) (hrefused : call.result sha s = .error error) :
    call.IsClean sha s ↔ ¬ call.LeavesOpen error := by
  cases call with
  | appendEvent e => exact iff_of_true trivial id
  | claimNext workerId now leaseSeconds =>
    have hclaim : s.claimNext sha workerId now leaseSeconds = .error error := by
      rw [WriterCall.result, Except.bind_eq_error] at hrefused
      refine hrefused.resolve_right ?_
      rintro ⟨_, _, ⟨⟩⟩
    rw [isClean_claimNext_iff h hclaim, WriterCall.LeavesOpen, not_not]
  | acknowledge claim platformMessageId acknowledgedAt =>
    have hacknowledge : s.acknowledge sha claim platformMessageId acknowledgedAt = .error error := by
      rw [WriterCall.result, Except.bind_eq_error] at hrefused
      refine hrefused.resolve_right ?_
      rintro ⟨_, _, ⟨⟩⟩
    rw [isClean_acknowledge_iff hacknowledge, WriterCall.LeavesOpen]
  | fail claim failure =>
    have hfail : s.fail sha claim failure = .error error := by
      rw [WriterCall.result, Except.bind_eq_error] at hrefused
      refine hrefused.resolve_right ?_
      rintro ⟨_, _, ⟨⟩⟩
    rw [isClean_fail_iff hfail, WriterCall.LeavesOpen]

/-! ## The runs of a writer -/

/-- A writer makes operations, one after the other, on its connection. -/
def writerSystem (sha : Sha256) : System (Connection HermesDeliveryStore) WriterCall where
  init c := c = ⟨{}, none⟩
  step c call c' := c' = (call.run sha c).2

/-- The runs of a writer whose operations are all clean. -/
def cleanWriterSystem (sha : Sha256) : System (Connection HermesDeliveryStore) WriterCall where
  init c := c = ⟨{}, none⟩
  step c call c' := call.IsClean sha c.committed ∧ c' = (call.run sha c).2

/-- No transaction is open, and what is committed is a store. -/
structure IsUsable (sha : Sha256) (c : Connection HermesDeliveryStore) : Prop where
  closed : c.transaction = none
  store : StoreInv sha c.committed

theorem storeInv_of_result {answer : WriterAnswer} (h : StoreInv sha s)
    (hresult : call.result sha s = .ok (s', answer)) : StoreInv sha s' := by
  have heffect : ∃ hermesCall : HermesCall, ∃ given,
      hermesCall.result sha s = .ok (s', given) := by
    cases call with
    | appendEvent e =>
      rw [WriterCall.result, Except.bind_eq_ok] at hresult
      obtain ⟨⟨s'', inserted⟩, happend, hpure⟩ := hresult
      cases hpure
      exact ⟨.appendEvent e, none, by rw [HermesCall.result, happend]; rfl⟩
    | claimNext workerId now leaseSeconds =>
      rw [WriterCall.result, Except.bind_eq_ok] at hresult
      obtain ⟨⟨s'', given⟩, hclaim, hpure⟩ := hresult
      cases hpure
      exact ⟨.claimNext workerId now leaseSeconds, given, hclaim⟩
    | acknowledge claim platformMessageId acknowledgedAt =>
      rw [WriterCall.result, Except.bind_eq_ok] at hresult
      obtain ⟨⟨s'', new⟩, hacknowledge, hpure⟩ := hresult
      cases hpure
      exact ⟨.acknowledge claim platformMessageId acknowledgedAt, none,
        by rw [HermesCall.result, hacknowledge]; rfl⟩
    | fail claim failure =>
      rw [WriterCall.result, Except.bind_eq_ok] at hresult
      obtain ⟨⟨s'', t⟩, hfail, hpure⟩ := hresult
      cases hpure
      exact ⟨.fail claim failure, none, by rw [HermesCall.result, hfail]; rfl⟩
  obtain ⟨hermesCall, given, hcall⟩ := heffect
  exact StoreInv.effect (w := ⟨s, [], 0⟩) h (effect_of_result hcall)

theorem IsUsable.step {c : Connection HermesDeliveryStore} (h : IsUsable sha c)
    (hclean : call.IsClean sha c.committed) : IsUsable sha (call.run sha c).2 := by
  obtain ⟨s, transaction⟩ := c
  obtain rfl : transaction = none := h.closed
  rw [WriterCall.run_apply]
  cases hresult : call.result sha s with
  | ok result => exact ⟨rfl, storeInv_of_result h.store hresult⟩
  | error error =>
    refine ⟨?_, h.store⟩
    show (if call.LeavesOpen error then some s else none) = none
    rw [if_neg ((isClean_iff h.store hresult).1 hclean)]

theorem isUsable_of_reachable {c : Connection HermesDeliveryStore}
    (h : (cleanWriterSystem sha).Reachable c) : IsUsable sha c := by
  refine h.invariant (fun c hinit => ?_) fun c call c' _ husable hstep => ?_
  · rw [hinit]
    exact ⟨rfl, .empty⟩
  · rw [hstep.2]
    exact husable.step hstep.1

/-- Along every run whose operations are all clean, no transaction is open between them, and an
    operation that raises an error leaves the writer usable exactly if it is clean. -/
theorem refused_leaves_usable_iff {c : Connection HermesDeliveryStore}
    (h : (cleanWriterSystem sha).Reachable c) :
    c.transaction = none ∧ ∀ (call : WriterCall) (error : SessionError HermesDeliveryError),
      (call.run sha c).1 = .error error →
        (LeavesUsable sha c call ↔ call.IsClean sha c.committed) := by
  have husable := isUsable_of_reachable h
  refine ⟨husable.closed, fun call error hrefused => ?_⟩
  obtain ⟨s, transaction⟩ := c
  obtain rfl : transaction = none := husable.closed
  have hrun := WriterCall.run_apply sha s call
  cases hresult : call.result sha s with
  | ok result =>
    rw [hrun, hresult] at hrefused
    cases hrefused
  | error error =>
    rw [hresult] at hrun
    rw [isClean_iff husable.store hresult]
    refine ⟨fun hleaves hopen => ?_, fun hclosed => ?_⟩
    · have hnone := hleaves.closed
      rw [hrun] at hnone
      exact absurd (hnone.symm.trans (if_pos hopen)) nofun
    · have hsame : (call.run sha ⟨s, none⟩).2 = ⟨s, none⟩ := by
        rw [hrun]
        exact congrArg (Connection.mk s) (if_neg hclosed)
      exact ⟨by rw [hsame], by rw [hsame], fun next => by rw [hsame]⟩

namespace DeliverySample

/-- The connection after a delivery was appended. -/
def appended : Connection HermesDeliveryStore :=
  ((WriterCall.appendEvent (signal 3)).run digest ⟨{}, none⟩).2

theorem reachable_appended : (cleanWriterSystem digest).Reachable appended :=
  .step (.init rfl) (e := .appendEvent (signal 3)) ⟨trivial, rfl⟩

/-- A claim by a worker without a name. -/
def namelessClaim : WriterCall := .claimNext "" (noon 0) 10

/-- A claim for no time at all is refused, and the writer stays usable. -/
theorem refused_lease_leaves_usable :
    LeavesUsable digest appended (.claimNext "worker-a" (noon 0) 0) := by
  have hrefused : ((WriterCall.claimNext "worker-a" (noon 0) 0).run digest appended).1 =
      .error (.raised .invalidOperation) := by
    decide +kernel
  refine ((refused_leaves_usable_iff reachable_appended).2 _ _ hrefused).2 fun hmin => ?_
  exact absurd hmin (by decide)

/-- After a claim by a worker without a name was refused, a valid claim is refused as well, which
    would have been given otherwise. -/
theorem nameless_claim_blocks :
    (writerSystem digest).Reachable appended
      ∧ (namelessClaim.run digest appended).1 = .error (.raised .validation)
      ∧ (namelessClaim.run digest appended).2.transaction ≠ none
      ∧ ((WriterCall.claimNext "worker-a" (noon 0) 10).run digest
          (namelessClaim.run digest appended).2).1 = .error .transactionWithinTransaction
      ∧ ((WriterCall.claimNext "worker-a" (noon 0) 10).run digest appended).1 =
          .ok (.claimed (some (given 3 (attempt 1 "worker-a" 0)))) := by
  refine ⟨.step (.init rfl) (e := .appendEvent (signal 3)) rfl, ?_, ?_, ?_, ?_⟩ <;> decide +kernel

end DeliverySample

end TradingAgent.Hermes
