import TradingAgent.Hermes.Protocol

/-!
# One live claim and one outcome

Whatever the workers do, a delivery has one outcome at most, and is claimed by one worker at a time
(`one_claim_one_outcome`).
-/

namespace TradingAgent.Hermes

open Transition HermesDeliveryStore

variable {sha : Sha256} {s s' : HermesDeliveryStore} {e : HermesDeliveryEvent}
  {a : HermesDeliveryAttempt} {claim : HermesDeliveryClaim} {now : DateTime} {deliveryId : String}

/-- A delivery may be claimed: it has no outcome, and nobody else is at it. -/
structure IsOpen (s : HermesDeliveryStore) (e : HermesDeliveryEvent) (now : DateTime) : Prop where
  unacknowledged : s.isAcknowledged e.deliveryId = false
  notDead : s.isDeadLettered e.deliveryId = false
  /-- The time of the next attempt has come. -/
  due : ∀ a t, s.latestAttempt e.deliveryId = some a → s.transitionOf a.attemptId = some t →
    t.kind = .retryScheduled ∧ ∃ available ∈ t.availableAt, available ≤ now
  /-- The lease of the last attempt is over, if it was not answered. -/
  expired : ∀ a, s.latestAttempt e.deliveryId = some a → s.transitionOf a.attemptId = none →
    a.leaseExpiresAt ≤ now
  rootAcknowledged : e.deliveryId ≠ e.rootDeliveryId → s.isAcknowledged e.rootDeliveryId = true

/-- Each delivery has one live claim at most, and one outcome. -/
structure OneClaimOneOutcome (sha : Sha256) (w : HermesWorld) : Prop where
  acknowledgedOnce : ∀ deliveryId,
    (w.store.acknowledgements.filter (·.deliveryId = deliveryId)).length ≤ 1
  numbered : ∀ deliveryId, (w.store.attemptsOf deliveryId).map (·.attemptNumber) =
    List.range' 1 (w.store.attemptsOf deliveryId).length
  bounded : ∀ e ∈ w.store.events, (w.store.attemptsOf e.deliveryId).length ≤ e.maxAttempts
  oneOutcome : ∀ deliveryId,
    ¬ (w.store.isAcknowledged deliveryId = true ∧ w.store.isDeadLettered deliveryId = true)
  claimed : ∀ workerId now leaseSeconds s claim,
    w.store.claimNext sha workerId now leaseSeconds = .ok (s, some claim) →
      claim.event ∈ w.store.events ∧ IsOpen w.store claim.event now
  /-- A claim is refused after a later attempt was claimed. -/
  stale : ∀ claim ∈ w.claims, ∀ a ∈ w.store.attemptsOf claim.event.deliveryId,
    claim.attempt.attemptNumber < a.attemptNumber → ∀ call : HermesCall, call.claim = some claim →
      (∃ error, call.result sha w.store = .error error) ∧ (w.after sha call).store = w.store

theorem isOpen_of_isClaimable (h : s.isClaimable (now.astimezone UTC) e = true) :
    IsOpen s e now := by
  obtain ⟨hunacked, hundead, -, hready, hfree⟩ := isClaimable_iff.1 h
  have hle : ∀ t : DateTime, t ≤ now.astimezone UTC → t ≤ now := fun t ht => by
    rwa [DateTime.le_def, DateTime.instant_astimezone] at ht
  constructor
  case unacknowledged => exact hunacked
  case notDead => exact hundead
  case due =>
    intro a t ha ht
    rw [isFree, ha] at hfree
    dsimp only at hfree
    rw [ht] at hfree
    obtain ⟨hkind, havailable⟩ := of_decide_eq_true hfree
    obtain ⟨available, hmem, hdue⟩ := (Option.any_eq_true _ _).1 havailable
    exact ⟨hkind, available, hmem, hle available (of_decide_eq_true hdue)⟩
  case expired =>
    intro a ha ht
    rw [isFree, ha] at hfree
    dsimp only at hfree
    rw [ht] at hfree
    exact hle _ (of_decide_eq_true hfree)
  case rootAcknowledged =>
    intro hne
    exact (of_decide_eq_true hready).resolve_left hne

theorem not_acknowledged_and_dead (h : StoreInv sha s) :
    ¬ (s.isAcknowledged deliveryId = true ∧ s.isDeadLettered deliveryId = true) := by
  rintro ⟨hacked, hdead⟩
  obtain ⟨k, hk, rfl⟩ := isAcknowledged_iff.1 hacked
  obtain ⟨t, ht, hid, hkind⟩ := isDeadLettered_iff.1 hdead
  obtain ⟨hlatest, hnone⟩ := h.acknowledged k hk
  have hlast := h.dead t ht hkind
  rw [hid, hlatest] at hlast
  exact transitionOf_eq_none.1 hnone t ht (Option.some.inj hlast).symm

/-- An attempt is not the latest one of its delivery, if another one has a higher number. -/
theorem latestAttempt_ne (h : StoreInv sha s) (hgiven : IsGiven s claim)
    (ha : a ∈ s.attemptsOf claim.event.deliveryId)
    (hlt : claim.attempt.attemptNumber < a.attemptNumber) :
    (s.latestAttempt claim.event.deliveryId).map (·.attemptId) ≠ some claim.attempt.attemptId := by
  intro hlatest
  have hle := List.le_of_mem_argmax ha (h.eq_of_latest hgiven.attempt hlatest)
  omega

theorem stale_refused {call : HermesCall} (h : StoreInv sha s) (hgiven : IsGiven s claim)
    (ha : a ∈ s.attemptsOf claim.event.deliveryId)
    (hlt : claim.attempt.attemptNumber < a.attemptNumber) (hcall : call.claim = some claim) :
    ∃ error, call.result sha s = .error error := by
  have hne := latestAttempt_ne h hgiven ha hlt
  cases hresult : call.result sha s with
  | error error => exact ⟨error, rfl⟩
  | ok result =>
    exfalso
    cases call with
    | appendEvent | claimNext | redrive => cases hcall
    | acknowledge claim' platformMessageId acknowledgedAt =>
      cases hcall
      rw [HermesCall.result, Except.bind_eq_ok] at hresult
      obtain ⟨⟨s', new⟩, hacknowledge, -⟩ := hresult
      obtain ⟨-, hexisting⟩ | ⟨hclaim, -, -⟩ := acknowledge_cases hacknowledge
      · -- It was acknowledged before, but then not by this claim.
        have hmem := List.mem_of_find?_eq_some hexisting
        exact hne (h.acknowledged _ hmem).1
      · exact hne (requireClaim_eq_ok.1 hclaim).2.1
    | fail claim' failure =>
      cases hcall
      rw [HermesCall.result, Except.bind_eq_ok] at hresult
      obtain ⟨⟨s', t⟩, hfail, -⟩ := hresult
      exact hne (requireClaim_eq_ok.1 (fail_cases hfail).1).2.1

theorem store_after_of_error {w : HermesWorld} {call : HermesCall} {error : HermesDeliveryError}
    (h : call.result sha w.store = .error error) : (w.after sha call).store = w.store := by
  rw [HermesWorld.after, h]

/-- However the calls of the workers follow each other, each delivery has one live claim at most, and
    one outcome. -/
theorem one_claim_one_outcome {w : HermesWorld} (h : (hermesSystem sha).Reachable w) :
    OneClaimOneOutcome sha w := by
  have hinv := worldInv_of_reachable h
  constructor
  case acknowledgedOnce =>
    exact fun deliveryId => length_filter_key_le_one hinv.acknowledgedOnce deliveryId
  case numbered => exact hinv.numbered
  case bounded => exact fun e he => (hinv.claimed e he).length_le
  case oneOutcome => exact fun deliveryId => not_acknowledged_and_dead hinv.toStoreInv
  case claimed =>
    intro workerId now leaseSeconds s claim hclaim
    obtain ⟨-, ⟨-, hnone⟩ | ⟨e, a, he, hclaimable, -, -, -, -, hgiven⟩⟩ := claimNext_cases hclaim
    · cases hnone
    · cases hgiven
      exact ⟨he, isOpen_of_isClaimable hclaimable⟩
  case stale =>
    intro claim hclaim a ha hlt call hcall
    obtain ⟨error, herror⟩ := stale_refused hinv.toStoreInv (hinv.given claim hclaim) ha hlt hcall
    exact ⟨⟨error, herror⟩, store_after_of_error herror⟩

namespace DeliverySample

def letters : List (String × Char) :=
  [("0", '0'), ("1", '1'), ("2", '2'), ("3", '3'), ("4", '4'), ("5", '5'), ("6", '6'), ("7", '7'),
    ("8", '8'), ("9", '9'), ("10", 'a')]

def letter (material : List JsonAtom) : Char :=
  ((letters.find? fun pair => .str pair.1 ∈ material).map (·.2)).getD 'f'

theorem isHex64_replicate {c : Char} (h : (c.isDigit || ('a' ≤ c && c ≤ 'f')) = true) :
    isHex64 (String.ofList (List.replicate 64 c)) = true := by
  refine decide_eq_true ⟨by rw [String.toList_ofList, List.length_replicate], ?_⟩
  rw [String.toList_ofList, List.all_eq_true]
  intro d hd
  rw [List.eq_of_mem_replicate hd]
  exact h

/-- A digest that tells the attempts of a delivery apart. -/
def digest : Sha256 where
  hexdigest material := String.ofList (List.replicate 64 (letter material))
  isHex64_hexdigest material := by
    refine isHex64_replicate ?_
    rw [letter]
    cases hfind : letters.find? fun pair => .str pair.1 ∈ material with
    | none => decide
    | some pair =>
      have hall : ∀ pair ∈ letters, (pair.2.isDigit || ('a' ≤ pair.2 && pair.2 ≤ 'f')) = true := by
        decide
      exact hall pair (List.mem_of_find?_eq_some hfind)

/-- The start of a minute. -/
def noon (seconds : ℤ) : DateTime :=
  DateTime.combine (Date.ofCivil 2026 7 22) 12 0 0 + TimeDelta.seconds seconds

/-- A root delivery that may be attempted a number of times. -/
def signal (maxAttempts : ℕ) : HermesDeliveryEvent where
  deliveryId := hermesDeliveryId digest "signal-1"
  rootDeliveryId := hermesDeliveryId digest "signal-1"
  kind := .incident
  sourceEventId := "signal-1"
  marketId := "us_equities"
  laneId := none
  occurredAt := noon 0
  payloadSha256 := digest.hexdigest []
  renderedText := "delivery"
  maxAttempts := maxAttempts

/-- A worker claims the delivery for ten seconds and dies, and another one asks a second later. -/
def silent (maxAttempts : ℕ) : HermesWorld :=
  (({ clock := 0 : HermesWorld }.after digest (.appendEvent (signal maxAttempts))).after digest
    (.claimNext "worker-a" (noon 0) 10)).after digest (.claimNext "worker-b" (noon 11) 10)

theorem reachable_silent (maxAttempts : ℕ) :
    (hermesSystem digest).Reachable (silent maxAttempts) := by
  have hinit : (hermesSystem digest).Reachable { clock := 0 } := .init ⟨rfl, rfl⟩
  have happended := reachable_after (.appendEvent (signal maxAttempts)) hinit
    (fun _ h => absurd h (Option.not_mem_none _)) rfl
  have hclaimed := reachable_after (.claimNext "worker-a" (noon 0) 10) happended
    (fun t ht => by
      have hle : (0 : ℤ) ≤ (noon 0).instant := by decide
      rw [clock_after, ← Option.some.inj ht]
      exact hle) rfl
  exact reachable_after (.claimNext "worker-b" (noon 11) 10) hclaimed
    (fun t ht => by
      have hle : (noon 0).instant ≤ (noon 11).instant := by decide
      rw [clock_after, ← Option.some.inj ht]
      exact hle) rfl

/-- The attempt of a worker that claims the delivery for ten seconds. -/
def attempt (attemptNumber : ℕ) (workerId : String) (seconds : ℤ) : HermesDeliveryAttempt where
  attemptId := hermesAttemptId digest (hermesDeliveryId digest "signal-1") attemptNumber
  deliveryId := hermesDeliveryId digest "signal-1"
  attemptNumber := attemptNumber
  workerId := workerId
  claimedAt := noon seconds
  leaseExpiresAt := noon seconds + TimeDelta.seconds 10

def given (maxAttempts : ℕ) (a : HermesDeliveryAttempt) : HermesDeliveryClaim :=
  ({} : HermesDeliveryStore).claimOf (signal maxAttempts) a

theorem silent_three : silent 3 =
    { store := { events := [signal 3], attempts := [attempt 1 "worker-a" 0, attempt 2 "worker-b" 11] }
      claims := [given 3 (attempt 1 "worker-a" 0), given 3 (attempt 2 "worker-b" 11)]
      clock := (noon 11).instant } := by decide +kernel

end DeliverySample

open DeliverySample in
/-- After the second claim of a delivery, the first one is refused. -/
theorem one_claim_one_outcome_sample :
    given 3 (attempt 1 "worker-a" 0) ∈ (silent 3).claims ∧
      attempt 2 "worker-b" 11 ∈ (silent 3).store.attemptsOf (signal 3).deliveryId ∧
      OneClaimOneOutcome digest (silent 3) := by
  refine ⟨?_, ?_, one_claim_one_outcome (reachable_silent 3)⟩
  · rw [silent_three]
    exact List.mem_cons_self
  · rw [silent_three, mem_attemptsOf]
    exact ⟨List.mem_cons_of_mem _ List.mem_cons_self, rfl⟩

end TradingAgent.Hermes
