import TradingAgent.Hermes.Protocol
import TradingAgent.Library.Connection

/-!
# The connection of the writer

The operations of the writer, on its connection to the database (`HermesDeliveryWriter`): an
operation commits what it inserts, but does not roll back when it raises an error.

Without an open transaction, the operations do what those of the store do (`WriterCall.run_apply`);
which errors leave a transaction open is said by `WriterCall.LeavesOpen`.
-/

namespace TradingAgent.Hermes

open HermesDeliveryStore

/-- Work on the connection of the writer. -/
abbrev HermesSession := Session HermesDeliveryStore HermesDeliveryError

namespace HermesDeliveryWriter

variable (sha : Sha256)

def appendEvent (e : HermesDeliveryEvent) : HermesSession Bool := do
  Session.check (Except.raiseIf (¬ validateEvent sha e) .validation)
  let existing? ← Session.read (·.event? e.deliveryId)
  match existing? with
  | some existing =>
    Session.check (Except.raiseIf (existing ≠ e) .conflict)
    return false
  | none =>
    let root? ← Session.read (·.event? e.rootDeliveryId)
    Session.check (Except.raiseIf (e.rootDeliveryId ≠ e.deliveryId ∧ root? = none) .conflict)
    Session.execute fun s => .ok { s with events := s.events ++ [e] }
    Session.commit
    return true

def claimNext (workerId : String) (now : DateTime) (leaseSeconds : ℤ) :
    HermesSession (Option HermesDeliveryClaim) := do
  Session.check
    (Except.raiseIf (leaseSeconds < 1 ∨ 300 < leaseSeconds ∨ ¬ now.aware) .invalidOperation)
  let now := now.astimezone UTC
  Session.beginImmediate
  let row ← Session.read (·.nextClaimable now)
  match row with
  | none =>
    Session.commit
    return none
  | some e =>
    let a ← Session.read (·.nextAttempt sha e workerId now leaseSeconds)
    Session.check (Except.raiseIf (¬ validateAttempt sha a) .validation)
    Session.execute (·.insertAttempt a)
    let claim ← Session.read (·.claimOf e a)
    Session.commit
    return some claim

def acknowledge (claim : HermesDeliveryClaim) (platformMessageId : String)
    (acknowledgedAt : DateTime) : HermesSession Bool := do
  let k := acknowledgementFor sha claim platformMessageId acknowledgedAt
  Session.check (Except.raiseIf (¬ validateAcknowledgement sha k) .validation)
  let existing? ← Session.read (·.acknowledgementOf claim.event.deliveryId)
  match existing? with
  | some existing =>
    Session.check (Except.raiseIf (existing ≠ k) .conflict)
    return false
  | none =>
    let required ← Session.read (·.requireClaim claim acknowledgedAt)
    Session.check required
    Session.execute (·.insertAcknowledgement k)
    Session.commit
    return true

def fail (claim : HermesDeliveryClaim) (failure : HermesDeliveryFailure) :
    HermesSession HermesDeliveryTransition := do
  Session.check (Except.raiseIf (¬ validateFailure failure) .validation)
  let required ← Session.read (·.requireClaim claim failure.failedAt)
  Session.check required
  let t := transitionFor sha claim failure
  Session.check (Except.raiseIf (¬ validateTransition sha t) .validation)
  Session.execute (·.insertTransition t)
  Session.commit
  return t

end HermesDeliveryWriter

/-! ## What the operations do without an open transaction -/

namespace HermesDeliveryStore

variable {s s' : HermesDeliveryStore} {error : HermesDeliveryError}

/-- The attempt repeats a stored one. -/
def repeatsAttempt (s : HermesDeliveryStore) (a : HermesDeliveryAttempt) : Bool :=
  s.attempts.any fun x => x.attemptId = a.attemptId ∨
    (x.deliveryId = a.deliveryId ∧ x.attemptNumber = a.attemptNumber)

theorem insertAttempt_eq_error {a : HermesDeliveryAttempt} (h : s.insertAttempt a = .error error) :
    s.repeatsAttempt a = true ∧ error = .integrity := by
  rw [insertAttempt, Except.bind_eq_error] at h
  rcases h with h | ⟨-, -, h⟩
  · rw [Except.raiseIf_eq_error] at h
    exact ⟨h.1, h.2.symm⟩
  · cases h

/-- The acknowledgement repeats an identity or a message of a stored one. -/
def repeatsAcknowledgement (s : HermesDeliveryStore) (k : HermesDeliveryAcknowledgement) : Bool :=
  s.acknowledgements.any fun x =>
    x.acknowledgementId = k.acknowledgementId ∨ x.deliveryId = k.deliveryId ∨
      x.attemptId = k.attemptId ∨ x.platformMessageId = k.platformMessageId

theorem insertAcknowledgement_eq_error {k : HermesDeliveryAcknowledgement}
    (h : s.insertAcknowledgement k = .error error) :
    s.repeatsAcknowledgement k = true ∧ error = .integrity := by
  rw [insertAcknowledgement, Except.bind_eq_error] at h
  rcases h with h | ⟨-, -, h⟩
  · rw [Except.raiseIf_eq_error] at h
    exact ⟨h.1, h.2.symm⟩
  · cases h

/-- The transition repeats a stored one. -/
def repeatsTransition (s : HermesDeliveryStore) (t : HermesDeliveryTransition) : Bool :=
  s.transitions.any fun x => x.transitionId = t.transitionId ∨ x.attemptId = t.attemptId

theorem insertTransition_eq_error {t : HermesDeliveryTransition}
    (h : s.insertTransition t = .error error) :
    s.repeatsTransition t = true ∧ error = .integrity := by
  rw [insertTransition, Except.bind_eq_error] at h
  rcases h with h | ⟨-, -, h⟩
  · rw [Except.raiseIf_eq_error] at h
    exact ⟨h.1, h.2.symm⟩
  · cases h

theorem requireClaim_eq_error {claim : HermesDeliveryClaim} {at_ : DateTime}
    (h : s.requireClaim claim at_ = .error error) : error = .leaseLost := by
  rw [requireClaim, Except.bind_eq_error] at h
  rcases h with h | ⟨-, -, h⟩ <;> exact (Except.raiseIf_eq_error.1 h).2.symm

end HermesDeliveryStore

namespace HermesDeliveryWriter

variable (sha : Sha256) (s : HermesDeliveryStore)

theorem appendEvent_apply (e : HermesDeliveryEvent) : appendEvent sha e ⟨s, none⟩ =
    match s.appendEvent sha e with
    | .ok (s', inserted) => (.ok inserted, ⟨s', none⟩)
    | .error error => (.error (.raised error), ⟨s, none⟩) := by
  rw [appendEvent, HermesDeliveryStore.appendEvent]
  cases hvalid : Except.raiseIf (¬ validateEvent sha e) HermesDeliveryError.validation with
  | error error => rfl
  | ok =>
    rw [Session.check_ok_bind, Session.read_bind, Except.ok_bind, Connection.current_none]
    cases s.event? e.deliveryId with
    | some existing =>
      dsimp only
      cases Except.raiseIf (existing ≠ e) HermesDeliveryError.conflict <;> rfl
    | none =>
      dsimp only
      rw [Session.read_bind, Connection.current_none]
      cases Except.raiseIf (e.rootDeliveryId ≠ e.deliveryId ∧ s.event? e.rootDeliveryId = none)
        HermesDeliveryError.conflict <;> rfl

theorem claimNext_apply (workerId : String) (now : DateTime) (leaseSeconds : ℤ) :
    claimNext sha workerId now leaseSeconds ⟨s, none⟩ =
      match s.claimNext sha workerId now leaseSeconds with
      | .ok (s', claim) => (.ok claim, ⟨s', none⟩)
      | .error error =>
        (.error (.raised error), ⟨s, if error = .invalidOperation then none else some s⟩) := by
  rw [claimNext, HermesDeliveryStore.claimNext]
  by_cases hlease : leaseSeconds < 1 ∨ 300 < leaseSeconds ∨ ¬ now.aware = true
  · rw [Except.raiseIf, if_pos hlease]
    rfl
  rw [Except.raiseIf, if_neg hlease, Session.check_ok_bind, Except.ok_bind]
  dsimp only
  rw [Session.beginImmediate_bind, Session.read_bind, Connection.current_some]
  cases s.nextClaimable (now.astimezone UTC) with
  | none => rfl
  | some e =>
    dsimp only
    rw [Session.read_bind, Connection.current_some]
    generalize s.nextAttempt sha e workerId (now.astimezone UTC) leaseSeconds = a
    by_cases hvalid : validateAttempt sha a = true
    · rw [Except.raiseIf, if_neg (not_not.2 hvalid), Session.check_ok_bind, Except.ok_bind]
      cases hinsert : s.insertAttempt a with
      | ok s' => rw [Session.execute_ok_bind hinsert]; rfl
      | error error =>
        rw [Session.execute_error_bind hinsert]
        obtain ⟨-, rfl⟩ := insertAttempt_eq_error hinsert
        rfl
    · rw [Except.raiseIf, if_pos hvalid]
      rfl

theorem acknowledge_apply (claim : HermesDeliveryClaim) (platformMessageId : String)
    (acknowledgedAt : DateTime) : acknowledge sha claim platformMessageId acknowledgedAt ⟨s, none⟩ =
      match s.acknowledge sha claim platformMessageId acknowledgedAt with
      | .ok (s', new) => (.ok new, ⟨s', none⟩)
      | .error error =>
        (.error (.raised error), ⟨s, if error = .integrity then some s else none⟩) := by
  rw [acknowledge, HermesDeliveryStore.acknowledge]
  generalize acknowledgementFor sha claim platformMessageId acknowledgedAt = k
  by_cases hvalid : validateAcknowledgement sha k = true
  · rw [Except.raiseIf, if_neg (not_not.2 hvalid), Session.check_ok_bind, Session.read_bind,
      Except.ok_bind, Connection.current_none]
    cases s.acknowledgementOf claim.event.deliveryId with
    | some existing => by_cases hsame : existing = k <;> simp [Except.raiseIf, hsame]
    | none =>
      dsimp only
      rw [Session.read_bind, Connection.current_none]
      cases hrequired : s.requireClaim claim acknowledgedAt with
      | error error =>
        obtain rfl := requireClaim_eq_error hrequired
        rfl
      | ok =>
        rw [Session.check_ok_bind, Except.ok_bind]
        cases hinsert : s.insertAcknowledgement k with
        | ok s' => rw [Session.execute_ok_bind hinsert]; rfl
        | error error =>
          rw [Session.execute_error_bind hinsert]
          obtain ⟨-, rfl⟩ := insertAcknowledgement_eq_error hinsert
          rfl
  · rw [Except.raiseIf, if_pos hvalid]
    rfl

theorem fail_apply (claim : HermesDeliveryClaim) (failure : HermesDeliveryFailure) :
    fail sha claim failure ⟨s, none⟩ =
      match s.fail sha claim failure with
      | .ok (s', t) => (.ok t, ⟨s', none⟩)
      | .error error =>
        (.error (.raised error), ⟨s, if error = .integrity then some s else none⟩) := by
  rw [fail, HermesDeliveryStore.fail]
  by_cases hfailure : validateFailure failure = true
  · rw [Except.raiseIf, if_neg (not_not.2 hfailure), Session.check_ok_bind, Session.read_bind,
      Except.ok_bind, Connection.current_none]
    cases hrequired : s.requireClaim claim failure.failedAt with
    | error error =>
      obtain rfl := requireClaim_eq_error hrequired
      rfl
    | ok =>
      rw [Session.check_ok_bind, Except.ok_bind]
      dsimp only
      generalize transitionFor sha claim failure = t
      by_cases hvalid : validateTransition sha t = true
      · rw [Except.raiseIf, if_neg (not_not.2 hvalid), Session.check_ok_bind, Except.ok_bind]
        cases hinsert : s.insertTransition t with
        | ok s' => rw [Session.execute_ok_bind hinsert]; rfl
        | error error =>
          rw [Session.execute_error_bind hinsert]
          obtain ⟨-, rfl⟩ := insertTransition_eq_error hinsert
          rfl
      · rw [Except.raiseIf, if_pos hvalid]
        rfl
  · rw [Except.raiseIf, if_pos hfailure]
    rfl

end HermesDeliveryWriter

/-- The operations of the writer. -/
inductive WriterCall
  | appendEvent (e : HermesDeliveryEvent)
  | claimNext (workerId : String) (now : DateTime) (leaseSeconds : ℤ)
  | acknowledge (claim : HermesDeliveryClaim) (platformMessageId : String)
      (acknowledgedAt : DateTime)
  | fail (claim : HermesDeliveryClaim) (failure : HermesDeliveryFailure)
  deriving DecidableEq, Repr

/-- What an operation returns. -/
inductive WriterAnswer
  | appended (inserted : Bool)
  | claimed (claim : Option HermesDeliveryClaim)
  | acknowledged (new : Bool)
  | failed (transition : HermesDeliveryTransition)
  deriving DecidableEq, Repr

namespace WriterCall

variable (sha : Sha256)

/-- The operation on the connection. -/
def run : WriterCall → HermesSession WriterAnswer
  | appendEvent e => .appended <$> HermesDeliveryWriter.appendEvent sha e
  | claimNext workerId now leaseSeconds =>
    .claimed <$> HermesDeliveryWriter.claimNext sha workerId now leaseSeconds
  | acknowledge claim platformMessageId acknowledgedAt =>
    .acknowledged <$> HermesDeliveryWriter.acknowledge sha claim platformMessageId acknowledgedAt
  | fail claim failure => .failed <$> HermesDeliveryWriter.fail sha claim failure

/-- The operation on the store. -/
def result (s : HermesDeliveryStore) :
    WriterCall → Except HermesDeliveryError (HermesDeliveryStore × WriterAnswer)
  | appendEvent e => do
    let (s, inserted) ← s.appendEvent sha e
    return (s, .appended inserted)
  | claimNext workerId now leaseSeconds => do
    let (s, claim) ← s.claimNext sha workerId now leaseSeconds
    return (s, .claimed claim)
  | acknowledge claim platformMessageId acknowledgedAt => do
    let (s, new) ← s.acknowledge sha claim platformMessageId acknowledgedAt
    return (s, .acknowledged new)
  | fail claim failure => do
    let (s, t) ← s.fail sha claim failure
    return (s, .failed t)

/-- Whether an operation that raises an error leaves a transaction open. -/
def LeavesOpen : WriterCall → HermesDeliveryError → Prop
  | appendEvent _, _ => False
  | claimNext _ _ _, error => error ≠ .invalidOperation
  | acknowledge _ _ _, error | fail _ _, error => error = .integrity

instance (call : WriterCall) (error : HermesDeliveryError) : Decidable (call.LeavesOpen error) :=
  match call with
  | appendEvent _ => inferInstanceAs (Decidable False)
  | claimNext _ _ _ => inferInstanceAs (Decidable (error ≠ .invalidOperation))
  | acknowledge _ _ _ | fail _ _ => inferInstanceAs (Decidable (error = .integrity))

/-- Without an open transaction, an operation does on the connection what it does on the store. -/
theorem run_apply (s : HermesDeliveryStore) (call : WriterCall) : call.run sha ⟨s, none⟩ =
    match call.result sha s with
    | .ok (s', answer) => (.ok answer, ⟨s', none⟩)
    | .error error =>
      (.error (.raised error), ⟨s, if call.LeavesOpen error then some s else none⟩) := by
  cases call with
  | appendEvent e =>
    rw [run, result, Session.map_apply, HermesDeliveryWriter.appendEvent_apply]
    cases s.appendEvent sha e <;> rfl
  | claimNext workerId now leaseSeconds =>
    rw [run, result, Session.map_apply, HermesDeliveryWriter.claimNext_apply]
    cases s.claimNext sha workerId now leaseSeconds with
    | ok => rfl
    | error error => cases error <;> rfl
  | acknowledge claim platformMessageId acknowledgedAt =>
    rw [run, result, Session.map_apply, HermesDeliveryWriter.acknowledge_apply]
    cases s.acknowledge sha claim platformMessageId acknowledgedAt <;> rfl
  | fail claim failure =>
    rw [run, result, Session.map_apply, HermesDeliveryWriter.fail_apply]
    cases s.fail sha claim failure <;> rfl

end WriterCall

end TradingAgent.Hermes
