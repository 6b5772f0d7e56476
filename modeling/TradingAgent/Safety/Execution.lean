import TradingAgent.Mutation.Executor
import TradingAgent.Safety.Planner

/-!
# The execution of safety plans

The actions of a safety plan are run one after the other (`executeSafetyPlan`), each as a mutation
of its own, up to the first one that is not acknowledged. As the broker has yet to confirm what is
canceled, a plan that cancels orders closes no position: its closes wait for the next plan.
-/

namespace TradingAgent

/-! ## Requests -/

/-- `urllib.parse.quote` with no safe characters: all bytes are escaped but those of letters,
    digits and `_.-~`. -/
def quote (s : String) : String :=
  let digit (n : ℕ) : Char := if n < 10 then .ofNat (48 + n) else .ofNat (55 + n)
  .ofList (s.toUTF8.toList.flatMap fun byte =>
    let c := Char.ofNat byte.toNat
    if byte.toNat < 128 ∧ (c.isAlphanum ∨ c = '_' ∨ c = '.' ∨ c = '-' ∨ c = '~') then [c]
    else ['%', digit (byte.toNat / 16), digit (byte.toNat % 16)])

/-- The tuple whose digest is that of a request: its method, path, parameters and body. -/
def cancelOrderRequest (action : PaperCancelOrderAction) : List JsonAtom :=
  [.str "DELETE", .str ("/v2/orders/" ++ quote action.brokerOrderId), .null]

def closePositionRequest (action : PaperClosePositionAction) : List JsonAtom :=
  [.str "DELETE", .str ("/v2/positions/" ++ quote action.symbol), .str "qty",
    .decimal action.quantity, .null]

variable (sha : Sha256)

def safetyActionMutationIntent (stored : StoredPaperSafetyPlan) (sequence : ℕ)
    (action : PaperSafetyAction) : PaperMutationIntent where
  accountFingerprint := stored.plan.accountFingerprint
  createdAt := stored.plan.observedAt
  operation := match action with
    | .cancelOrder _ => .cancelOrder
    | .closePosition _ => .closePosition
  protectivePlanKey := none
  safetyPlanKey := some stored.planKey
  actionSequence := some sequence
  requestSha256 := match action with
    | .cancelOrder action => sha.hexdigest (cancelOrderRequest action)
    | .closePosition action => sha.hexdigest (closePositionRequest action)
  symbol := action.symbol
  brokerOrderId := action.cancelId?
  side := match action with
    | .cancelOrder _ => none
    | .closePosition action => some action.side
  quantity := match action with
    | .cancelOrder _ => none
    | .closePosition action => some action.quantity

/-! ## Runs -/

/-- Whether a run of a mutation calls the broker: its attempt has been recorded by then. -/
def callsBroker (ledger : ExecutionLedger) (intent : PaperMutationIntent)
    (attemptedAt : DateTime) : Bool :=
  match ExecutionWriter.savePaperMutationIntent sha ledger intent with
  | .error _ => false
  | .ok (ledger, _) =>
    let mutationKey := paperMutationKey sha intent
    match readPaperMutationEvents sha ledger with
    | .error _ => false
    | .ok stored =>
      let events := (stored.filter (·.mutationKey = mutationKey)).map (·.event)
      (existingResult mutationKey events).isNone && (appendPaperMutationEvent sha ledger
        mutationKey (attemptedEvent intent (latestAttempt events + 1) attemptedAt)).isOk

/-- What the broker would reply matters only to a run that calls it. -/
theorem run_eq_of_not_callsBroker {ledger : ExecutionLedger} {intent : PaperMutationIntent}
    {attemptedAt : DateTime} (h : callsBroker sha ledger intent attemptedAt = false)
    (repliedAt repliedAt' : DateTime) (reply reply' : BrokerReply) :
    run sha ledger intent true attemptedAt repliedAt reply =
      run sha ledger intent true attemptedAt repliedAt' reply' := by
  unfold callsBroker at h
  unfold run
  rw [if_pos rfl]
  revert h
  rcases ExecutionWriter.savePaperMutationIntent sha ledger intent with e | ⟨saved, isNew⟩
  · exact fun _ => rfl
  dsimp only [Except.map]
  rcases readPaperMutationEvents sha saved with e | stored
  · exact fun _ => rfl
  intro h
  dsimp only at h ⊢
  generalize ((stored.filter (·.mutationKey = paperMutationKey sha intent)).map (·.event)) =
    events at h ⊢
  -- There is a result already, or the attempt cannot be recorded.
  rcases hexisting : existingResult (paperMutationKey sha intent) events with _ | existing
  · rw [hexisting, Option.isNone_none, Bool.true_and] at h
    dsimp only
    rcases happend : appendPaperMutationEvent sha saved (paperMutationKey sha intent)
      (attemptedEvent intent (latestAttempt events + 1) attemptedAt) with e | attempted
    · rfl
    · rw [happend] at h
      cases h
  · rfl

/-- What the clock and the broker do in the run of an action. -/
structure SafetyExchange where
  attemptedAt : DateTime
  repliedAt : DateTime
  reply : BrokerReply

/-- The run of an action: whether a request for it was sent to the broker, and its result. -/
structure SafetyVisit where
  action : PaperSafetyAction
  sent : Bool
  result : Except RunError PaperMutationExecutionResult

def SafetyVisit.isAcknowledged (visit : SafetyVisit) : Bool :=
  match visit.result with
  | .ok result => result.state = .acknowledged ∨ result.state = .alreadyAcknowledged
  | .error _ => false

/-- The loop over the actions, from a sequence number on. -/
def executeActions (stored : StoredPaperSafetyPlan) (requiresCancelReconciliation : Bool)
    (exchange : ℕ → SafetyExchange) :
    ExecutionLedger → ℕ → List PaperSafetyAction → ExecutionLedger × List SafetyVisit
  | ledger, _, [] => (ledger, [])
  | ledger, sequence, action :: actions =>
    if requiresCancelReconciliation ∧ ¬ action.isCancel then
      (ledger, [])
    else
      let intent := safetyActionMutationIntent sha stored sequence action
      let ⟨attemptedAt, repliedAt, reply⟩ := exchange sequence
      let (after, result) := run sha ledger intent true attemptedAt repliedAt reply
      let visit : SafetyVisit := ⟨action, callsBroker sha ledger intent attemptedAt, result⟩
      if visit.isAcknowledged then
        let (final, visits) := executeActions stored requiresCancelReconciliation exchange after
          (sequence + 1) actions
        (final, visit :: visits)
      else
        (after, [visit])

/-- The ledger after the execution of a plan, and the runs of its actions in order. The results
    are those of the runs, if none of them raises. -/
def executeSafetyPlan (ledger : ExecutionLedger) (stored : StoredPaperSafetyPlan)
    (exchange : ℕ → SafetyExchange) : ExecutionLedger × List SafetyVisit :=
  executeActions sha stored (stored.plan.actions.any (·.isCancel)) exchange ledger 0
    stored.plan.actions

/-- The requests that are sent to the broker. -/
def sentActions (visits : List SafetyVisit) : List PaperSafetyAction :=
  (visits.filter (·.sent)).map (·.action)

/-! ## The order of execution -/

/-- How the actions of a plan are run: in order, up to the first one that is not acknowledged, and
    without its closes if it cancels anything. -/
structure ExecutesInOrder (plan : PaperSafetyPlan) (visits : List SafetyVisit) : Prop where
  isPrefix : visits.map (·.action) <+: plan.actions
  acknowledged : ∀ visit ∈ visits.dropLast, visit.isAcknowledged = true
  closes : ∀ action ∈ visits.map (·.action), action.isCancel = false →
    ∀ other ∈ plan.actions, other.isCancel = false
  complete : (∀ visit ∈ visits, visit.isAcknowledged = true) →
    visits.map (·.action) = if plan.actions.any (·.isCancel)
      then plan.actions.takeWhile (·.isCancel) else plan.actions

/-- A request to close a position is sent only for a plan that cancels nothing. -/
theorem ExecutesInOrder.sent {plan : PaperSafetyPlan} {visits : List SafetyVisit}
    (h : ExecutesInOrder plan visits) {action : PaperSafetyAction}
    (hsent : action ∈ sentActions visits) (hclose : action.isCancel = false) :
    ∀ other ∈ plan.actions, other.isCancel = false := by
  obtain ⟨visit, hvisit, rfl⟩ := List.mem_map.1 hsent
  exact h.closes _ (List.mem_map_of_mem (List.mem_filter.1 hvisit).1) hclose

variable {sha} {stored : StoredPaperSafetyPlan} {exchange : ℕ → SafetyExchange}

theorem mem_dropLast_cons {α : Type*} {a b : α} {l : List α} (h : a ∈ (b :: l).dropLast) :
    a = b ∨ a ∈ l.dropLast := by
  cases l with
  | nil => exact absurd h List.not_mem_nil
  | cons c l => exact List.mem_cons.1 h

variable (sha stored exchange) in
/-- One round of the loop: it visits the action, and goes on if it is acknowledged. -/
theorem executeActions_cons {requires : Bool} {action : PaperSafetyAction}
    (hgo : requires = true → action.isCancel = true) (ledger : ExecutionLedger) (sequence : ℕ)
    (actions : List PaperSafetyAction) :
    ∃ visit after, SafetyVisit.action visit = action ∧
      (executeActions sha stored requires exchange ledger sequence (action :: actions)).2 =
        if visit.isAcknowledged then
          visit :: (executeActions sha stored requires exchange after (sequence + 1) actions).2
        else [visit] := by
  have hstop : ¬ (requires = true ∧ ¬ action.isCancel = true) := fun h => h.2 (hgo h.1)
  let intent := safetyActionMutationIntent sha stored sequence action
  let call := run sha ledger intent true (exchange sequence).attemptedAt
    (exchange sequence).repliedAt (exchange sequence).reply
  refine ⟨⟨action, callsBroker sha ledger intent (exchange sequence).attemptedAt, call.2⟩, call.1,
    rfl, ?_⟩
  rw [executeActions, if_neg hstop]
  exact apply_ite Prod.snd _ _ _

variable (sha stored exchange) in
/-- What the loop visits, by induction on the actions that are left. -/
theorem executeActions_spec (requires : Bool) (ledger : ExecutionLedger) (sequence : ℕ)
    (actions : List PaperSafetyAction) {visits : List SafetyVisit}
    (hvisits : (executeActions sha stored requires exchange ledger sequence actions).2 = visits) :
    visits.map (·.action) <+: actions ∧
    (∀ visit ∈ visits.dropLast, visit.isAcknowledged = true) ∧
    (∀ visit ∈ visits, requires = true → visit.action.isCancel = true) ∧
    ((∀ visit ∈ visits, visit.isAcknowledged = true) → visits.map (·.action) =
      if requires then actions.takeWhile (·.isCancel) else actions) := by
  induction actions generalizing ledger sequence visits with
  | nil =>
    rw [executeActions] at hvisits
    cases hvisits
    exact ⟨List.prefix_rfl, List.forall_mem_nil _, List.forall_mem_nil _,
      fun _ => by cases requires <;> rfl⟩
  | cons action actions ih =>
    by_cases hstop : requires = true ∧ ¬ action.isCancel = true
    · -- The loop ends before the first close.
      rw [executeActions, if_pos hstop] at hvisits
      cases hvisits
      have hbefore : ([] : List PaperSafetyAction) <+: action :: actions := List.nil_prefix
      refine ⟨hbefore, List.forall_mem_nil _, List.forall_mem_nil _, fun _ => ?_⟩
      rw [if_pos hstop.1, List.takeWhile_cons_of_neg hstop.2]
      rfl
    have hcancel : requires = true → action.isCancel = true :=
      fun h => by_contra fun hnot => hstop ⟨h, hnot⟩
    obtain ⟨visit, after, rfl, hround⟩ :=
      executeActions_cons sha stored exchange hcancel ledger sequence actions
    rw [hround] at hvisits
    split_ifs at hvisits with hack
    · -- The action is acknowledged: by induction on the rest of the actions.
      obtain ⟨hbefore, hacks, hcancels, hall⟩ := ih after (sequence + 1) rfl
      generalize (executeActions sha stored requires exchange after (sequence + 1) actions).2 =
        rest at hvisits hbefore hacks hcancels hall
      rw [← hvisits, List.map_cons]
      refine ⟨?_, ?_, ?_, ?_⟩
      · exact (List.prefix_cons_inj visit.action).2 hbefore
      · intro other hother
        rcases mem_dropLast_cons hother with rfl | hrest
        · exact hack
        · exact hacks other hrest
      · exact List.forall_mem_cons.2 ⟨hcancel, hcancels⟩
      · intro hvisits
        rw [hall (List.forall_mem_cons.1 hvisits).2]
        cases requires with
        | false => rfl
        | true => exact (List.takeWhile_cons_of_pos (hcancel rfl)).symm
    · have hbefore : [visit.action] <+: visit.action :: actions :=
        (List.prefix_cons_inj visit.action).2 List.nil_prefix
      rw [← hvisits]
      refine ⟨hbefore, List.forall_mem_nil _, ?_, ?_⟩
      · exact List.forall_mem_singleton.2 hcancel
      · intro hvisits
        exact absurd (List.forall_mem_singleton.1 hvisits) hack

/-- Any plan is executed in order. -/
theorem executesInOrder (ledger : ExecutionLedger) :
    ExecutesInOrder stored.plan (executeSafetyPlan sha ledger stored exchange).2 := by
  obtain ⟨hbefore, hacks, hcancels, hall⟩ := executeActions_spec sha stored exchange
    (stored.plan.actions.any (·.isCancel)) ledger 0 stored.plan.actions rfl
  rw [executeSafetyPlan]
  refine ⟨hbefore, hacks, ?_, hall⟩
  intro action haction hclose other hother
  by_contra hcancel
  obtain ⟨visit, hvisit, rfl⟩ := List.mem_map.1 haction
  have hany : stored.plan.actions.any (·.isCancel) = true :=
    List.any_eq_true.2 ⟨other, hother, (Bool.not_eq_false _).mp hcancel⟩
  rw [hcancels visit hvisit hany] at hclose
  cases hclose

end TradingAgent
