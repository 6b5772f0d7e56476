import TradingAgent.Library.Table
import TradingAgent.Library.Transition
import TradingAgent.Library.Writing
import TradingAgent.ResearchCycle.Models

/-!
# The store of the research cycles

The tables of the store (`CycleStore`), and the calls on it. A row stands for the JSON text in it.

* The statements of a transaction are executed one after the other (`CycleStore.execute`), unless one
  of them violates a constraint of the schema. Then nothing is committed, and otherwise all of it at
  once (`transact`): a write of the store is a transaction.
* A cycle is started or restarted (`startCycle`, `startSupervisorCycle`), gets its result
  (`terminalizeCycle`), or is interrupted with all others that are started (`recoverInterrupted`).
-/

namespace TradingAgent.ResearchCycle

open Writing (read raise)

inductive CycleStoreError
  | evidenceAlreadyConsumed
  | evidenceIdentityConflict
  | cycleIdentityConflict
  | finishResultStatusInvalid
  | failureResultStatusInvalid
  | resultCycleIdentityMismatch
  | terminalOpenWorkIdentityMismatch
  | resultIdentityConflict
  | startedCycleMissing
  /-- A record is not valid. -/
  | validation
  /-- A constraint of the schema is violated. -/
  | integrity
  deriving DecidableEq, Repr

/-- The tables. The evidence has the sequence numbers from 1 on, and the events are kept for each
    cycle. -/
structure CycleStore where
  evidence : List ResearchAgentEvidence := []
  cycles : Table String ResearchAgentCycle := .empty
  cycleEvents : String → List ResearchAgentCycleEvent := fun _ => []
  results : List ResearchAgentResult := []
  cursors : AgentFamilyId → Option ℕ := fun _ => none
  dayCursors : MarketId → Option ℕ := fun _ => none
  openWork : Table String ResearchAgentOpenWork := .empty

namespace CycleStore

variable (store : CycleStore)

/-- The method `day_cursor`. -/
def dayCursor (market : MarketId) : ℕ := (store.dayCursors market).getD 0

def cursor (family : AgentFamilyId) : ℕ :=
  if family = .dayTrading then
    max (max (store.dayCursor .usEquities) (store.dayCursor .krEquities))
      (max (store.dayCursor .crossMarket) (store.dayCursor .none))
  else (store.cursors family).getD 0

/-- The cursor that the evidence is read at. -/
def cursorFor (evidence : ResearchAgentEvidence) : ℕ :=
  if evidence.agentFamilyId = .dayTrading then store.dayCursor evidence.marketId
  else store.cursor evidence.agentFamilyId

def result? (cycleId : String) : Option ResearchAgentResult :=
  store.results.find? (·.cycleId = cycleId)

end CycleStore

/-! ## Transactions -/

inductive Statement
  | insertEvidence (evidence : ResearchAgentEvidence)
  | insertCycle (cycle : ResearchAgentCycle)
  | updateCycle (cycle : ResearchAgentCycle)
  | appendCycleEvent (cycle : ResearchAgentCycle) (occurredAt : DateTime)
  | insertResult (result : ResearchAgentResult)
  | advanceCursor (cycle : ResearchAgentCycle)
  | upsertOpenWork (work : ResearchAgentOpenWork)
  deriving DecidableEq, Repr

namespace CycleStore

/-- The row of a cycle, and the entry of its log. -/
def setCycle (store : CycleStore) (cycle : ResearchAgentCycle) : CycleStore :=
  { store with cycles := store.cycles.set cycle.cycleId cycle }

def appendCycleEvent (store : CycleStore) (cycle : ResearchAgentCycle) (occurredAt : DateTime) :
    CycleStore :=
  { store with
    cycleEvents := Function.update store.cycleEvents cycle.cycleId
      (store.cycleEvents cycle.cycleId ++ [⟨cycle.state, occurredAt, cycle⟩]) }

/-- The cursor, which does not go back: `_advance_cursor`. -/
def advanceCursor (store : CycleStore) (cycle : ResearchAgentCycle) : CycleStore :=
  if cycle.agentFamilyId = .dayTrading then
    { store with
      dayCursors := Function.update store.dayCursors cycle.marketId
        (some (max (store.dayCursor cycle.marketId) cycle.evidenceSequence)) }
  else
    { store with
      cursors := Function.update store.cursors cycle.agentFamilyId
        (some (max ((store.cursors cycle.agentFamilyId).getD 0) cycle.evidenceSequence)) }

/-- The work, inserted or replaced: work of another family is left as it is. -/
def upsertOpenWork (store : CycleStore) (work : ResearchAgentOpenWork) : CycleStore :=
  match store.openWork.row work.workId with
  | some existing =>
    if existing.agentFamilyId = work.agentFamilyId then
      { store with openWork := store.openWork.set work.workId work }
    else store
  | none => { store with openWork := store.openWork.set work.workId work }

/-- The effect of a statement, unless it violates a constraint. -/
def execute (store : CycleStore) : Statement → Option CycleStore
  | .insertEvidence evidence =>
    if store.evidence.any (·.evidenceId = evidence.evidenceId) then none
    else some { store with evidence := store.evidence ++ [evidence] }
  | .insertCycle cycle =>
    if (store.cycles.row cycle.cycleId).isSome ∨ cycle.evidenceSequence = 0 ∨
        store.evidence.length < cycle.evidenceSequence ∨
        store.cycles.rows.any (·.actionRequestId = cycle.actionRequestId) then none
    else some (store.setCycle cycle)
  | .updateCycle cycle =>
    if (store.cycles.row cycle.cycleId).isNone then some store else some (store.setCycle cycle)
  | .appendCycleEvent cycle occurredAt =>
    if (store.cycles.row cycle.cycleId).isNone then none
    else some (store.appendCycleEvent cycle occurredAt)
  | .insertResult result =>
    if (store.cycles.row result.cycleId).isNone ∨
        store.results.any (fun r => r.resultId = result.resultId ∨ r.cycleId = result.cycleId) then
      none
    else some { store with results := store.results ++ [result] }
  | .advanceCursor cycle => some (store.advanceCursor cycle)
  | .upsertOpenWork work => some (store.upsertOpenWork work)

def executeAll (store : CycleStore) : List Statement → Option CycleStore
  | [] => some store
  | statement :: statements => (store.execute statement).bind (executeAll · statements)

/-- A transaction that is committed. -/
def write (store : CycleStore) (statements : List Statement) : CycleStore :=
  (store.executeAll statements).getD store

end CycleStore

abbrev CycleWriting (α : Type) := Writing CycleStore.write CycleStoreError α

/-- The statements are committed, if none of them violates a constraint. -/
def transact (statements : List Statement) : CycleWriting Unit := do
  if ← read fun store => (store.executeAll statements).isSome then Writing.commit statements
  else raise .integrity

/-! ## Calls -/

/-- The evidence as it was stored before the bounded payloads. -/
def ResearchAgentEvidence.shippedProjection (evidence : ResearchAgentEvidence) :
    ResearchAgentEvidence :=
  { evidence with boundedPayloadJson := none, payloadTruncated := false, subjectRefs := [] }

def appendEvidence (evidence : ResearchAgentEvidence) : CycleWriting Bool := do
  match ← read fun store => store.evidence.find? (·.evidenceId = evidence.evidenceId) with
  | some stored =>
    if stored.inUtc = evidence.inUtc ∨ (stored.boundedPayloadJson = none ∧
        stored.payloadTruncated = false ∧ stored.subjectRefs = [] ∧
        stored.inUtc = evidence.shippedProjection.inUtc) then return false
    else raise .evidenceIdentityConflict
  | none =>
    transact [.insertEvidence evidence]
    return true

/-- A cycle that is not there is inserted, and one that was interrupted is restarted. -/
def startOrRestart (candidate : ResearchAgentCycle) (startedAt : DateTime) :
    CycleWriting ResearchAgentCycle := do
  match ← read (·.cycles.row candidate.cycleId) with
  | none =>
    transact [.insertCycle candidate, .appendCycleEvent candidate candidate.startedAt]
    return candidate
  | some existing =>
    if existing.identity ≠ candidate.identity then raise .cycleIdentityConflict
    else if existing.state ≠ .interrupted then return existing
    else
      let replay := { existing with state := .started, startedAt, terminalAt := none }
      transact [.updateCycle replay, .appendCycleEvent replay startedAt]
      return replay

section

variable (sha : Sha256)

/-- The cycle that is started for evidence, at a cursor. -/
def newCycle (cycleId : String) (stored : StoredResearchAgentEvidence) (cursorBefore : ℕ)
    (startedAt : DateTime) : ResearchAgentCycle where
  cycleId
  evidenceId := stored.evidence.evidenceId
  actionRequestId := researchAgentActionId sha cycleId
  agentFamilyId := stored.evidence.agentFamilyId
  marketId := stored.evidence.marketId
  evidenceSequence := stored.sequence
  cursorBefore
  state := .started
  startedAt

def startCycle (stored : StoredResearchAgentEvidence) (startedAt : DateTime)
    (preserveAuthority : Bool) : CycleWriting ResearchAgentCycle := do
  let cursorBefore ← read (·.cursorFor stored.evidence)
  if stored.sequence ≤ cursorBefore ∧ preserveAuthority = false then raise .evidenceAlreadyConsumed
  else
    let candidate := newCycle sha (researchAgentCycleId sha stored.evidence cursorBefore) stored
      cursorBefore startedAt
    if candidate.validate = false then raise .validation else startOrRestart candidate startedAt

structure SupervisorCycleStart where
  stored : StoredResearchAgentEvidence
  startedAt : DateTime
  checkpointRef : String
  deriving DecidableEq, Repr

def startSupervisorCycle (request : SupervisorCycleStart) : CycleWriting ResearchAgentCycle := do
  let cursorBefore ← read (·.cursorFor request.stored.evidence)
  let candidate := newCycle sha
    (researchAgentSupervisorCycleId sha request.stored.evidence request.checkpointRef)
    request.stored cursorBefore request.startedAt
  if candidate.validate = false then raise .validation
  else startOrRestart candidate request.startedAt

end

structure CycleTerminalization where
  cycle : ResearchAgentCycle
  result : ResearchAgentResult
  openWork : Option ResearchAgentOpenWork := none
  deriving DecidableEq, Repr

/-- The cycle with its result. -/
def CycleTerminalization.terminal (mutation : CycleTerminalization) : ResearchAgentCycle :=
  { mutation.cycle with
    state := cycleStateForResult mutation.result.status
    terminalAt := some mutation.result.occurredAt
    resultId := some mutation.result.resultId }

/-- Whether the open work is what is stored. -/
def CycleTerminalization.workMatches (mutation : CycleTerminalization) (store : CycleStore) : Bool :=
  mutation.openWork.all fun work =>
    (store.openWork.row work.workId).any fun existing => existing.inUtc = work.inUtc

/-- The statements of the transaction. -/
def CycleTerminalization.statements (mutation : CycleTerminalization) : List Statement :=
  [.insertResult mutation.result, .updateCycle mutation.terminal,
    .appendCycleEvent mutation.terminal mutation.result.occurredAt,
    .advanceCursor mutation.terminal] ++ mutation.openWork.toList.map .upsertOpenWork

def terminalizeCycle (mutation : CycleTerminalization) : CycleWriting Unit := do
  let cycle := mutation.cycle
  let result := mutation.result
  if result.cycleId ≠ cycle.cycleId ∨ result.agentFamilyId ≠ cycle.agentFamilyId then
    raise .resultCycleIdentityMismatch
  else if mutation.openWork.any fun work =>
      work.agentFamilyId ≠ cycle.agentFamilyId ∨ work.state ≠ .terminal then
    raise .terminalOpenWorkIdentityMismatch
  else if mutation.terminal.validate = false then raise .validation
  else
    match ← read fun store => (store.result? cycle.cycleId, store.cycles.row cycle.cycleId) with
    | (some existing, row) =>
      if ← read fun store => decide (existing = result) &&
          row.any (fun c => c.inUtc = mutation.terminal.inUtc) && mutation.workMatches store then
        return ()
      else raise .resultIdentityConflict
    | (none, row) =>
      if row.any (fun c => c.inUtc = cycle.inUtc) then transact mutation.statements
      else raise .startedCycleMissing

def finishCycle (cycle : ResearchAgentCycle) (result : ResearchAgentResult) : CycleWriting Unit :=
  match result.status with
  | .completed | .noAction => terminalizeCycle { cycle, result }
  | .failed | .blocked => raise .finishResultStatusInvalid

def failCycle (cycle : ResearchAgentCycle) (result : ResearchAgentResult) : CycleWriting Unit :=
  match result.status with
  | .failed | .blocked => terminalizeCycle { cycle, result }
  | .completed | .noAction => raise .failureResultStatusInvalid

/-- A cycle that is interrupted. -/
def ResearchAgentCycle.interrupt (cycle : ResearchAgentCycle) (recoveredAt : DateTime) :
    ResearchAgentCycle :=
  { cycle with state := .interrupted, terminalAt := some recoveredAt }

/-- The cycles that are started, by their evidence. -/
def CycleStore.startedCycles (store : CycleStore) : List ResearchAgentCycle :=
  (store.cycles.rows.filter (·.state = .started)).mergeSort
    fun c d => c.evidenceSequence ≤ d.evidenceSequence

def recoverInterrupted (recoveredAt : DateTime) : CycleWriting (List String) := do
  let started ← read (·.startedCycles)
  let interrupted := started.map (·.interrupt recoveredAt)
  if interrupted.all (·.validate) then
    transact (interrupted.flatMap fun cycle => [.updateCycle cycle, .appendCycleEvent cycle recoveredAt])
    return interrupted.map (·.cycleId)
  else raise .validation

/-- The call `upsert_open_work`. -/
def upsertOpenWork (work : ResearchAgentOpenWork) : CycleWriting Unit :=
  transact [.upsertOpenWork work]

end TradingAgent.ResearchCycle
