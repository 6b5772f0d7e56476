import TradingAgent.ForwardTrial.Models
import TradingAgent.Library.Fold

/-!
# Theses of the US day agent

A trade thesis (`UsDayTradeThesis`) and the changes that follow it (`UsDayThesisChange`), with what
each of them validates about itself.

* The identity of a thesis or of a change is the digest of the JSON text of its other fields
  (`payload`).
* Their times are aware, and are kept in UTC: they are instants.
-/

namespace TradingAgent.UsDay

open Kr (EvidenceRef)
open Swing (TradeTarget)
open ForwardTrial (isoformat)

/-! ## Theses -/

inductive DayTradeDecision
  | recommend
  | watch
  | noTrade
  | insufficientEvidence
  deriving DecidableEq, Repr

def DayTradeDecision.value : DayTradeDecision → String
  | recommend => "recommend"
  | watch => "watch"
  | noTrade => "no_trade"
  | insufficientEvidence => "insufficient_evidence"

inductive FlowObservationKind
  | observed
  | inferred
  deriving DecidableEq, Repr

def FlowObservationKind.value : FlowObservationKind → String
  | observed => "observed"
  | inferred => "inferred"

inductive FlowInferenceKind
  | breakoutAbsorptionProxy
  | crossSymbolRelativeStrength
  deriving DecidableEq, Repr

def FlowInferenceKind.value : FlowInferenceKind → String
  | breakoutAbsorptionProxy => "breakout_absorption_proxy"
  | crossSymbolRelativeStrength => "cross_symbol_relative_strength"

structure EvidenceBoundRationale where
  text : String
  observationKind : FlowObservationKind
  evidenceRefs : List EvidenceRef
  deriving DecidableEq, Repr

structure UsDayTradeThesis where
  thesisId : String
  decision : DayTradeDecision
  situationId : String
  agentVersionId : String
  playbookId : String
  themeId : String
  catalystEventId : String
  flowInferenceKind : Option FlowInferenceKind
  themeName : String
  symbol : Option String
  entryPrice : Option Decimal
  stopPrice : Option Decimal
  targets : List TradeTarget
  invalidationRule : String
  confidenceBps : ℤ
  evidenceRefs : List EvidenceRef
  observedAt : Instant
  validUntil : Instant
  reasonCode : Option String
  themeRationale : Option EvidenceBoundRationale := none
  catalystRationale : Option EvidenceBoundRationale := none
  leaderRationale : Option EvidenceBoundRationale := none
  flowRationale : Option EvidenceBoundRationale := none
  deriving DecidableEq, Repr

/-- The pattern `[A-Z][-A-Z0-9./]{0,19}`. -/
def isSymbol (s : String) : Bool :=
  match s.toList with
  | [] => false
  | c :: cs => c.isUpper ∧ cs.length ≤ 19 ∧
      cs.all fun c => c.isUpper || c.isDigit || c = '.' || c = '/' || c = '-'

/-- A text without line breaks and tabs. -/
def isOneLine (s : String) : Bool := s.toList.all fun c => c ≠ '\r' ∧ c ≠ '\n' ∧ c ≠ '\t'

def evidenceAtoms (ref : EvidenceRef) : List JsonAtom :=
  [.str ref.nameSpace, .time ref.observedAt, .str ref.recordId]

def EvidenceBoundRationale.atoms (rationale : EvidenceBoundRationale) : List JsonAtom :=
  [.str rationale.observationKind.value, .str rationale.text, .int rationale.evidenceRefs.length] ++
    rationale.evidenceRefs.flatMap evidenceAtoms

def EvidenceBoundRationale.validateRationale (rationale : EvidenceBoundRationale) : Bool :=
  let identities := rationale.evidenceRefs.map (·.canonicalId)
  rationale.text ≠ "" ∧ rationale.text.toList.length ≤ 240 ∧ isStripped rationale.text ∧
    isOneLine rationale.text ∧ rationale.evidenceRefs ≠ [] ∧ rationale.evidenceRefs.length ≤ 16 ∧
    rationale.evidenceRefs.all Kr.validateEvidence ∧ identities = sortedSet identities

/-- The references by their identities, of which the last one counts, in order: `_canonical_refs`. -/
def canonicalRefs (refs : List EvidenceRef) : List EvidenceRef :=
  (sortedSet (refs.map (·.canonicalId))).filterMap (dictGet (·.canonicalId) refs)

namespace UsDayTradeThesis

def rationales (thesis : UsDayTradeThesis) : List (Option EvidenceBoundRationale) :=
  [thesis.themeRationale, thesis.catalystRationale, thesis.leaderRationale, thesis.flowRationale]

/-- The text of what the identity is made of, where the nested values come last. -/
def payload (thesis : UsDayTradeThesis) : List JsonAtom :=
  [.str thesis.agentVersionId, .str thesis.catalystEventId, .int thesis.confidenceBps,
    .str thesis.decision.value, .ofOption .decimal thesis.entryPrice,
    .ofOption (.str ·.value) thesis.flowInferenceKind, .str thesis.invalidationRule,
    .time (.utc thesis.observedAt), .bool false, .str thesis.playbookId,
    .ofOption .str thesis.reasonCode, .int 1, .str thesis.situationId,
    .ofOption .decimal thesis.stopPrice, .ofOption .str thesis.symbol, .str thesis.themeId,
    .str thesis.themeName, .time (.utc thesis.validUntil), .int thesis.targets.length] ++
    thesis.targets.flatMap (fun target => [.str target.label, .decimal target.price]) ++
    .int thesis.evidenceRefs.length :: thesis.evidenceRefs.flatMap evidenceAtoms ++
    thesis.rationales.flatMap fun rationale =>
      rationale.elim [.null] EvidenceBoundRationale.atoms

def canonicalIdFor (sha : Sha256) (thesis : UsDayTradeThesis) : String :=
  sha.hexdigest thesis.payload

/-- The four rationales, in one text. -/
def rationale (thesis : UsDayTradeThesis) : String :=
  " ".intercalate (thesis.rationales.filterMap fun rationale => rationale.map (·.text))

/-- The stop is below the entry, and the targets are above it. -/
def pricesAreValid (thesis : UsDayTradeThesis) : Bool :=
  match thesis.entryPrice, thesis.stopPrice with
  | some entry, some stop => entry.isFinite ∧ stop.isFinite ∧ stop < entry ∧
      thesis.targets.all fun target => entry < target.price
  | _, _ => false

/-- What holds of a thesis that recommends a trade. -/
def recommendationIsValid (thesis : UsDayTradeThesis) : Bool :=
  let prices := thesis.targets.map (·.price.toRat)
  thesis.symbol.any isSymbol ∧ thesis.pricesAreValid ∧ 2 ≤ thesis.targets.length ∧
    prices = sortedSet prices ∧ thesis.reasonCode = none ∧
    thesis.rationales.all (·.isSome)

/-- What holds of a thesis that does not. -/
def terminalIsValid (thesis : UsDayTradeThesis) : Bool :=
  thesis.symbol = none ∧ thesis.entryPrice = none ∧ thesis.stopPrice = none ∧
    thesis.targets = [] ∧ thesis.reasonCode.any Swing.isFeatureName ∧
    thesis.rationales.all (·.isNone)

def validateThesis (sha : Sha256) (thesis : UsDayTradeThesis) : Bool :=
  let evidenceIds := thesis.evidenceRefs.map (·.canonicalId)
  let rationaleRefs := (thesis.rationales.filterMap id).flatMap (·.evidenceRefs)
  isHex64 thesis.thesisId ∧ isHex64 thesis.situationId ∧ isHex64 thesis.agentVersionId ∧
    isHex64 thesis.themeId ∧ isHex64 thesis.catalystEventId ∧
    0 ≤ thesis.confidenceBps ∧ thesis.confidenceBps ≤ 10000 ∧
    thesis.targets.all Swing.validateTarget ∧ thesis.targets.length ≤ 8 ∧
    thesis.evidenceRefs.all Kr.validateEvidence ∧
    thesis.rationales.all (·.all (·.validateRationale)) ∧
    Swing.isFeatureName thesis.playbookId ∧ Swing.isFeatureName thesis.themeName ∧
    thesis.invalidationRule ≠ "" ∧ thesis.invalidationRule.toList.length ≤ 240 ∧
    isStripped thesis.invalidationRule ∧ isOneLine thesis.invalidationRule ∧
    thesis.observedAt < thesis.validUntil ∧
    (if thesis.decision = .recommend then thesis.recommendationIsValid
      else thesis.terminalIsValid) ∧
    evidenceIds = sortedSet evidenceIds ∧ thesis.evidenceRefs = canonicalRefs rationaleRefs ∧
    thesis.evidenceRefs.all (·.observedAt.instant ≤ thesis.observedAt) ∧
    thesis.thesisId = thesis.canonicalIdFor sha

theorem thesisId_of_validateThesis {sha : Sha256} {thesis : UsDayTradeThesis}
    (h : thesis.validateThesis sha = true) : thesis.thesisId = sha.hexdigest thesis.payload := by
  rw [validateThesis, decide_eq_true_eq] at h
  exact h.2.2.2.2.2.2.2.2.2.2.2.2.2.2.2.2.2.2.2.2.2.2

/-- A thesis that recommends a trade has the prices of one. -/
theorem recommendationIsValid_of_validateThesis {sha : Sha256} {thesis : UsDayTradeThesis}
    (h : thesis.validateThesis sha = true) (hdecision : thesis.decision = .recommend) :
    thesis.recommendationIsValid = true := by
  rw [validateThesis, decide_eq_true_eq, if_pos hdecision] at h
  exact h.2.2.2.2.2.2.2.2.2.2.2.2.2.2.2.2.2.2.1

end UsDayTradeThesis

/-! ## Changes -/

inductive ThesisChangeKind
  | hold
  | cancelEntry
  | invalidateLogic
  | partialExit
  | close
  deriving DecidableEq, Repr

namespace ThesisChangeKind

def value : ThesisChangeKind → String
  | hold => "hold"
  | cancelEntry => "cancel_entry"
  | invalidateLogic => "invalidate_logic"
  | partialExit => "partial_exit"
  | close => "close"

/-- The kinds after which nothing follows. -/
def terminal : ThesisChangeKind → Bool
  | cancelEntry | invalidateLogic | close => true
  | hold | partialExit => false

end ThesisChangeKind

structure UsDayThesisChange where
  eventId : String
  thesisId : String
  parentEventId : String
  kind : ThesisChangeKind
  occurredAt : Instant
  note : String
  deriving DecidableEq, Repr

namespace UsDayThesisChange

/-- The text of what the identity is made of. -/
def payload (change : UsDayThesisChange) : List JsonAtom :=
  [.str change.kind.value, .str change.note, .time (.utc change.occurredAt),
    .str change.parentEventId, .int 1, .str change.thesisId]

def canonicalIdFor (sha : Sha256) (change : UsDayThesisChange) : String :=
  sha.hexdigest change.payload

def validateChange (sha : Sha256) (change : UsDayThesisChange) : Bool :=
  isHex64 change.eventId ∧ isHex64 change.thesisId ∧ isHex64 change.parentEventId ∧
    change.note ≠ "" ∧ change.note.toList.length ≤ 240 ∧ isStripped change.note ∧
    change.eventId = change.canonicalIdFor sha

/-- A change with the identity that is due to it. -/
def create (sha : Sha256) (thesisId parentEventId : String) (kind : ThesisChangeKind)
    (occurredAt : Instant) (note : String) : UsDayThesisChange :=
  let candidate : UsDayThesisChange :=
    { eventId := String.ofList (List.replicate 64 '0'), thesisId, parentEventId, kind, occurredAt,
      note }
  { candidate with eventId := candidate.canonicalIdFor sha }

theorem eventId_of_validateChange {sha : Sha256} {change : UsDayThesisChange}
    (h : change.validateChange sha = true) : change.eventId = sha.hexdigest change.payload := by
  rw [validateChange, decide_eq_true_eq] at h
  exact h.2.2.2.2.2.2

/-- The text of a change is not that of a thesis: the third part of it is a time. -/
theorem payload_ne (change : UsDayThesisChange) (thesis : UsDayTradeThesis) :
    change.payload ≠ thesis.payload := by
  intro heq
  have hthird := congrArg (fun l : List JsonAtom => l[2]?) heq
  cases hthird

end UsDayThesisChange

end TradingAgent.UsDay
