import TradingAgent.Kr.Levels
import TradingAgent.Library.Except

/-!
# What the planner returns

A request that is valid once it is read back gets an event: a recommendation that keeps the price
grid and the budgets (`MeetsPlan`), or one that says why there is none. The only exceptions are the
requests whose levels do not fit (`LevelsFit`), for which the planner raises (`plan_meets_iff`).
-/

namespace TradingAgent.Kr

variable {sha : Sha256} {casefold : String → String} {request trusted : KrAutonomousTradeRequest}

/-! ## Requests -/

theorem KrSocialSignal.normalizeTimestamp_idem (signal : KrSocialSignal) :
    signal.normalizeTimestamp.normalizeTimestamp = signal.normalizeTimestamp := by
  simp [normalizeTimestamp, Function.comp_def]

theorem KrAutonomousTradeRequest.normalize_idem (request : KrAutonomousTradeRequest) :
    request.normalize.normalize = request.normalize := by
  simp [normalize, KrSocialSignal.normalizeTimestamp_idem]

theorem revalidate_eq_some
    (h : revalidateKrAutonomousTradeRequest sha request = some trusted) :
    validateRequest sha trusted = true ∧
      revalidateKrAutonomousTradeRequest sha trusted = some trusted := by
  rw [revalidateKrAutonomousTradeRequest] at h
  split_ifs at h with hvalid
  obtain rfl := Option.some.inj h
  refine ⟨hvalid, ?_⟩
  rw [revalidateKrAutonomousTradeRequest, request.normalize_idem, if_pos hvalid]

/-- What the events take from a request is valid. -/
structure KrTradeEventContext.Valid (context : KrTradeEventContext) : Prop where
  planId : isHex64 context.planId = true
  taskId : isHex64 context.thesis.taskId = true
  thesisId : isHex64 context.thesis.thesisId = true
  previousEventId : context.previousEventId.all isHex64 = true
  evaluatedAt : context.evaluatedAt.aware = true
  nextWakeAt : context.nextWakeAt.aware = true
  wake : ¬ context.nextWakeAt ≤ context.evaluatedAt

theorem context_valid (h : validateRequest sha trusted = true) : (trusted.context sha).Valid := by
  simp only [validateRequest, validateThesis, Bool.decide_and, Bool.and_eq_true,
    decide_eq_true_eq, List.all_cons] at h
  obtain ⟨⟨⟨hthesis, htask, -⟩, -⟩, -, -, ⟨hevaluated, hwake⟩, -, hprevious, hafter⟩ := h
  exact ⟨sha.isHex64_hexdigest _, htask, hthesis, hprevious, hevaluated, hwake, hafter⟩

theorem validateCorroboration_of_request (h : validateRequest sha trusted = true) :
    validateCorroboration sha trusted.market = true := by
  simp only [validateRequest, Bool.decide_and, Bool.and_eq_true, decide_eq_true_eq] at h
  exact h.2.2.1

theorem exists_pos_of_positive {value : Decimal}
    (h : decide (value.isFinite = true ∧ 0 < value) = true) :
    ∃ q : ℚ, value = .finite q ∧ 0 < q := by
  obtain ⟨hfinite, hpos⟩ := of_decide_eq_true h
  obtain ⟨q, rfl⟩ := Decimal.isFinite_iff.1 hfinite
  exact ⟨q, rfl, by simpa using hpos⟩

/-- The quote of a valid request has an ask. -/
theorem exists_prices (h : validateRequest sha trusted = true) :
    ∃ ask low, Prices trusted ask low := by
  have hmarket := validateCorroboration_of_request h
  simp only [validateCorroboration, Bool.decide_and, Bool.and_eq_true, decide_eq_true_eq]
    at hmarket
  obtain ⟨⟨hbar, hsnapshot⟩, -, -, -, -, -, -, -, -, -, hquote, -⟩ := hmarket
  simp only [validateBar, Bool.decide_and, Bool.and_eq_true, decide_eq_true_eq,
    List.all_cons] at hbar
  obtain ⟨-, -, -, -, -, -, -, -, ⟨-, -, hlow, -⟩, -⟩ := hbar
  simp only [validateSnapshot, Bool.decide_and, Bool.and_eq_true, decide_eq_true_eq,
    List.all_cons] at hsnapshot
  obtain ⟨-, -, -, -, ⟨-, hask⟩, -⟩ := hsnapshot
  obtain ⟨low, hlow, hlowpos⟩ := exists_pos_of_positive hlow
  rw [KrAutonomousMarketCorroboration.hasValidQuote] at hquote
  -- Without a bid and an ask, the quote is not valid.
  rcases hbidask : trusted.market.marketSnapshot.askPrice with - | ask
  · rw [hbidask] at hquote
    cases hbid : trusted.market.marketSnapshot.bidPrice <;> simp [hbid] at hquote
  · rw [hbidask, Option.all_some] at hask
    obtain ⟨ask, rfl, haskpos⟩ := exists_pos_of_positive hask
    exact ⟨ask, low, hbidask, haskpos, hlow, hlowpos⟩

/-! ## Events -/

theorem modelValidate_ok {α : Type} {isValid : α → Bool} {record : α} (h : isValid record = true) :
    modelValidate isValid record = .ok record := if_pos h

/-- An event without a trade is valid, if it has a reason. -/
theorem noTrade_ok {context : KrTradeEventContext} (h : context.Valid)
    {reasons : List KrNoTradeReason} (hreasons : reasons ≠ []) :
    ∃ event, noTrade sha context reasons = .ok (.noTrade event) ∧ event.reasonCodes ≠ [] := by
  rw [noTrade, modelValidate_ok]
  · exact ⟨_, rfl, hreasons⟩
  · simp only [validateNoTrade, Bool.decide_and, Bool.and_eq_true, decide_eq_true_eq,
      List.all_cons, List.all_nil]
    exact ⟨⟨sha.isHex64_hexdigest _, h.planId, h.taskId, h.thesisId, trivial⟩, h.previousEventId,
      h.evaluatedAt, h.nextWakeAt, hreasons, h.wake, rfl⟩

/-- A verdict whose reasons are those of its status is valid. -/
theorem buildVerdict_ok (status : KrAutonomousCriticStatus) {thesisId : String}
    {proposalId : Option String} {reasons : List KrCriticReason} (hthesis : isHex64 thesisId = true)
    (hproposal : proposalId.all isHex64 = true) (hreasons : reasons ≠ []) (hstatus : ∀ verdictId,
      reasonsAreValid ⟨verdictId, proposalId, thesisId, status, reasons⟩ = true) :
    ∃ verdict, buildVerdict sha thesisId proposalId status reasons = .ok verdict ∧
      validateVerdict sha verdict = true ∧ verdict.thesisId = thesisId ∧
      verdict.proposalId = proposalId ∧ verdict.status = status ∧
      verdict.reasonCodes = reasons := by
  have hvalid : validateVerdict sha ⟨sha.hexdigest (KrAutonomousCriticVerdict.material
      ⟨"", proposalId, thesisId, status, reasons⟩), proposalId, thesisId, status, reasons⟩ =
      true := by
    simp only [validateVerdict, Bool.decide_and, Bool.and_eq_true, decide_eq_true_eq]
    exact ⟨sha.isHex64_hexdigest _, hproposal, hthesis, hreasons, hstatus _, rfl⟩
  exact ⟨_, modelValidate_ok hvalid, hvalid, rfl, rfl, rfl, rfl⟩

theorem approved_not_mem_criticReasons {proposal : Option KrAutonomousTradeProposal} :
    KrCriticReason.approved ∉ criticReasons casefold trusted proposal := by
  simp only [criticReasons, List.mem_append, not_or]
  refine ⟨⟨⟨⟨⟨⟨⟨⟨⟨?_, ?_⟩, ?_⟩, ?_⟩, ?_⟩, ?_⟩, ?_⟩, ?_⟩, ?_⟩, ?_⟩
  all_goals split_ifs <;> simp

/-- The verdict of the critic is valid, and it rejects a proposal or has no reason against it,
    unless the market is stale or the exposure a second one. -/
theorem critic_ok (h : validateRequest sha trusted = true)
    {proposal : KrAutonomousTradeProposal} (hproposal : isHex64 proposal.proposalId = true) :
    ∃ verdict, critic sha casefold trusted (some proposal) = .ok verdict ∧
      validateVerdict sha verdict = true ∧ verdict.thesisId = trusted.thesis.thesisId ∧
      verdict.proposalId = some proposal.proposalId ∧ verdict.reasonCodes ≠ [] := by
  have hthesis := (context_valid h).thesisId
  have hsome : (some proposal.proposalId).all isHex64 = true := hproposal
  rw [critic]
  dsimp only [Option.map_some]
  split_ifs with hrejection hreasons
  · have hne : criticReasons casefold trusted (some proposal) ≠ [] := by
      rintro hnil
      simp [hnil] at hrejection
    obtain ⟨verdict, hverdict, hvalid, hid, hpid, -, hcodes⟩ :=
      buildVerdict_ok .rejected hthesis hsome hne
        fun _ => decide_eq_true approved_not_mem_criticReasons
    exact ⟨verdict, hverdict, hvalid, hid, hpid, hcodes ▸ hne⟩
  · obtain ⟨verdict, hverdict, hvalid, hid, hpid, -, hcodes⟩ :=
      buildVerdict_ok .moreResearch hthesis hsome hreasons
        fun _ => decide_eq_true approved_not_mem_criticReasons
    exact ⟨verdict, hverdict, hvalid, hid, hpid, hcodes ▸ hreasons⟩
  · obtain ⟨verdict, hverdict, hvalid, hid, hpid, -, hcodes⟩ :=
      buildVerdict_ok .approved hthesis hsome (List.cons_ne_nil KrCriticReason.approved [])
        fun _ => rfl
    exact ⟨verdict, hverdict, hvalid, hid, hpid, hcodes ▸ List.cons_ne_nil _ _⟩

theorem rejected_ok {context : KrTradeEventContext} (h : context.Valid)
    {verdict : KrAutonomousCriticVerdict} (hverdict : isHex64 verdict.verdictId = true)
    (hreasons : verdict.reasonCodes ≠ []) :
    ∃ event, rejected sha context verdict = .ok (.rejected event) ∧ event.reasonCodes ≠ [] := by
  rw [rejected, modelValidate_ok]
  · exact ⟨_, rfl, hreasons⟩
  · simp only [validateRejected, Bool.decide_and, Bool.and_eq_true, decide_eq_true_eq,
      List.all_cons, List.all_nil]
    exact ⟨⟨sha.isHex64_hexdigest _, h.planId, h.taskId, h.thesisId, hverdict, trivial⟩,
      h.previousEventId, h.evaluatedAt, h.nextWakeAt, hreasons, h.wake, rfl⟩

/-- A recommendation that keeps the price grid and the budgets. -/
structure MeetsPlan (state : KrSocialVerificationState) (event : KrTradeRecommendation) :
    Prop where
  ordered : event.stop < event.entry ∧ event.entry < event.targets.1 ∧
    event.targets.1 < event.targets.2
  /-- Every price is a multiple of the step of its own band. -/
  onGrid : ∀ price ∈ [event.stop, event.entry, event.targets.1, event.targets.2],
    ∃ tick k : ℤ, krEquityTickSize price = some (.finite tick) ∧ price = .finite (tick * k : ℤ)
  one_le_quantity : 1 ≤ event.quantity
  risk : (event.quantity : Decimal) * (event.entry - event.stop) ≤ state.riskBudget
  notional : (event.quantity : Decimal) * event.entry ≤ state.maximumNotional

/-- What the planner may return for a request of a state. -/
def MeetsEvent (state : KrSocialVerificationState) : KrAutonomousTradeEvent → Prop
  | .recommend event => MeetsPlan state event
  | .noTrade event => event.reasonCodes ≠ []
  | .rejected event => event.reasonCodes ≠ []

theorem OnGrid.exists_tick {n : ℤ} (h : OnGrid n) :
    ∃ tick k : ℤ, krEquityTickSize (.finite n) = some (.finite tick) ∧
      Decimal.finite n = .finite (tick * k : ℤ) := by
  obtain ⟨hpos, k, hk⟩ := h
  exact ⟨tickOf n, k, krEquityTickSize_finite (by exact_mod_cast hpos), by rw [← hk]⟩

/-- An approved proposal is recommended as it is. -/
theorem recommendation_ok (h : validateRequest sha trusted = true)
    {proposal : KrAutonomousTradeProposal} (hproposal : validateProposal sha proposal = true)
    (htime : proposal.timestamp = trusted.evaluatedAt) {verdict : KrAutonomousCriticVerdict}
    (hverdict : validateVerdict sha verdict = true) (hstatus : verdict.status = .approved)
    (hthesis : verdict.thesisId = trusted.thesis.thesisId)
    (hid : verdict.proposalId = some proposal.proposalId) :
    ∃ event, recommendation sha trusted proposal verdict (sha.hexdigest trusted.material) =
      .ok (.recommend event) ∧ event.stop = proposal.stop ∧ event.entry = proposal.entry ∧
      event.targets = proposal.targets ∧ event.quantity = proposal.quantity := by
  rw [recommendation, modelValidate_ok]
  · exact ⟨_, rfl, rfl, rfl, rfl, rfl⟩
  have hmarket := validateCorroboration_of_request h
  have hcontext := context_valid h
  have hverdictId : isHex64 verdict.verdictId = true := by
    simp only [validateVerdict, Bool.decide_and, Bool.and_eq_true, decide_eq_true_eq] at hverdict
    exact hverdict.1
  simp only [validateRequest, validateThesis, validateSignal, Bool.decide_and, Bool.and_eq_true,
    decide_eq_true_eq, List.all_cons] at h
  obtain ⟨⟨-, -, -, -, hrefs, -, -, -, -, hsorted, -⟩, ⟨⟨hsignal, -⟩, -⟩, -⟩ := h
  simp only [validateCorroboration, Bool.decide_and, Bool.and_eq_true, decide_eq_true_eq,
    List.all_cons] at hmarket
  obtain ⟨-, ⟨hcorroboration, -⟩, -⟩ := hmarket
  simp only [validateProposal, Bool.decide_and, Bool.and_eq_true, decide_eq_true_eq,
    List.all_cons] at hproposal
  obtain ⟨hproposalId, -, huntil, hquantity, hprices, hlevels, hdigest⟩ := hproposal
  simp only [validateRecommendation, Bool.decide_and, Bool.and_eq_true, decide_eq_true_eq,
    List.all_cons]
  refine ⟨⟨sha.isHex64_hexdigest _, sha.isHex64_hexdigest _, hcontext.taskId, hcontext.thesisId,
    hproposalId, hsignal, hcorroboration, hverdictId, rfl⟩, hcontext.previousEventId,
    hcontext.evaluatedAt, huntil, hrefs, hquantity, hverdict, hprices, hlevels, hsorted, trivial,
    hstatus, hthesis, hid, ?_, rfl⟩
  rw [hdigest, KrAutonomousTradeProposal.material, htime]
  rfl

/-- A valid proposal leads to an event, which keeps to the levels of the proposal. -/
theorem finalize_ok (h : revalidateKrAutonomousTradeRequest sha trusted = some trusted)
    {proposal : KrAutonomousTradeProposal}
    (hpropose : proposeKrAutonomousTrade sha trusted = .ok (.inl proposal))
    (hproposal : validateProposal sha proposal = true)
    (htime : proposal.timestamp = trusted.evaluatedAt) {state : KrSocialVerificationState}
    (hmeets : ∀ event : KrTradeRecommendation, event.stop = proposal.stop →
      event.entry = proposal.entry → event.targets = proposal.targets →
      event.quantity = proposal.quantity → MeetsPlan state event) :
    ∃ event, finalizeKrAutonomousTrade sha casefold trusted proposal = .ok event ∧
      MeetsEvent state event := by
  have hvalid := (revalidate_eq_some h).1
  have hcontext : (trusted.context sha).Valid := context_valid hvalid
  have hid : isHex64 proposal.proposalId = true := by
    simp only [validateProposal, Bool.decide_and, Bool.and_eq_true, decide_eq_true_eq]
      at hproposal
    exact hproposal.1
  obtain ⟨verdict, hcritic, hverdict, hthesis, hproposalId, hreasons⟩ :=
    @critic_ok sha casefold _ hvalid _ hid
  have hverdictId : isHex64 verdict.verdictId = true := by
    simp only [validateVerdict, Bool.decide_and, Bool.and_eq_true, decide_eq_true_eq] at hverdict
    exact hverdict.1
  rw [finalizeKrAutonomousTrade, h]
  dsimp only
  rw [hpropose, Except.ok_bind, if_neg (not_not_intro rfl), hcritic, Except.ok_bind]
  cases hstatus : verdict.status with
  | approved =>
    obtain ⟨event, hevent, hstop, hentry, htargets, hquantity⟩ :=
      recommendation_ok hvalid hproposal htime hverdict hstatus hthesis hproposalId
    exact ⟨_, hevent, hmeets event hstop hentry htargets hquantity⟩
  | moreResearch =>
    obtain ⟨event, hevent, hcodes⟩ :=
      @noTrade_ok sha _ hcontext [.invalidStop] (List.cons_ne_nil _ _)
    exact ⟨_, hevent, hcodes⟩
  | rejected =>
    obtain ⟨event, hevent, hcodes⟩ := @rejected_ok sha _ hcontext _ hverdictId hreasons
    exact ⟨_, hevent, hcodes⟩

/-! ## Plans -/

section Levels

variable {entry stop first second quantity : ℤ}
  (hgrid : ∀ n ∈ [entry, stop, first, second], OnGrid n ∧ n < 10 ^ 28) (hstop : stop < entry)
  (hfirst : entry < first) (hquantity : 1 ≤ quantity)
include hgrid hstop hfirst hquantity

/-- A proposal with levels on the grid is valid exactly if its targets are apart. -/
theorem validateProposal_iff (h : validateRequest sha trusted = true) :
    validateProposal sha (proposalAt sha trusted (.finite entry) (.finite stop)
      (.finite first, .finite second) quantity) = true ↔ first < second := by
  have huntil : trusted.market.validUntil.aware = true := by
    have hmarket := validateCorroboration_of_request h
    simp only [validateCorroboration, Bool.decide_and, Bool.and_eq_true, decide_eq_true_eq,
      List.all_cons] at hmarket
    exact hmarket.2.2.2.1.1
  have hvalid : ∀ n ∈ [entry, stop, first, second], isValidKrEquityPrice (.finite n) = true :=
    fun n hn => isValidKrEquityPrice_intCast (hgrid n hn).2 (hgrid n hn).1
  simp only [validateProposal, levelsAreOrdered, Bool.decide_and, Bool.and_eq_true,
    decide_eq_true_eq, List.all_cons, List.all_nil, proposalAt, Decimal.finite_lt_finite,
    Int.cast_lt]
  constructor
  · rintro ⟨-, -, -, -, -, ⟨-, -, hlt⟩, -⟩
    exact hlt
  · intro hlt
    exact ⟨sha.isHex64_hexdigest _, (context_valid h).evaluatedAt, huntil, by omega,
      ⟨hvalid _ (by simp), hvalid _ (by simp), hvalid _ (by simp), hvalid _ (by simp), trivial⟩,
      ⟨hstop, hfirst, hlt⟩, rfl⟩

/-- A plan with such levels, whose quantity keeps to the budgets. -/
theorem meetsPlan_of_levels (hsecond : first < second) {state : KrSocialVerificationState}
    (hrisk : Decimal.finite (quantity * (entry - stop) : ℤ) ≤ state.riskBudget)
    (hnotional : Decimal.finite (quantity * entry : ℤ) ≤ state.maximumNotional)
    {event : KrTradeRecommendation} (hs : event.stop = .finite stop)
    (he : event.entry = .finite entry) (ht : event.targets = (.finite first, .finite second))
    (hq : event.quantity = quantity) : MeetsPlan state event where
  ordered := by
    rw [hs, he, ht]
    simp only [Decimal.finite_lt_finite, Int.cast_lt]
    exact ⟨hstop, hfirst, hsecond⟩
  onGrid := by
    rw [hs, he, ht]
    simp only [List.forall_mem_cons, List.not_mem_nil, false_implies, implies_true, and_true]
    exact ⟨(hgrid stop (by simp)).1.exists_tick, (hgrid entry (by simp)).1.exists_tick,
      (hgrid first (by simp)).1.exists_tick, (hgrid second (by simp)).1.exists_tick⟩
  one_le_quantity := hq ▸ hquantity
  risk := by
    rw [hs, he, hq, Decimal.intCast_eq, Decimal.finite_sub_finite, Decimal.finite_mul_finite]
    exact_mod_cast hrisk
  notional := by
    rw [he, hq, Decimal.intCast_eq, Decimal.finite_mul_finite]
    exact_mod_cast hnotional

end Levels

theorem Reaches.unique {entry stop entry' stop' : ℤ} (h : Reaches trusted entry stop)
    (h' : Reaches trusted entry' stop') : entry' = entry ∧ stop' = stop := by
  have hentry := Option.some.inj (h'.ask.symm.trans h.ask)
  have hstop := Option.some.inj (h'.low.symm.trans h.low)
  exact ⟨Int.cast_injective (Decimal.finite.inj hentry),
    Int.cast_injective (Decimal.finite.inj hstop)⟩

/-- What the planner does with a request it could read back, when nothing speaks against a
    proposal beforehand. -/
theorem plan_eq (h : revalidateKrAutonomousTradeRequest sha request = some trusted)
    (hpre : precriticNoTradeReasons casefold trusted = []) :
    planKrAutonomousTrade sha casefold request =
      proposeKrAutonomousTrade sha trusted >>= fun
        | .inr failure => noTrade sha (trusted.context sha) [failure]
        | .inl proposal => finalizeKrAutonomousTrade sha casefold trusted proposal := by
  rw [planKrAutonomousTrade, h]
  exact if_neg (not_not_intro hpre)

/-- The planner returns an event for a request that is valid once it is read back, with a plan that
    keeps the price grid and the budgets or with the reasons for none, exactly if something speaks
    against a proposal beforehand or its levels fit. -/
theorem plan_meets_iff (h : revalidateKrAutonomousTradeRequest sha request = some trusted) :
    (∃ event, planKrAutonomousTrade sha casefold request = .ok event ∧
      MeetsEvent trusted.socialSignal.verificationState event) ↔
      (precriticNoTradeReasons casefold trusted = [] → LevelsFit trusted) := by
  obtain ⟨hvalid, hagain⟩ := revalidate_eq_some h
  have hcontext : (trusted.context sha).Valid := context_valid hvalid
  obtain ⟨ask, low, hprices⟩ := exists_prices hvalid
  by_cases hpre : precriticNoTradeReasons casefold trusted = []
  swap
  · obtain ⟨event, hevent, hreasons⟩ := @noTrade_ok sha _ hcontext _ hpre
    refine iff_of_true ⟨.noTrade event, ?_, hreasons⟩ fun hnil => absurd hnil hpre
    rw [planKrAutonomousTrade, h]
    dsimp only
    rw [if_pos hpre, hevent]
  rw [plan_eq h hpre, forall_prop_of_true hpre]
  rcases lt_or_ge (Decimal.digits28.round low) 1 with hlow | hlow
  · -- The low cannot be rounded down.
    rw [propose_eq_error hprices hlow]
    refine iff_of_false (fun ⟨_, hevent, _⟩ => nomatch hevent) fun hfit => ?_
    have hone := hfit.one_le_low
    rw [hprices.low_eq, Decimal.toRat_finite] at hone
    exact absurd hlow (not_lt.2 hone)
  have hone : 1 ≤ Decimal.digits28.round trusted.market.latestCompletedBar.low.toRat := by
    rwa [hprices.low_eq, Decimal.toRat_finite]
  by_cases hreaches : ∃ entry stop, Reaches trusted entry stop
  swap
  · obtain ⟨failure, hpropose⟩ := propose_of_not_reaches sha hprices hlow
      fun entry stop hreach => hreaches ⟨entry, stop, hreach⟩
    obtain ⟨event, hevent, hreasons⟩ :=
      @noTrade_ok sha _ hcontext [failure] (List.cons_ne_nil _ _)
    refine iff_of_true ⟨.noTrade event, ?_, hreasons⟩
      ⟨hone, fun entry stop hreach => absurd ⟨entry, stop, hreach⟩ hreaches⟩
    rw [hpropose, Except.ok_bind]
    exact hevent
  obtain ⟨entry, stop, hreach⟩ := hreaches
  obtain ⟨first, second, quantity, hgrid, hfirst, hiff, hquantity, hrisk, hnotional, hpropose⟩ :=
    propose_of_reaches sha hprices hlow hreach
  have hproposal := validateProposal_iff hgrid hreach.stop_lt hfirst hquantity hvalid
  by_cases hlt : first < second
  · have hok := modelValidate_ok (hproposal.2 hlt)
    rw [hok] at hpropose
    refine iff_of_true ?_ ⟨hone, fun entry' stop' hreach' => ?_⟩
    · rw [hpropose]
      refine finalize_ok hagain hpropose (hproposal.2 hlt) rfl
        fun event hst hen hta hqu => ?_
      exact meetsPlan_of_levels hgrid hreach.stop_lt hfirst hquantity hlt hrisk hnotional hst hen
        hta hqu
    · obtain ⟨rfl, rfl⟩ := hreach.unique hreach'
      exact hiff.1 hlt
  · refine iff_of_false ?_ fun hfit => hlt (hiff.2 (hfit.targets_apart entry stop hreach))
    rintro ⟨event, hevent, -⟩
    rw [hpropose, modelValidate, if_neg (mt hproposal.1 hlt)] at hevent
    cases hevent

namespace PlanSample

def hex (c : Char) : String := String.ofList (List.replicate 64 c)

def digest : Sha256 := ⟨fun _ => hex '0', fun _ => by decide +kernel⟩

/-- A time of the session, by the clocks of Seoul. -/
def clock (hour minute second : ℤ) : DateTime :=
  DateTime.combine (Date.ofCivil 2026 8 27) hour minute (TimeDelta.hours 9) +
    TimeDelta.seconds second

def signal : KrSocialSignal where
  signalId := hex '0'
  taskId := hex '1'
  symbol := "005930"
  theme := "memory"
  claimSummary := "memory prices rise"
  evidenceIds := [hex '4']
  sourcePayloadSha256s := [hex '5']
  repostClusterIds := [hex '6']
  independentSourceClusterIds := [hex '7']
  postCount := 1
  repostClusterCount := 1
  independentSourceCount := 1
  verificationState := .unverifiedSocial
  earliestPublishedAt := some (.utc (clock 9 50 0).instant)
  firstObservedAt := .utc (clock 9 55 0).instant
  normalizedAt := .utc (clock 9 56 0).instant

/-- A minute that closes at 5000. -/
def bar (low : ℕ) : KrCompletedMinuteBar where
  symbol := "005930"
  startAt := clock 10 0 0
  endAt := clock 10 1 0
  observedAt := clock 10 1 1
  open_ := 5000
  high := 5000
  low := low
  close := 5000
  volume := 100
  tradingValueKrw := 500000
  evidenceRef := ⟨"kr/bar", hex 'c' ++ ":100000", clock 10 1 1⟩

/-- A quote with an ask of 5000. -/
def snapshot : KrMarketConstraintSnapshot where
  symbol := "005930"
  observedAt := clock 10 1 2
  previousClose := 4900
  lastPrice := 5000
  bidPrice := some 4995
  askPrice := some 5000
  lowerLimitPrice := 3500
  upperLimitPrice := 6300
  sessionState := .open
  viState := .clear
  tradingMode := .continuous
  haltState := .clear
  designationState := .clear
  evidenceRefs := [⟨"kr/orderbook", hex 'a', clock 10 1 2⟩, ⟨"kr/quote", hex 'b', clock 10 1 2⟩]

def market (low : ℕ) : KrAutonomousMarketCorroboration :=
  let draft : KrAutonomousMarketCorroboration :=
    { corroborationId := hex '0'
      taskId := hex '1'
      socialSignalId := hex '0'
      symbol := "005930"
      sessionDate := Date.ofCivil 2026 8 27
      calendarSnapshotId := hex '2'
      socialFirstObservedAt := clock 9 55 0
      marketResponseAt := clock 10 1 2
      observedAt := clock 10 1 2
      validUntil := clock 10 1 7
      latestCompletedBar := bar low
      marketSnapshot := snapshot
      spreadBps := 0
      tradingValueKrw := 500000
      receiptCount := 3
      receiptSha256s := [hex 'a', hex 'b', hex 'c']
      evidenceCount := 3
      evidenceIds := ["kr/bar:" ++ hex 'c' ++ ":100000", "kr/orderbook:" ++ hex 'a',
        "kr/quote:" ++ hex 'b'] }
  { draft with spreadBps := draft.expectedSpread }

def thesis (low : ℕ) : KrAutonomousTradeThesis where
  thesisId := hex '0'
  taskId := hex '1'
  symbol := "005930"
  theme := "memory"
  hypothesis := "The response continues."
  counterevidence := ["The response may fade."]
  setupKind := .momentumReclaim
  socialSignalId := hex '0'
  marketCorroborationId := hex '0'
  evidenceRefs := hex '4' :: (market low).evidenceIds
  submittedAt := clock 10 1 2

/-- A request whose last bar has a low. -/
def requestWith (low : ℕ) : KrAutonomousTradeRequest where
  thesis := thesis low
  socialSignal := signal
  market := market low
  evaluatedAt := clock 10 1 3
  nextWakeAt := clock 10 2 3
  openExposures := []

theorem valid_flat : validateRequest digest (requestWith 5000) = true := by
  decide +kernel

/-- Only the validation of the bar depends on its low. -/
theorem valid {low : ℕ} (hbar : validateBar (bar low) = true) :
    validateRequest digest (requestWith low) = true := by
  have h := valid_flat
  simp only [validateRequest, validateCorroboration, Bool.decide_and, Bool.and_eq_true,
    decide_eq_true_eq] at h ⊢
  obtain ⟨hthesis, hsignal, ⟨⟨-, hsnapshot⟩, hmarket⟩, hrequest⟩ := h
  exact ⟨hthesis, hsignal, ⟨⟨hbar, hsnapshot⟩, hmarket⟩, hrequest⟩

theorem revalidated {low : ℕ} (hbar : validateBar (bar low) = true) :
    revalidateKrAutonomousTradeRequest digest (requestWith low) = some (requestWith low) :=
  if_pos (valid hbar)

/-- A stop one step below the entry: both targets would be at 5010. -/
theorem narrow_stop_raises :
    revalidateKrAutonomousTradeRequest digest (requestWith 4995) = some (requestWith 4995) ∧
      planKrAutonomousTrade digest String.toLower (requestWith 4995) = .error .validation := by
  have h := @revalidated 4995 (by decide +kernel)
  refine ⟨h, ?_⟩
  rw [plan_eq h (by decide +kernel), show proposeKrAutonomousTrade digest (requestWith 4995) =
    .error .validation by decide +kernel]
  rfl

/-- A stop ten steps below the entry. -/
theorem wide_stop_fits : LevelsFit (requestWith 4950) := by
  refine ⟨by decide +kernel, fun entry stop h => ?_⟩
  obtain ⟨rfl, rfl⟩ := Reaches.unique
    (⟨by decide +kernel, by decide +kernel, by decide, by decide +kernel, by decide +kernel⟩ :
      Reaches (requestWith 4950) 5000 4950) h
  exact ⟨5050, ⟨by decide, by decide +kernel⟩, by decide, by decide⟩

theorem wide_stop_is_planned : ∃ event,
    planKrAutonomousTrade digest String.toLower (requestWith 4950) = .ok event ∧
      MeetsEvent .unverifiedSocial event :=
  (plan_meets_iff (revalidated (by decide +kernel))).2 fun _ => wide_stop_fits

end PlanSample

end TradingAgent.Kr
