import TradingAgent.Kr.Planner

/-!
# The levels of a proposal

A proposal enters at the ask rounded up to the price grid, with a stop at the low of the last bar
rounded down, and its targets are one and two risks above the entry, rounded up. There are such
levels unless the low is less than one, and they are in order unless the grid has no price between
the two targets (`LevelsFit`); then the proposal is not valid, and the planner raises.
`plan_meets_iff` says that these are the only requests for which it does.
-/

namespace TradingAgent.Kr

/-! ## Quantities -/

/-- A quotient below one is well below one. -/
theorem floor_round_div_nonpos {a b : ℚ} (ha : 0 < a) (ha' : a ≤ 10 ^ 7 - 1) (hb : 10 ^ 7 ≤ b) :
    ⌊Decimal.digits28.round (a / b)⌋ ≤ 0 := by
  have hbpos : 0 < b := lt_of_lt_of_le (by norm_num) hb
  have hbelow : a / b ≤ ((10 ^ 7 - 1 : ℤ) : ℚ) * 10 ^ (-7 : ℤ) := by
    rw [div_le_iff₀ hbpos]
    norm_num
    linarith
  have hround := Decimal.digits28.round_mono (div_pos ha hbpos) hbelow
  rw [Decimal.digits28_round_mul_zpow (-7) (by norm_num) (by norm_num)] at hround
  refine Int.floor_le_iff.2 (hround.trans_lt ?_)
  norm_num

section Quotient

variable {a b : ℤ} (ha : 0 < a) (ha' : a < 10 ^ 7) (hb : 0 < b)
include ha ha' hb

/-- As many shares as the rounded quotient says are within the budget: a quotient that is not a
    whole number is further below the next one than rounding takes it. -/
theorem floor_round_div_mul_le : ⌊Decimal.digits28.round ((a : ℚ) / b)⌋ * b ≤ a := by
  have hacast : (0 : ℚ) < a := by exact_mod_cast ha
  have hbcast : (0 : ℚ) < b := by exact_mod_cast hb
  have hale : (a : ℚ) ≤ 10 ^ 7 - 1 := by
    have hle : a ≤ 10 ^ 7 - 1 := by omega
    exact_mod_cast hle
  rcases le_or_gt (10 ^ 7) b with hlarge | hsmall
  · have hzero := floor_round_div_nonpos hacast hale (b := b) (by exact_mod_cast hlarge)
    exact le_trans (mul_nonpos_of_nonpos_of_nonneg hzero hb.le) ha.le
  set q := ⌊Decimal.digits28.round ((a : ℚ) / b)⌋ with hq
  by_contra hover
  have hover : a + 1 ≤ q * b := by omega
  have hqpos : 0 < q := by
    by_contra hnot
    have := mul_nonpos_of_nonpos_of_nonneg (not_lt.1 hnot) hb.le
    omega
  -- The quotient is at most `q - 1 / b`, which has few enough digits up to `10 ^ (-7)`.
  have hbelow : (a : ℚ) / b ≤ ((q * 10 ^ 7 - 1 : ℤ) : ℚ) * 10 ^ (-7 : ℤ) := by
    have hover' : (a : ℚ) + 1 ≤ q * b := by exact_mod_cast hover
    have hsmall' : (b : ℚ) ≤ 10 ^ 7 := by exact_mod_cast hsmall.le
    rw [div_le_iff₀ hbcast]
    push_cast
    norm_num at hsmall' ⊢
    linarith
  have hqsmall : q ≤ 10 ^ 7 := by
    have hone : (1 : ℚ) ≤ b := by exact_mod_cast hb
    have hle : (a : ℚ) / b ≤ ((10 ^ 7 : ℤ) : ℚ) := by
      push_cast
      exact (div_le_self hacast.le hone).trans (by linarith)
    have hround := Decimal.digits28.round_mono (div_pos hacast hbcast) hle
    rw [Decimal.digits28_round_intCast (by norm_num) (by norm_num)] at hround
    exact Int.cast_le.1 ((Int.floor_le _).trans hround)
  have hround := Decimal.digits28.round_mono (div_pos hacast hbcast) hbelow
  rw [Decimal.digits28_round_mul_zpow (-7) (by omega) (by omega)] at hround
  have hfloor : (q : ℚ) ≤ _ := (Int.floor_le _).trans hround
  push_cast at hfloor
  norm_num at hfloor
  linarith

theorem one_le_floor_round_div_iff : 1 ≤ ⌊Decimal.digits28.round ((a : ℚ) / b)⌋ ↔ b ≤ a := by
  constructor
  · intro hone
    calc b ≤ ⌊Decimal.digits28.round ((a : ℚ) / b)⌋ * b := le_mul_of_one_le_left hb.le hone
      _ ≤ a := floor_round_div_mul_le ha ha' hb
  · intro hle
    have hbcast : (0 : ℚ) < b := by exact_mod_cast hb
    have hquotient : ((1 : ℤ) : ℚ) ≤ a / b := by
      rw [Int.cast_one, one_le_div₀ hbcast]
      exact_mod_cast hle
    have hround := Decimal.digits28.round_mono (by norm_num) hquotient
    rw [Decimal.digits28_round_intCast one_pos (by norm_num)] at hround
    exact Int.le_floor.2 hround

end Quotient

/-- The budgets are whole amounts. -/
theorem exists_budgets (state : KrSocialVerificationState) :
    ∃ risk notional : ℤ, state.riskBudget = .finite risk ∧
      state.maximumNotional = .finite notional ∧ 0 < risk ∧ risk < 10 ^ 7 ∧ 0 < notional ∧
      notional ≤ 10 ^ 6 := by
  cases state
  · exact ⟨5000, 300000, rfl, rfl, by norm_num, by norm_num, by norm_num, by norm_num⟩
  · exact ⟨25000, 1000000, rfl, rfl, by norm_num, by norm_num, by norm_num, by norm_num⟩

theorem floor_min_toRat (x y : ℚ) :
    ⌊(Decimal.min (.finite x) (.finite y)).toRat⌋ = Min.min ⌊x⌋ ⌊y⌋ := by
  rw [Decimal.min_finite, Decimal.toRat_finite]
  exact Int.floor_mono.map_min

section Quantity

variable {state : KrSocialVerificationState} {risk notional : ℤ}
  (hrisk : state.riskBudget = .finite risk) (hnotional : state.maximumNotional = .finite notional)
include hrisk hnotional

theorem quantityFor_eq (entry r : ℚ) (hriskpos : 0 < risk) (hnotionalpos : 0 < notional)
    (hr : 0 < r) (hentry : 0 < entry) : quantityFor state (.finite entry) (.finite r) =
      Min.min ⌊Decimal.digits28.round (risk / r)⌋ ⌊Decimal.digits28.round (notional / entry)⌋ := by
  rw [quantityFor, hrisk, hnotional, Decimal.finite_div_finite hr.ne',
    Decimal.finite_div_finite hentry.ne',
    Decimal.rounded_of_pos (div_pos (by exact_mod_cast hriskpos) hr),
    Decimal.rounded_of_pos (div_pos (by exact_mod_cast hnotionalpos) hentry), floor_min_toRat]

end Quantity

/-! ## Targets -/

theorem rounded_intCast {n : ℤ} (hpos : 0 < n) (hlt : n < 10 ^ 28) :
    (Decimal.finite n).rounded = .finite n := by
  rw [Decimal.rounded_of_pos (by exact_mod_cast hpos), Decimal.digits28_round_intCast hpos hlt]

/-- The targets are prices of the grid above the entry, and the same one exactly if the grid has
    none from one risk above the entry on that is less than two above it. -/
theorem exists_targets {entry r : ℤ} (hentry : 0 < entry) (hr : 0 < r) (hentry' : entry < 10 ^ 10)
    (hr' : r < 10 ^ 10) :
    ∃ first second : ℤ,
      roundKrEquityPriceUp (.finite entry + .finite r : Decimal).rounded = some (.finite first) ∧
      roundKrEquityPriceUp (.finite entry + (.finite r * 2 : Decimal).rounded).rounded =
        some (.finite second) ∧
      (OnGrid first ∧ first < 10 ^ 28) ∧ (OnGrid second ∧ second < 10 ^ 28) ∧ entry < first ∧
      (first < second ↔ ∃ p, OnGrid p ∧ entry + r ≤ p ∧ p < entry + r * 2) := by
  obtain ⟨first, hfirst, hle, hgrid, hlt, hleast⟩ :=
    roundKrEquityPriceUp_spec (n := entry + r) (by omega) (by omega)
  obtain ⟨second, hsecond, hle', hgrid', hlt', hleast'⟩ :=
    roundKrEquityPriceUp_spec (n := entry + r * 2) (by omega) (by omega)
  have htwo : (Decimal.finite r * 2).rounded = .finite (r * 2 : ℤ) := by
    rw [Decimal.ofNat_eq, Decimal.finite_mul_finite, ← rounded_intCast (by omega) (by omega)]
    push_cast
    rfl
  refine ⟨first, second, ?_, ?_, ⟨hgrid, by omega⟩, ⟨hgrid', by omega⟩, by omega, ?_⟩
  · rw [Decimal.finite_add_finite, ← Int.cast_add, rounded_intCast (by omega) (by omega), hfirst]
  · rw [htwo, Decimal.finite_add_finite, ← Int.cast_add, rounded_intCast (by omega) (by omega),
      hsecond]
  · constructor
    · intro hbetween
      refine ⟨first, hgrid, hle, ?_⟩
      by_contra hnot
      have := hleast' first hgrid (by omega)
      omega
    · rintro ⟨p, hp, hlow, hhigh⟩
      have := hleast p hp hlow
      omega

/-! ## Proposals -/

section Proposal

variable {sha : Sha256} {request : KrAutonomousTradeRequest} {ask low : ℚ} {entry stop : ℤ}

/-- The prices that the levels are made of, which are positive. -/
structure Prices (request : KrAutonomousTradeRequest) (ask low : ℚ) : Prop where
  ask_eq : request.market.marketSnapshot.askPrice = some (.finite ask)
  ask_pos : 0 < ask
  low_eq : request.market.latestCompletedBar.low = .finite low
  low_pos : 0 < low

/-- The entry and the stop of a request, if the stop is below the entry and the budgets allow a
    share. -/
structure Reaches (request : KrAutonomousTradeRequest) (entry stop : ℤ) : Prop where
  ask : request.market.marketSnapshot.askPrice.bind roundKrEquityPriceUp = some (.finite entry)
  low : roundKrEquityPriceDown request.market.latestCompletedBar.low = some (.finite stop)
  stop_lt : stop < entry
  risk : Decimal.finite (entry - stop : ℤ) ≤ request.socialSignal.verificationState.riskBudget
  notional : Decimal.finite entry ≤ request.socialSignal.verificationState.maximumNotional

/-- There are levels for a request, and they are in order. -/
structure LevelsFit (request : KrAutonomousTradeRequest) : Prop where
  /-- The low is a price of the grid or above one, once it is rounded to 28 digits. -/
  one_le_low : 1 ≤ Decimal.digits28.round request.market.latestCompletedBar.low.toRat
  /-- There is a price of the grid for the first target that is below the second one. -/
  targets_apart : ∀ entry stop, Reaches request entry stop →
    ∃ p, OnGrid p ∧ entry + (entry - stop) ≤ p ∧ p < entry + (entry - stop) * 2

/-- The proposal of a request with some levels. -/
def proposalAt (sha : Sha256) (request : KrAutonomousTradeRequest) (entry stop : Decimal)
    (targets : Decimal × Decimal) (quantity : ℤ) : KrAutonomousTradeProposal :=
  let draft : KrAutonomousTradeProposal :=
    { proposalId := ""
      timestamp := request.evaluatedAt
      entry, stop, targets, quantity
      rationale := request.thesis.hypothesis
      counterevidence := request.thesis.counterevidence
      verificationState := request.socialSignal.verificationState
      validUntil := request.market.validUntil }
  { draft with proposalId := sha.hexdigest draft.material }

/-- The price that the ask is rounded up to. -/
theorem exists_roundUp (hask : 0 < ask) :
    ∃ x : ℚ, roundKrEquityPriceUp (.finite ask) = some (.finite x) ∧ 0 < x ∧
      (x < 10 ^ 7 → ∃ n : ℤ, x = n ∧ OnGrid n) := by
  rcases lt_or_ge ask (10 ^ 24) with hlt | hlarge
  · obtain ⟨n, hn, hgrid, -⟩ := roundKrEquityPriceUp_onGrid hask hlt
    exact ⟨n, hn, by exact_mod_cast hgrid.1, fun _ => ⟨n, rfl, hgrid⟩⟩
  · obtain ⟨x, hx, hxlarge⟩ := roundKrEquityPriceUp_large hlarge
    refine ⟨x, hx, lt_of_lt_of_le (by norm_num) hxlarge, fun hsmall => ?_⟩
    exact absurd (hxlarge.trans hsmall.le) (by norm_num)

/-- The price that the low is rounded down to. -/
theorem exists_roundDown (hlow : 0 < low) (hone : 1 ≤ Decimal.digits28.round low) :
    ∃ y : ℚ, roundKrEquityPriceDown (.finite low) = some (.finite y) ∧ 0 < y ∧
      (y < 10 ^ 7 → ∃ n : ℤ, y = n ∧ OnGrid n) := by
  rcases lt_or_ge low (10 ^ 24) with hlt | hlarge
  · obtain ⟨n, hn, hgrid, -⟩ := roundKrEquityPriceDown_onGrid hlow hlt hone
    exact ⟨n, hn, by exact_mod_cast hgrid.1, fun _ => ⟨n, rfl, hgrid⟩⟩
  · obtain ⟨y, hy, hylarge⟩ := roundKrEquityPriceDown_large hlarge
    refine ⟨y, hy, lt_of_lt_of_le (by norm_num) hylarge, fun hsmall => ?_⟩
    exact absurd (hylarge.trans hsmall.le) (by norm_num)

/-- What a request is proposed, once the entry and the stop are known. -/
theorem propose_eq {x y : ℚ} (hprices : Prices request ask low)
    (hx : roundKrEquityPriceUp (.finite ask) = some (.finite x))
    (hy : roundKrEquityPriceDown (.finite low) = some (.finite y)) :
    proposeKrAutonomousTrade sha request =
      if x ≤ y then .ok (.inr .invalidStop) else
        let riskPerShare := (Decimal.finite x - .finite y).rounded
        let quantity := quantityFor request.socialSignal.verificationState (.finite x) riskPerShare
        if quantity ≤ 0 then .ok (.inr .zeroQuantity) else do
          let first ← orInvalidPrice (roundKrEquityPriceUp (.finite x + riskPerShare).rounded)
          let second ← orInvalidPrice
            (roundKrEquityPriceUp (.finite x + (riskPerShare * 2).rounded).rounded)
          let proposal ← modelValidate (validateProposal sha)
            (proposalAt sha request (.finite x) (.finite y) (first, second) quantity)
          return .inl proposal := by
  have hfinite : ¬ (¬ (Decimal.finite ask).isFinite = true ∨ Decimal.finite ask ≤ 0) := by
    simpa using hprices.ask_pos
  rw [proposeKrAutonomousTrade, hprices.ask_eq]
  simp only [hfinite, if_false, hx, hprices.low_eq, hy, orInvalidPrice, Option.elim]
  rfl

theorem propose_eq_error (hprices : Prices request ask low)
    (hlow : Decimal.digits28.round low < 1) :
    proposeKrAutonomousTrade sha request = .error .invalidKrEquityPrice := by
  obtain ⟨x, hx, -⟩ := exists_roundUp hprices.ask_pos
  have hfinite : ¬ (¬ (Decimal.finite ask).isFinite = true ∨ Decimal.finite ask ≤ 0) := by
    simpa using hprices.ask_pos
  rw [proposeKrAutonomousTrade, hprices.ask_eq]
  simp only [hfinite, if_false, hx, hprices.low_eq,
    roundKrEquityPriceDown_eq_none hprices.low_pos hlow, orInvalidPrice, Option.elim]
  rfl

variable (sha) in
/-- Without levels that the budgets allow a share of, there is a reason for no trade. -/
theorem propose_of_not_reaches (hprices : Prices request ask low)
    (hlow : 1 ≤ Decimal.digits28.round low) (h : ∀ entry stop, ¬ Reaches request entry stop) :
    ∃ failure, proposeKrAutonomousTrade sha request = .ok (.inr failure) := by
  obtain ⟨x, hx, hxpos, hxgrid⟩ := exists_roundUp hprices.ask_pos
  obtain ⟨y, hy, hypos, hygrid⟩ := exists_roundDown hprices.low_pos hlow
  rw [propose_eq hprices hx hy]
  split_ifs with hle
  · exact ⟨_, rfl⟩
  dsimp only
  obtain ⟨risk, notional, hrisk, hnotional, hriskpos, hrisklt, hnotionalpos, hnotionalle⟩ :=
    exists_budgets request.socialSignal.verificationState
  have hr : 0 < x - y := sub_pos.2 (not_le.1 hle)
  have hzero : quantityFor request.socialSignal.verificationState (.finite x)
      (Decimal.finite x - .finite y).rounded ≤ 0 := by
    rw [Decimal.finite_sub_finite, Decimal.rounded_of_pos hr,
      quantityFor_eq hrisk hnotional _ _ hriskpos hnotionalpos (digits28_round_pos hr) hxpos,
      min_le_iff]
    rcases lt_or_ge x (10 ^ 7) with hsmall | hlarge
    · obtain ⟨n, rfl, hn⟩ := hxgrid hsmall
      obtain ⟨m, rfl, hm⟩ := hygrid ((not_le.1 hle).trans hsmall)
      have hrpos : 0 < n - m := by exact_mod_cast hr
      have hnsmall : n < 10 ^ 7 := by exact_mod_cast hsmall
      by_contra hboth
      rw [← Int.cast_sub, Decimal.digits28_round_intCast hrpos (by have := hm.1; omega),
        not_or, not_le, not_le] at hboth
      refine h n m ⟨?_, hprices.low_eq ▸ hy, by omega, ?_, ?_⟩
      · rw [hprices.ask_eq, Option.bind_some, hx]
      · rw [hrisk, Decimal.finite_le_finite]
        exact_mod_cast (one_le_floor_round_div_iff hriskpos hrisklt hrpos).1 hboth.1
      · rw [hnotional, Decimal.finite_le_finite]
        exact_mod_cast (one_le_floor_round_div_iff hnotionalpos (by omega) hn.1).1 hboth.2
    · -- No budget allows a share at such a price.
      right
      refine floor_round_div_nonpos (by exact_mod_cast hnotionalpos) ?_ hlarge
      have hcast : (notional : ℚ) ≤ 10 ^ 6 := by exact_mod_cast hnotionalle
      linarith
  rw [if_pos hzero]
  exact ⟨_, rfl⟩

variable (sha) in
/-- With them, there is a proposal that keeps to the budgets, if it is valid. -/
theorem propose_of_reaches (hprices : Prices request ask low)
    (hlow : 1 ≤ Decimal.digits28.round low) (h : Reaches request entry stop) :
    ∃ first second quantity : ℤ, (∀ n ∈ [entry, stop, first, second], OnGrid n ∧ n < 10 ^ 28) ∧
      entry < first ∧ (first < second ↔
        ∃ p, OnGrid p ∧ entry + (entry - stop) ≤ p ∧ p < entry + (entry - stop) * 2) ∧
      1 ≤ quantity ∧
      Decimal.finite (quantity * (entry - stop) : ℤ) ≤
        request.socialSignal.verificationState.riskBudget ∧
      Decimal.finite (quantity * entry : ℤ) ≤
        request.socialSignal.verificationState.maximumNotional ∧
      proposeKrAutonomousTrade sha request = (modelValidate (validateProposal sha)
        (proposalAt sha request (.finite entry) (.finite stop) (.finite first, .finite second)
          quantity)).map .inl := by
  obtain ⟨hask, hstop, hlt, hrisk', hnotional'⟩ := h
  rw [hprices.ask_eq, Option.bind_some] at hask
  rw [hprices.low_eq] at hstop
  obtain ⟨risk, notional, hrisk, hnotional, hriskpos, hrisklt, hnotionalpos, hnotionalle⟩ :=
    exists_budgets request.socialSignal.verificationState
  rw [hrisk, Decimal.finite_le_finite, Int.cast_le] at hrisk'
  rw [hnotional, Decimal.finite_le_finite, Int.cast_le] at hnotional'
  have hsmall : (entry : ℚ) < 10 ^ 7 := by
    have hlt' : entry < 10 ^ 7 := by omega
    exact_mod_cast hlt'
  have hentry : OnGrid entry := by
    obtain ⟨x, hx, -, hxgrid⟩ := exists_roundUp hprices.ask_pos
    obtain rfl : x = entry := Decimal.finite.inj (Option.some.inj (hx.symm.trans hask))
    obtain ⟨n, hn, hgrid⟩ := hxgrid hsmall
    rwa [Int.cast_injective hn]
  have hstopgrid : OnGrid stop := by
    obtain ⟨y, hy, -, hygrid⟩ := exists_roundDown hprices.low_pos hlow
    obtain rfl : y = stop := Decimal.finite.inj (Option.some.inj (hy.symm.trans hstop))
    obtain ⟨n, hn, hgrid⟩ := hygrid ((Int.cast_lt.2 hlt).trans hsmall)
    rwa [Int.cast_injective hn]
  have hr : 0 < entry - stop := by omega
  have hstoppos := hstopgrid.1
  obtain ⟨first, second, hfirst, hsecond, hfirstgrid, hsecondgrid, hentryfirst, hiff⟩ :=
    exists_targets hentry.1 hr (by omega) (by omega)
  have hrounded : (Decimal.finite entry - .finite stop).rounded = .finite (entry - stop : ℤ) := by
    rw [Decimal.finite_sub_finite, ← Int.cast_sub, rounded_intCast hr (by omega)]
  have hquantity := quantityFor_eq hrisk hnotional entry (entry - stop : ℤ) hriskpos hnotionalpos
    (by exact_mod_cast hr) (by exact_mod_cast hentry.1)
  set quantity := quantityFor request.socialSignal.verificationState (.finite entry)
    (.finite (entry - stop : ℤ)) with hquantitydef
  have hone : 1 ≤ quantity := by
    rw [hquantity, le_min_iff]
    exact ⟨(one_le_floor_round_div_iff hriskpos hrisklt hr).2 hrisk',
      (one_le_floor_round_div_iff hnotionalpos (by omega) hentry.1).2 hnotional'⟩
  refine ⟨first, second, quantity, ?_, hentryfirst, hiff, hone, ?_, ?_, ?_⟩
  · simp only [List.forall_mem_cons, List.not_mem_nil, false_implies, implies_true, and_true]
    exact ⟨⟨hentry, by omega⟩, ⟨hstopgrid, by omega⟩, hfirstgrid, hsecondgrid⟩
  · rw [hrisk, Decimal.finite_le_finite, Int.cast_le]
    calc quantity * (entry - stop)
        ≤ ⌊Decimal.digits28.round ((risk : ℚ) / (entry - stop : ℤ))⌋ * (entry - stop) :=
          mul_le_mul_of_nonneg_right (hquantity ▸ min_le_left _ _) hr.le
      _ ≤ risk := floor_round_div_mul_le hriskpos hrisklt hr
  · rw [hnotional, Decimal.finite_le_finite, Int.cast_le]
    calc quantity * entry
        ≤ ⌊Decimal.digits28.round ((notional : ℚ) / entry)⌋ * entry :=
          mul_le_mul_of_nonneg_right (hquantity ▸ min_le_right _ _) hentry.1.le
      _ ≤ notional := floor_round_div_mul_le hnotionalpos (by omega) hentry.1
  · rw [propose_eq hprices hask hstop, if_neg (by exact_mod_cast hlt.not_ge), hrounded]
    dsimp only
    rw [← hquantitydef, if_neg (by omega), hfirst, hsecond]
    show (modelValidate (validateProposal sha) _ >>= fun proposal => .ok (Sum.inl proposal)) = _
    cases modelValidate (validateProposal sha) _ <;> rfl

end Proposal

end TradingAgent.Kr
