import TradingAgent.Library.Rounding

/-!
# Decimals as floats

What a decimal becomes when it is converted to a float, and the text of the float is read as a
decimal again (`Decimal.asFloat`): the double next to it, and of the shortest texts that are read
as this double the one next to it.

The conversion is monotone (`Decimal.asFloat_mono`): what is at most a float is at most this float
after the conversion.
-/

namespace Decimal

/-! ## The doubles -/

/-- The precision of doubles, whose last digit is not beyond that of the smallest one. -/
def double : Precision where
  base := 2
  one_lt_base := by decide
  exponent k := Max.max (k - 52) (-1074)
  mono _ _ h := max_le_max_right _ (Int.sub_le_sub_right h 52)
  le_of_lt _ _ _ := by omega

/-- The double next to a number that is not negative. -/
def nearestDouble (a : ℚ) : ℚ := double.round a

/-! ## The texts of doubles -/

/-- The decimals around a double with up to 17 digits, those of fewer digits first, and of two
    with equally many digits the nearer one. -/
def shortTexts (a : ℚ) : List ℚ :=
  (List.range 17).flatMap fun digits =>
    let unit : ℚ := 10 ^ (Int.log 10 a - digits)
    let down := ⌊a / unit⌋ * unit
    let up := ⌈a / unit⌉ * unit
    if a - down ≤ up - a then [down, up] else [up, down]

/-- The number that the text of a double stands for, which is read as the double again. -/
def textOfDouble (a : ℚ) : ℚ := ((shortTexts a).find? fun b => 0 < b ∧ nearestDouble b = a).getD a

theorem textOfDouble_spec {a : ℚ} (ha : 0 < a) (h : nearestDouble a = a) :
    0 < textOfDouble a ∧ nearestDouble (textOfDouble a) = a := by
  rw [textOfDouble]
  cases hfind : (shortTexts a).find? fun b => 0 < b ∧ nearestDouble b = a with
  | none => exact ⟨ha, h⟩
  | some b => simpa using List.find?_some hfind

theorem textOfDouble_zero : textOfDouble 0 = 0 := by
  have hfind : ((shortTexts 0).find? fun b => 0 < b ∧ nearestDouble b = 0) = none := by
    rw [List.find?_eq_none]
    intro b hb
    simp [shortTexts] at hb
    simp [hb]
  rw [textOfDouble, hfind]
  rfl

/-- A number that is not negative, converted to a double and read from its text. -/
def magnitudeAsFloat (a : ℚ) : ℚ := textOfDouble (nearestDouble a)

theorem magnitudeAsFloat_mono {a b : ℚ} (ha : 0 < a) (h : a ≤ b) :
    magnitudeAsFloat a ≤ magnitudeAsFloat b := by
  have hb : 0 < b := ha.trans_le h
  rcases (double.round_mono ha h).eq_or_lt with heq | hlt
  · rw [magnitudeAsFloat, magnitudeAsFloat, nearestDouble, nearestDouble, heq]
  obtain ⟨hposb, htextb⟩ := textOfDouble_spec ((double.round_nonneg ha.le).trans_lt hlt)
    (double.round_round hb)
  rcases (double.round_nonneg ha.le).eq_or_lt with hzero | hpos
  · rw [magnitudeAsFloat, nearestDouble, ← hzero, textOfDouble_zero]
    exact hposb.le
  obtain ⟨hposa, htexta⟩ := textOfDouble_spec hpos (double.round_round ha)
  -- Texts in the wrong order would be read as doubles in the wrong order.
  by_contra hwrong
  have hread : nearestDouble (textOfDouble (double.round b)) ≤
      nearestDouble (textOfDouble (double.round a)) :=
    double.round_mono hposb (Rat.not_le.1 hwrong).le
  rw [htexta, htextb] at hread
  exact Rat.not_le.2 hlt hread

/-! ## The conversion -/

/-- `Decimal(str(float(d)))`. -/
def asFloat : Decimal → Decimal
  | finite a =>
    if 2 ^ 1024 ≤ nearestDouble |a| then infinite (decide (a < 0))
    else if a < 0 then finite (-magnitudeAsFloat (-a))
    else finite (magnitudeAsFloat a)
  | d => d

theorem asFloat_of_pos {a : ℚ} (ha : 0 < a) :
    asFloat (finite a) =
      if 2 ^ 1024 ≤ nearestDouble a then infinite false else finite (magnitudeAsFloat a) := by
  have hneg : ¬ a < 0 := Rat.not_lt.2 ha.le
  simp [asFloat, abs_of_pos ha, hneg]

theorem asFloat_mono {a b : ℚ} (ha : 0 < a) (h : a ≤ b) :
    asFloat (finite a) ≤ asFloat (finite b) := by
  have hmono : nearestDouble a ≤ nearestDouble b := double.round_mono ha h
  rw [asFloat_of_pos ha, asFloat_of_pos (ha.trans_le h)]
  split_ifs with hlarge hlarge'
  · exact .inr rfl
  · exact absurd (hlarge.trans hmono) hlarge'
  · rfl
  · exact magnitudeAsFloat_mono ha h

/-- What is at most a float is at most this float after the conversion. -/
theorem exists_asFloat_eq {a b : ℚ} (ha : 0 < a) (h : a ≤ b)
    (hb : asFloat (finite b) = finite b) : ∃ c, asFloat (finite a) = finite c ∧ c ≤ b := by
  have hmono := asFloat_mono ha h
  rw [hb, asFloat_of_pos ha] at hmono
  rw [asFloat_of_pos ha]
  split_ifs at hmono ⊢ with hlarge
  · cases hmono
  · exact ⟨magnitudeAsFloat a, rfl, hmono⟩

end Decimal
