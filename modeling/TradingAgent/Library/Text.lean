import TradingAgent.Library.Decimal
import TradingAgent.Library.Time

/-!
# Texts and digests

* The tests that records make on their texts: `isHex64`, `isStripped`, `isUpper`, and those of
  the names of instruments, `isSymbol` and `isInstrument`.
* The JSON text of a tuple (`List JsonAtom`): two tuples have the same text exactly if they have
  the same atoms, so the tuple stands for its text. A time is written by `isoformat`, a decimal
  by `str`.
* A digest (`Sha256`) maps such texts to 64 hexadecimal digits. That is all that is assumed of
  it here: as there are more texts than digests, it is not injective, and results that depend on
  two texts having different digests say which ones (`Sha256.Separates`).
-/

/-- Whether a text is 64 lowercase hexadecimal digits. -/
def isHex64 (s : String) : Bool :=
  s.toList.length = 64 ∧ s.toList.all fun c => c.isDigit || ('a' ≤ c && c ≤ 'f')

/-- Whether a text neither starts nor ends with a blank: the test `s.strip() == s`. -/
def isStripped (s : String) : Bool :=
  !(s.toList.head?.any Char.isWhitespace) && !(s.toList.getLast?.any Char.isWhitespace)

/-- Whether a text has no lowercase letter: the test `s == s.upper()`. -/
def isUpper (s : String) : Bool := s.toList.all fun c => c.toUpper = c

/-- The pattern `[A-Z][A-Z0-9.-]{0,14}`. -/
def isSymbol (s : String) : Bool :=
  match s.toList with
  | [] => false
  | c :: cs => c.isUpper ∧ cs.length ≤ 14 ∧
      cs.all fun c => c.isUpper || c.isDigit || c = '.' || c = '-'

/-- The pattern `[a-z0-9][a-z0-9_.:-]{0,127}`. -/
def isInstrument (s : String) : Bool :=
  match s.toList with
  | [] => false
  | c :: cs => (c.isLower || c.isDigit) ∧ cs.length ≤ 127 ∧
      cs.all fun c => c.isLower || c.isDigit || c = '_' || c = '.' || c = ':' || c = '-'

/-- An element of a tuple written as JSON. -/
inductive JsonAtom
  | null
  | bool (b : Bool)
  | int (n : ℤ)
  | str (s : String)
  | time (t : DateTime)
  | decimal (d : Decimal)
  deriving DecidableEq, Repr

namespace JsonAtom

def ofOption {α : Type*} (f : α → JsonAtom) : Option α → JsonAtom
  | none => null
  | some a => f a

theorem ofOption_injective {α : Type*} {f : α → JsonAtom} (hf : ∀ a b, f a = f b → a = b)
    (hnull : ∀ a, f a ≠ null) {a b : Option α} (h : ofOption f a = ofOption f b) : a = b := by
  cases a <;> cases b <;> simp only [ofOption] at h
  · rfl
  · exact absurd h.symm (hnull _)
  · exact absurd h (hnull _)
  · rw [hf _ _ h]

end JsonAtom

/-- A digest of JSON texts, as 64 hexadecimal digits. -/
structure Sha256 where
  hexdigest : List JsonAtom → String
  isHex64_hexdigest : ∀ material, isHex64 (hexdigest material) = true

/-- No two different texts of a set have the same digest. -/
def Sha256.Separates (sha : Sha256) (materials : Set (List JsonAtom)) : Prop :=
  Set.InjOn sha.hexdigest materials
