import NamedArguments.Proofs.WholeNumbers

/-! Doubles in order. Sums are rounded, but rounding does not cross a double:
adding nothing negative to one leaves it above whatever integer it was above. -/
namespace NamedArguments.Binary64

/-- Whether a number lies strictly below another; not-a-number lies nowhere. -/
def isBelow (x y : Binary64) : Bool :=
  match x.place?, y.place? with
  | some p, some q => p.isBelow q
  | _, _ => false

theorem signed_false (units : Nat) : signed false units = units := rfl

theorem signed_true (units : Nat) : signed true units = -(units : Int) := rfl

/-- A number that some 64-bit word encodes. -/
def Encoded (x : Binary64) : Prop := ∃ word, x = ofBits word

/-- A number that zero is not above. -/
inductive Nonnegative : Binary64 → Prop where
  | infinite : Nonnegative (infinite false)
  | finite {negative : Bool} {units : Nat} (value : 0 ≤ signed negative units) :
      Nonnegative (finite negative units)

/-- What a word encodes has at most fifty-three bits. -/
theorem spacing_dvd_of_encoded {negative : Bool} {units : Nat}
    (encoded : (finite negative units).Encoded) : spacing units ∣ units := by
  obtain ⟨word, same⟩ := encoded
  have fraction : word % Nat.pow 2 52 < Nat.pow 2 52 := Nat.mod_lt _ (by decide)
  have twice : Nat.pow 2 52 + Nat.pow 2 52 = exactBound := rfl
  unfold ofBits at same
  simp only at same
  split at same
  · split at same <;> cases same
  · split at same
    · cases same
      have subnormal := spacing_dvd_mul_power (k := word % Nat.pow 2 52) (by omega) 0
      rwa [show Nat.pow 2 0 = 1 from rfl, Nat.mul_one] at subnormal
    · cases same
      exact spacing_dvd_mul_power (by omega) _

theorem place?_ofNat {n : Nat} (small : n < exactBound) :
    (ofNat n).place? = some (.units ((n : Int) * one)) := isAt_ofNat small

theorem place?_zero : (ofNat 0).place? = some (.units 0) := by
  rw [place?_ofNat (by decide)]
  exact congrArg (fun units => some (Place.units units)) (Int.zero_mul one)

/-- Being above a natural number is having it below. -/
theorem exceeds_eq_isBelow {n : Nat} (small : n < exactBound) (x : Binary64) :
    x.exceeds n = (ofNat n).isBelow x := by
  rw [isBelow, place?_ofNat small]
  cases x with
  | nan => rfl
  | infinite negative => cases negative <;> rfl
  | finite negative units =>
    simp only [exceeds, place?, Place.isBelow, signed, ← Int.natCast_mul]
    cases negative with
    | false => simp only [Bool.not_false, Bool.true_and, Bool.false_eq_true, ↓reduceIte, Int.ofNat_lt]
    | true =>
      simp only [Bool.not_true, Bool.false_and, ↓reduceIte]
      exact (decide_eq_false (by omega)).symm

theorem nonnegative_of_not_isBelow_zero {x : Binary64} (number : x ≠ .nan)
    (atLeast : x.isBelow (ofNat 0) = false) : x.Nonnegative := by
  rw [isBelow, place?_zero] at atLeast
  cases x with
  | nan => exact absurd rfl number
  | infinite negative =>
    cases negative with
    | false => exact .infinite
    | true => cases atLeast
  | finite negative units =>
    simp only [place?, Place.isBelow, decide_eq_false_iff_not, Int.not_lt] at atLeast
    exact .finite atLeast

theorem not_isBelow_zero_of_exceeds {x : Binary64} {n : Nat} (above : x.exceeds n = true) :
    x.isBelow (ofNat 0) = false := by
  rw [isBelow, place?_zero]
  cases x with
  | nan => rfl
  | infinite negative =>
    cases negative with
    | false => rfl
    | true => cases above
  | finite negative units =>
    cases negative with
    | false => exact decide_eq_false (Int.not_lt.mpr (Int.natCast_nonneg units))
    | true => cases above

theorem nonnegative_ofUnits (units : Nat) : (ofUnits false units).Nonnegative := by
  rw [ofUnits, ofRatio, bounded]
  split
  · exact .finite (Int.natCast_nonneg _)
  · exact .infinite

/-- A sum is not below zero if it is not before it is rounded. -/
theorem nonnegative_add {a b : Bool} {m n : Nat} (sum : 0 ≤ signed a m + signed b n) :
    (finite a m + finite b n).Nonnegative := by
  show (add (finite a m) (finite b n)).Nonnegative
  simp only [add]
  split
  · refine .finite ?_
    cases (a && b) <;> exact Int.le_refl 0
  · rw [decide_eq_false (Int.not_lt.mpr sum)]
    exact nonnegative_ofUnits _

/-- A rounded number is above each integer that a lesser double is above. -/
theorem exceeds_ofUnits {least units n : Nat} (fits : spacing least ∣ least) (above : n * one < least)
    (atLeast : least ≤ units) : (ofUnits false units).exceeds n = true := by
  have rounded : n * one < roundRatio units 1 := Nat.lt_of_lt_of_le above (le_roundRatio fits atLeast)
  rw [ofUnits, ofRatio, bounded]
  split
  · simp only [exceeds, Bool.not_false, Bool.true_and]
    exact decide_eq_true rounded
  · rfl

/-- Adding nothing negative leaves a double above an integer. -/
theorem exceeds_add {x y : Binary64} {n : Nat} (encoded : x.Encoded) (nonnegative : y.Nonnegative)
    (above : x.exceeds n = true) : (x + y).exceeds n = true := by
  cases x with
  | nan => cases above
  | infinite negative =>
    cases negative with
    | false => cases nonnegative <;> rfl
    | true => cases above
  | finite negative units =>
    cases negative with
    | true => cases above
    | false =>
      simp only [exceeds, Bool.not_false, Bool.true_and, decide_eq_true_eq] at above
      cases nonnegative with
      | infinite => rfl
      | @finite other more value =>
        have positive : 0 < units := Nat.lt_of_le_of_lt (Nat.zero_le _) above
        have sum : finite false units + finite other more =
            ofUnits false ((units : Int) + signed other more).natAbs := by
          have first : signed false units = units := rfl
          have nonzero : ¬ (units : Int) + signed other more = 0 := by omega
          have sign : ¬ (units : Int) + signed other more < 0 := by omega
          show add (finite false units) (finite other more) = _
          simp only [add, first, nonzero, ↓reduceIte, decide_eq_false sign]
        rw [sum]
        exact exceeds_ofUnits (spacing_dvd_of_encoded encoded) above (by omega)

end NamedArguments.Binary64
