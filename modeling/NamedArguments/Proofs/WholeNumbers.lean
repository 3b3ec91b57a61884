import NamedArguments.Binary64

/-! Doubles that are integers. Below the fifty-third power of two every integer
is a double, and sums of integers that stay below it are exact. A greater sum may
be rounded, but not to less than that power, so comparing it with a lesser
integer still tells the truth. -/
namespace NamedArguments.Binary64

/-- A number is an integer; both zeros are zero. -/
def IsAt (x : Binary64) (n : Int) : Prop := x.place? = some (.units (n * one))

/-- Integers of lesser magnitude are doubles. -/
def exactBound : Nat := Nat.pow 2 53

/-- A number from the bound on, infinity included. -/
def Vast (x : Binary64) : Prop :=
  x = .infinite false ∨ ∃ units, x = .finite false units ∧ exactBound * one ≤ units

/-- A number that counts as an integer where it is compared with lesser ones: it
is that integer, or both reach the bound. -/
def CountsAs (x : Binary64) (n : Int) : Prop := x.IsAt n ∨ (x.Vast ∧ (exactBound : Int) ≤ n)

-- Powers go by variable exponents, since those of the numbers here are not to be
-- worked out.
private theorem one_power : ∃ e, e = 1074 ∧ one = Nat.pow 2 e := ⟨_, rfl, by unfold one; rfl⟩

private theorem overflow_power : ∃ e, e = 2098 ∧ overflow = Nat.pow 2 e :=
  ⟨_, rfl, by unfold overflow; rfl⟩

private theorem power_pos (e : Nat) : 0 < Nat.pow 2 e := Nat.pow_pos (by decide)

private theorem power_le {e f : Nat} (le : e ≤ f) : Nat.pow 2 e ≤ Nat.pow 2 f :=
  Nat.pow_le_pow_right (by decide) le

private theorem power_mul (e f : Nat) : Nat.pow 2 e * Nat.pow 2 f = Nat.pow 2 (e + f) :=
  (Nat.pow_add 2 e f).symm

/-- The bound in units. -/
private theorem bound_power : ∃ e, e = 1127 ∧ exactBound * one = Nat.pow 2 e := by
  obtain ⟨e, same, power⟩ := one_power
  exact ⟨53 + e, by omega, by rw [exactBound, power, power_mul]⟩

theorem one_pos : 0 < one := by
  obtain ⟨e, -, power⟩ := one_power
  rw [power]
  exact power_pos e

theorem exactBound_units_le_overflow : exactBound * one ≤ overflow := by
  obtain ⟨e, small, bound⟩ := bound_power
  obtain ⟨f, great, power⟩ := overflow_power
  rw [bound, power]
  exact power_le (by omega)

theorem isAt_iff (x : Binary64) (n : Int) :
    x.IsAt n ↔ ∃ negative units, x = .finite negative units ∧ signed negative units = n * one := by
  cases x with
  | nan =>
    constructor
    · intro at_n
      cases at_n
    · rintro ⟨_, _, same, _⟩
      cases same
  | infinite negative =>
    constructor
    · intro at_n
      cases negative <;> cases at_n
    · rintro ⟨_, _, same, _⟩
      cases same
  | finite negative units =>
    simp only [IsAt, place?, Option.some.injEq, Place.units.injEq, finite.injEq]
    constructor
    · intro same
      exact ⟨negative, units, ⟨rfl, rfl⟩, same⟩
    · rintro ⟨_, _, ⟨rfl, rfl⟩, same⟩
      exact same

theorem spacing_pos (units : Nat) : 0 < spacing units := by
  unfold spacing
  split
  · exact Nat.one_pos
  · exact power_pos _

/-- A multiple of its own spacing is not rounded. -/
theorem roundRatio_of_dvd {units : Nat} (fits : spacing units ∣ units) :
    roundRatio units 1 = units := by
  have rest : units % spacing units = 0 := Nat.mod_eq_zero_of_dvd fits
  have room : 2 * 0 < spacing units := spacing_pos units
  simp only [roundRatio, Nat.div_one, Nat.one_mul, rest, room, true_or, ↓reduceIte]
  exact Nat.div_mul_cancel fits

/-- A number of no more than fifty-three bits, moved up by any power of two, is a
multiple of its spacing. -/
theorem spacing_dvd_mul_power {k : Nat} (small : k < exactBound) (e : Nat) :
    spacing (k * Nat.pow 2 e) ∣ k * Nat.pow 2 e := by
  unfold spacing
  split
  · exact Nat.one_dvd _
  next large =>
    have nonzero : k * Nat.pow 2 e ≠ 0 := by
      intro zero
      rw [zero] at large
      exact large (power_pos 53)
    have below : k * Nat.pow 2 e < Nat.pow 2 (53 + e) := by
      rw [← power_mul]
      exact Nat.mul_lt_mul_of_pos_right small (power_pos e)
    have log : (k * Nat.pow 2 e).log2 < 53 + e := (Nat.log2_lt nonzero).mpr below
    have divides : Nat.pow 2 ((k * Nat.pow 2 e).log2 - 52) ∣ Nat.pow 2 e :=
      Nat.pow_dvd_pow 2 (by omega)
    exact Nat.dvd_trans divides (Nat.dvd_mul_left _ k)

/-- Integers below the bound are multiples of their spacing. -/
theorem spacing_dvd_of_lt {k : Nat} (small : k < exactBound) : spacing (k * one) ∣ k * one := by
  obtain ⟨e, -, power⟩ := one_power
  rw [power]
  exact spacing_dvd_mul_power small e

/-- Rounding does not fall below the multiple of the spacing that it starts above. -/
theorem floor_le_roundRatio (units : Nat) :
    units / spacing units * spacing units ≤ roundRatio units 1 := by
  simp only [roundRatio, Nat.div_one, Nat.one_mul]
  split
  · exact Nat.le_refl _
  · exact Nat.mul_le_mul_right _ (Nat.le_succ _)

/-- Rounding does not fall below the greatest power of two that it starts above. -/
theorem log2_le_roundRatio {units : Nat} (large : Nat.pow 2 53 ≤ units) :
    Nat.pow 2 units.log2 ≤ roundRatio units 1 := by
  have nonzero : units ≠ 0 := Nat.ne_of_gt (Nat.lt_of_lt_of_le (power_pos 53) large)
  have bits : 53 ≤ units.log2 := (Nat.le_log2 nonzero).mpr large
  have step : spacing units = Nat.pow 2 (units.log2 - 52) := if_neg (Nat.not_lt.mpr large)
  have whole : Nat.pow 2 52 * spacing units = Nat.pow 2 units.log2 := by
    rw [step, power_mul]
    congr 1
    omega
  have quotient : Nat.pow 2 52 ≤ units / spacing units := by
    rw [Nat.le_div_iff_mul_le (spacing_pos units), whole]
    exact Nat.log2_self_le nonzero
  refine Nat.le_trans ?_ (floor_le_roundRatio units)
  rw [← whole]
  exact Nat.mul_le_mul_right _ quotient

/-- Rounding does not fall below a double that it starts above. -/
theorem le_roundRatio {least units : Nat} (fits : spacing least ∣ least) (above : least ≤ units) :
    least ≤ roundRatio units 1 := by
  by_cases small : units < Nat.pow 2 53
  · have step : spacing units = 1 := if_pos small
    rw [roundRatio_of_dvd (step ▸ Nat.one_dvd units)]
    exact above
  have large : Nat.pow 2 53 ≤ units := Nat.le_of_not_lt small
  by_cases inside : Nat.pow 2 units.log2 ≤ least
  · -- Both lie between the same two powers of two, where doubles are spaced alike.
    have nonzero : units ≠ 0 := Nat.ne_of_gt (Nat.lt_of_lt_of_le (power_pos 53) large)
    have bits : 53 ≤ units.log2 := (Nat.le_log2 nonzero).mpr large
    have positive : least ≠ 0 := Nat.ne_of_gt (Nat.lt_of_lt_of_le (power_pos _) inside)
    have largeToo : ¬ least < Nat.pow 2 53 :=
      Nat.not_lt.mpr (Nat.le_trans (power_le bits) inside)
    have below : least < Nat.pow 2 (units.log2 + 1) := Nat.lt_of_le_of_lt above Nat.lt_log2_self
    have log : least.log2 = units.log2 :=
      Nat.le_antisymm (Nat.le_of_lt_succ ((Nat.log2_lt positive).mpr below))
        ((Nat.le_log2 positive).mpr inside)
    have alike : spacing least = spacing units := by
      rw [spacing, spacing, if_neg largeToo, if_neg small, log]
    rw [alike] at fits
    calc least = least / spacing units * spacing units := (Nat.div_mul_cancel fits).symm
      _ ≤ units / spacing units * spacing units :=
        Nat.mul_le_mul_right _ (Nat.div_le_div_right above)
      _ ≤ roundRatio units 1 := floor_le_roundRatio units
  · exact Nat.le_trans (Nat.le_of_not_le inside) (log2_le_roundRatio large)

/-- An integer below the bound is the double nearest to it. -/
theorem ofUnits_of_lt {k : Nat} (small : k < exactBound) (negative : Bool) :
    ofUnits negative (k * one) = .finite negative (k * one) := by
  have below : k * one < overflow :=
    Nat.lt_of_lt_of_le (Nat.mul_lt_mul_of_pos_right small one_pos) exactBound_units_le_overflow
  rw [ofUnits, ofRatio, roundRatio_of_dvd (spacing_dvd_of_lt small), bounded, if_pos below]

theorem vast_ofUnits {units : Nat} (large : exactBound * one ≤ units) :
    (ofUnits false units).Vast := by
  obtain ⟨e, exponent, bound⟩ := bound_power
  rw [bound] at large
  have nonzero : units ≠ 0 := Nat.ne_of_gt (Nat.lt_of_lt_of_le (power_pos e) large)
  have rounded : exactBound * one ≤ roundRatio units 1 := by
    rw [bound]
    refine Nat.le_trans (power_le ((Nat.le_log2 nonzero).mpr large)) (log2_le_roundRatio ?_)
    exact Nat.le_trans (power_le (by omega)) large
  rw [ofUnits, ofRatio, bounded]
  split
  · exact Or.inr ⟨_, rfl, rounded⟩
  · exact Or.inl rfl

theorem isAt_zero (negative : Bool) : (finite negative 0).IsAt 0 := by
  rw [isAt_iff]
  refine ⟨negative, 0, rfl, ?_⟩
  cases negative <;> exact (Int.zero_mul _).symm

/-- The double nearest to a lesser integer, given by its sign and magnitude, is
that integer. -/
theorem isAt_ofUnits {n : Int} (small : n.natAbs < exactBound) :
    (ofUnits (decide (n < 0)) (n.natAbs * one)).IsAt n := by
  rw [ofUnits_of_lt small, isAt_iff]
  refine ⟨_, _, rfl, ?_⟩
  rw [signed, Int.natCast_mul]
  by_cases negative : n < 0
  · rw [decide_eq_true negative, if_pos rfl, Int.ofNat_natAbs_of_nonpos (Int.le_of_lt negative),
      Int.neg_mul, Int.neg_neg]
  · rw [decide_eq_false negative, Int.natAbs_of_nonneg (Int.not_lt.mp negative)]
    rfl

theorem isAt_ofInt {n : Int} (small : n.natAbs < exactBound) : (ofInt n).IsAt n :=
  isAt_ofUnits small

theorem isAt_ofNat {n : Nat} (small : n < exactBound) : (ofNat n).IsAt n := by
  have exact := @isAt_ofUnits (n : Int) small
  rwa [decide_eq_false (by omega : ¬ (n : Int) < 0)] at exact

theorem isAt_neg {x : Binary64} {n : Int} (at_n : x.IsAt n) : (-x).IsAt (-n) := by
  obtain ⟨negative, units, rfl, value⟩ := (isAt_iff _ _).mp at_n
  rw [isAt_iff]
  refine ⟨!negative, units, rfl, ?_⟩
  rw [Int.neg_mul, ← value]
  cases negative <;> simp [signed]

/-- The sum of two integers, before it is rounded. -/
theorem add_of_isAt {x y : Binary64} {m n : Int} (at_m : x.IsAt m) (at_n : y.IsAt n) :
    (x + y).IsAt 0 ∧ m + n = 0 ∨
      x + y = ofUnits (decide (m + n < 0)) ((m + n).natAbs * one) := by
  obtain ⟨a, p, rfl, first⟩ := (isAt_iff _ _).mp at_m
  obtain ⟨b, q, rfl, second⟩ := (isAt_iff _ _).mp at_n
  have sum : signed a p + signed b q = (m + n) * one := by rw [first, second, Int.add_mul]
  have positive : (0 : Int) < one := by exact_mod_cast one_pos
  by_cases zero : m + n = 0
  · left
    refine ⟨?_, zero⟩
    have cancels : finite a p + finite b q = finite (a && b) 0 := by
      show add (finite a p) (finite b q) = _
      simp only [add, sum, zero, Int.zero_mul, ↓reduceIte]
    rw [cancels]
    exact isAt_zero _
  · right
    have nonzero : (m + n) * (one : Int) ≠ 0 := Int.mul_ne_zero zero (Int.ne_of_gt positive)
    have sign : decide ((m + n) * (one : Int) < 0) = decide (m + n < 0) := by
      by_cases negative : m + n < 0
      · rw [decide_eq_true negative, decide_eq_true (Int.mul_neg_of_neg_of_pos negative positive)]
      · rw [decide_eq_false negative, decide_eq_false]
        exact Int.not_lt.mpr (Int.mul_nonneg (Int.not_lt.mp negative) (Int.le_of_lt positive))
    show add (finite a p) (finite b q) = _
    simp only [add, sum, nonzero, ↓reduceIte, sign, Int.natAbs_mul, Int.natAbs_natCast]

theorem isAt_add {x y : Binary64} {m n : Int} (at_m : x.IsAt m) (at_n : y.IsAt n)
    (small : (m + n).natAbs < exactBound) : (x + y).IsAt (m + n) := by
  rcases add_of_isAt at_m at_n with ⟨zero, same⟩ | rounded
  · rw [same]
    exact zero
  · rw [rounded]
    exact isAt_ofUnits small

/-- The sum of two integers counts as it should, however great it is. -/
theorem countsAs_add_of_isAt {x y : Binary64} {m n : Int} (at_m : x.IsAt m) (at_n : y.IsAt n)
    (nonnegative : 0 ≤ m + n) : (x + y).CountsAs (m + n) := by
  by_cases small : (m + n).natAbs < exactBound
  · exact Or.inl (isAt_add at_m at_n small)
  · right
    have large : (exactBound : Int) ≤ m + n := by omega
    rcases add_of_isAt at_m at_n with ⟨-, zero⟩ | rounded
    · have positive : 0 < exactBound := power_pos 53
      omega
    · refine ⟨?_, large⟩
      rw [rounded, decide_eq_false (Int.not_lt.mpr nonnegative)]
      exact vast_ofUnits (Nat.mul_le_mul_right one (Nat.le_of_not_lt small))

theorem vast_add {x y : Binary64} {m : Int} (at_m : x.IsAt m) (nonnegative : 0 ≤ m)
    (vast : y.Vast) : (x + y).Vast := by
  obtain ⟨a, p, rfl, first⟩ := (isAt_iff _ _).mp at_m
  rcases vast with rfl | ⟨q, rfl, large⟩
  · exact Or.inl rfl
  · have below : 0 ≤ signed a p := by
      rw [first]
      exact Int.mul_nonneg nonnegative (by omega)
    have positive : 0 < exactBound * one := Nat.mul_pos (power_pos 53) one_pos
    have sum : finite a p + finite false q =
        ofUnits false (signed a p + (q : Int)).natAbs := by
      show add (finite a p) (finite false q) = _
      have second : signed false q = q := rfl
      have nonzero : ¬ signed a p + (q : Int) = 0 := by omega
      have sign : ¬ signed a p + (q : Int) < 0 := by omega
      simp only [add, second, nonzero, ↓reduceIte, decide_eq_false sign]
    rw [sum]
    exact vast_ofUnits (by omega)

/-- Adding a natural number to what counts as one. -/
theorem countsAs_add {x y : Binary64} {m n : Int} (at_m : x.IsAt m) (counts : y.CountsAs n)
    (mNonnegative : 0 ≤ m) (nNonnegative : 0 ≤ n) : (x + y).CountsAs (m + n) := by
  rcases counts with at_n | ⟨vast, large⟩
  · exact countsAs_add_of_isAt at_m at_n (by omega)
  · exact Or.inr ⟨vast_add at_m mNonnegative vast, by omega⟩

/-- A lesser integer compares with what counts as an integer as with that integer. -/
theorem isBelow_of_countsAs {x y : Binary64} {m n : Int} {p q : Place} (at_m : x.IsAt m)
    (small : m < exactBound) (counts : y.CountsAs n) (here : x.place? = some p)
    (there : y.place? = some q) : p.isBelow q = decide (m < n) := by
  have positive : (0 : Int) < one := by exact_mod_cast one_pos
  rw [at_m, Option.some.injEq] at here
  subst here
  rcases counts with at_n | ⟨rfl | ⟨units, rfl, vast⟩, large⟩
  · rw [at_n, Option.some.injEq] at there
    subst there
    simp only [Place.isBelow, decide_eq_decide]
    exact Int.mul_lt_mul_right positive
  · cases there
    have less : m < n := by omega
    exact (decide_eq_true less).symm
  · cases there
    have bound : m * one < exactBound * one := Int.mul_lt_mul_of_pos_right small positive
    have less : m < n := by omega
    have units_le : (exactBound : Int) * one ≤ units := by exact_mod_cast vast
    have above : m * one < signed false units := Int.lt_of_lt_of_le bound units_le
    rw [Place.isBelow, decide_eq_true above, decide_eq_true less]

/-- A natural number names the position that it is, or the end. -/
theorem position_of_isAt {x : Binary64} {n : Nat} (at_n : x.IsAt n) (length : Nat) :
    x.position length = min n length := by
  obtain ⟨negative, units, rfl, value⟩ := (isAt_iff _ _).mp at_n
  rw [← Int.natCast_mul] at value
  cases negative with
  | false =>
    have same : units = n * one := Int.natCast_inj.mp value
    simp only [position, same, Nat.mul_div_cancel n one_pos, Bool.false_eq_true, ↓reduceIte]
  | true =>
    -- Of the numbers with this sign only negative zero is a natural number.
    have opposite : -(units : Int) = (n * one : Nat) := value
    have zero : units = 0 := by omega
    have product : n * one = 0 := by omega
    have none : n = 0 := (Nat.mul_eq_zero.mp product).resolve_right (Nat.ne_of_gt one_pos)
    subst zero none
    simp [position]

end NamedArguments.Binary64
