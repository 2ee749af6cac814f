/-!
# `AccumulatorMachine.Rounding`: quotients to the nearest integer or to some bits

`roundHalfEven` takes a quotient to the nearest integer, and to the
even one if two are equally near. `roundToBits` takes it to the nearest
integer whose binary form has a limited number of bits before its
closing zeros, which is how a number of limited precision holds a large
value. A value that needs no more bits than there are stays as it is.
-/

set_option autoImplicit false

namespace AccumulatorMachine

/-- The integer nearest to `num / den`; half way between two integers,
the even one. -/
def roundHalfEven (num : Int) (den : Nat) : Int :=
  let q := num.fdiv den
  let twice := 2 * (num - q * den)
  if twice < den then q
  else if den < twice then q + 1
  else if q % 2 = 0 then q else q + 1

/-- How many bits the integer part of `num / den` has beyond `bits`. -/
def excessBits (bits : Nat) (num : Int) (den : Nat) : Nat :=
  (num.natAbs / den).log2 + 1 - bits

/-- The integer nearest to `num / den` among those that have at most
`bits` bits before their closing zeros; half way, the one whose last
such bit is zero. -/
def roundToBits (bits : Nat) (num : Int) (den : Nat) : Int :=
  let unit := Nat.pow 2 (excessBits bits num den)
  roundHalfEven num (den * unit) * unit

/-! ### How far rounding goes -/

/-- Rounding moves a quotient by half a unit at most. -/
theorem two_mul_roundHalfEven_sub_le (num : Int) (den : Nat) (h : 0 < den) :
    2 * (roundHalfEven num den * den - num) ≤ den ∧
      -(den : Int) ≤ 2 * (roundHalfEven num den * den - num) := by
  have hd : (0 : Int) < den := by omega
  -- The quotient is between the integer below it and the next one.
  have h₁ : num.fdiv den * den ≤ num := by
    rw [Int.fdiv_eq_ediv_of_nonneg _ (by omega)]
    exact Int.ediv_mul_le _ (by omega)
  have h₂ : num < num.fdiv den * den + den := by
    rw [Int.fdiv_eq_ediv_of_nonneg _ (by omega)]
    have := Int.lt_ediv_add_one_mul_self num hd
    rw [Int.add_mul] at this
    omega
  unfold roundHalfEven
  simp only
  split
  · omega
  · split
    · rw [Int.add_mul]; omega
    · split
      · omega
      · rw [Int.add_mul]; omega

/-- An integer is nearest to itself. -/
@[simp]
theorem roundHalfEven_one (n : Int) : roundHalfEven n 1 = n := by
  have := two_mul_roundHalfEven_sub_le n 1 (by omega)
  omega

/-- An integer with no more bits than there are stays as it is. -/
theorem roundToBits_of_lt {bits : Nat} {n : Int} (hb : 0 < bits)
    (h : n.natAbs < Nat.pow 2 bits) :
    roundToBits bits n 1 = n := by
  have hexcess : excessBits bits n 1 = 0 := by
    unfold excessBits
    by_cases hn : n.natAbs = 0
    · simp [hn]
      omega
    · have : n.natAbs.log2 < bits := (Nat.log2_lt hn).2 h
      simp only [Nat.div_one]
      omega
  simp [roundToBits, hexcess]

end AccumulatorMachine
