/-!
# `AccumulatorMachine.Position`: places counted from either end

A place in a sequence of `n` entries is named by an integer. From `0`
on it counts from the front; a negative one counts from the end, so
that `-1` names the last entry. `position` finds the entry, or tells
why there is none.

A cut goes between entries. `cutPoint` counts cuts in the same way:
cut `0` is before the first entry, and a negative cut lies that many
entries before the end. Cuts beyond an end are at that end.
-/

set_option autoImplicit false

namespace AccumulatorMachine

/-- What a place is wanted for. -/
inductive Access where
  | instruction
  | readMark
  | writeMark
deriving DecidableEq, Repr

/-- Why an integer names no place: the sequence has none there, or
the integer is no machine word. -/
inductive PositionError where
  | outOfRange (access : Access)
  | notWord
deriving DecidableEq, Repr

/-- The wording of a refusal. -/
def PositionError.message : PositionError → String
  | .outOfRange .instruction => "tuple index out of range"
  | .outOfRange .readMark => "list index out of range"
  | .outOfRange .writeMark => "list assignment index out of range"
  | .notWord => "cannot fit 'int' into an index-sized integer"

/-- Whether the integer is a machine word of 64 bits. -/
def isWord (i : Int) : Bool := -Int.pow 2 63 ≤ i && i < Int.pow 2 63

/-- The entry that `i` names among `n` of them. -/
def position (access : Access) (n : Nat) (i : Int) : Except PositionError (Fin n) :=
  if h : 0 ≤ i ∧ i < n then .ok ⟨i.toNat, by omega⟩
  else if h : -(n : Int) ≤ i ∧ i < 0 then .ok ⟨(n + i).toNat, by omega⟩
  else .error (if isWord i then .outOfRange access else .notWord)

/-- The number of entries before cut `i` of a sequence of `n`. -/
def cutPoint (n : Nat) (i : Int) : Nat :=
  if 0 ≤ i then min i.toNat n else (n + i).toNat

/-! ### Where places are -/

/-- From the front the place of `i` is `i`. -/
theorem position_of_nonneg (access : Access) {n : Nat} {i : Int} (h₀ : 0 ≤ i) (h₁ : i < n) :
    position access n i = .ok ⟨i.toNat, by omega⟩ := by
  simp [position, h₀, h₁]

/-- From the end the place of `i` is `n + i`. -/
theorem position_of_neg (access : Access) {n : Nat} {i : Int} (h₀ : -(n : Int) ≤ i)
    (h₁ : i < 0) : position access n i = .ok ⟨(n + i).toNat, by omega⟩ := by
  have : ¬(0 ≤ i ∧ i < n) := by omega
  simp [position, this, h₀, h₁]

/-- There is a place exactly for the `2 * n` integers from `-n` on. -/
theorem position_eq_ok_iff (access : Access) {n : Nat} {i : Int} :
    (∃ k, position access n i = .ok k) ↔ -(n : Int) ≤ i ∧ i < n := by
  unfold position
  split
  · simp; omega
  · split
    · simp; omega
    · simp; omega

end AccumulatorMachine
