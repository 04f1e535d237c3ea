import Mathlib.Data.Nat.Bitwise

/-!
# Bits of a word

Flags and fields of a machine word are read and written with `&&&`, `|||` and shifts by
constants. A fact about such an expression is a fact about each of its bits: `testBit_of_table`
turns a constant mask into the table of its bits, `eq_of_testBit_lt` compares two words bit by
bit up to their width, and `and_two_pow_ne_zero` reads a one-bit mask as a bit test.
-/

namespace Word

theorem and_two_pow_ne_zero {x b : Nat} : x &&& 2 ^ b ≠ 0 ↔ x.testBit b = true := by
  rw [Nat.and_two_pow]
  cases x.testBit b <;> simp

theorem testBit_eq_false_of_lt_of_le {x w i : Nat} (hx : x < 2 ^ w) (hi : w ≤ i) :
    x.testBit i = false :=
  Nat.testBit_eq_false_of_lt (lt_of_lt_of_le hx (Nat.pow_le_pow_right Nat.two_pos hi))

/-- A constant below `2 ^ w` has the bits its table for the first `w` bits lists, and no others. -/
theorem testBit_of_table (c w : Nat) (p : Nat → Prop) [DecidablePred p] (hc : c < 2 ^ w)
    (h : ∀ i < w, c.testBit i = decide (p i)) (i : Nat) : c.testBit i = decide (i < w ∧ p i) := by
  by_cases hi : i < w
  · simp [hi, h i hi]
  · have hb : c.testBit i = false := testBit_eq_false_of_lt_of_le hc (by omega)
    simp [hi, hb]

theorem eq_of_testBit_lt {x y w : Nat} (hx : x < 2 ^ w) (hy : y < 2 ^ w)
    (h : ∀ i < w, x.testBit i = y.testBit i) : x = y := by
  apply Nat.eq_of_testBit_eq
  intro i
  by_cases hi : i < w
  · exact h i hi
  · rw [testBit_eq_false_of_lt_of_le hx (by omega), testBit_eq_false_of_lt_of_le hy (by omega)]

end Word
