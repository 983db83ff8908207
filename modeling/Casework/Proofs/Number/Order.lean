/-
  Casework.Proofs.Number.Order

  Numbers compared exactly, by their positions: what is less goes on from one number to the next,
  and so does what is the same. The number that is none lies nowhere, so it is neither less than any
  nor the same as any, itself included.
-/
import Casework.Number.Basic
import Mathlib.Tactic.Ring

namespace Casework

namespace Number

/-- The fraction at which a number lies has a denominator. -/
theorem den_pos_of_position {a : Number} {num : Int} {den : Nat} (h : a.position = .at num den) :
    0 < den := by
  cases a with
  | whole n =>
    cases h
    exact Nat.one_pos
  | binary x =>
    cases x with
    -- A fraction has one for its denominator, or a power of two.
    | finite negative m e =>
      by_cases he : e ≥ 0
      · simp only [position, Binary64.fraction?, if_pos he] at h
        cases h
        exact Nat.one_pos
      · simp only [position, Binary64.fraction?, if_neg he] at h
        cases h
        exact Nat.pow_pos Nat.two_pos
    | infinite negative => cases negative <;> cases h
    | notANumber => cases h

-- ============================================================================
-- What is less
-- ============================================================================

theorem lt_trans {a b c : Number} (h : a.lt b) (h' : b.lt c) : a.lt c := by
  rw [lt] at h h' ⊢
  -- The infinite positions are compared at once; what is left are three fractions.
  cases ha : a.position <;> cases hb : b.position <;> cases hc : c.position <;>
    simp only [ha, hb, hc] at h h' ⊢ <;> try contradiction
  case at.at.at n d m e p f =>
    have hd : (0 : Int) < d := Int.natCast_pos.2 (den_pos_of_position ha)
    have he : (0 : Int) < e := Int.natCast_pos.2 (den_pos_of_position hb)
    have hf : (0 : Int) < f := Int.natCast_pos.2 (den_pos_of_position hc)
    simp only [decide_eq_true_eq] at h h' ⊢
    -- Both inequalities, brought to the common denominator, chain.
    have hscaled : n * f * e < p * d * e := by
      calc n * f * e = n * e * f := by ring
        _ < m * d * f := Int.mul_lt_mul_of_pos_right h hf
        _ = m * f * d := by ring
        _ < p * e * d := Int.mul_lt_mul_of_pos_right h' hd
        _ = p * d * e := by ring
    exact Int.lt_of_mul_lt_mul_right hscaled he.le

/-- No number is before itself, not a number least of all. -/
theorem lt_irrefl (a : Number) : a.lt a = false := by
  rw [lt]
  cases a.position <;> simp

-- ============================================================================
-- What is the same
-- ============================================================================

/-- Numbers are the same in both orders. -/
theorem same_comm (a b : Number) : a.same b = b.same a := by
  unfold same
  cases a.position <;> cases b.position <;> try rfl
  exact decide_eq_decide.2 eq_comm

/-- Numbers that are the same as a third one are the same. -/
theorem same_trans {a b c : Number} (hab : a.same b) (hbc : b.same c) : a.same c := by
  unfold same at *
  cases ha : a.position <;> cases hb : b.position <;> cases hc : c.position <;>
    simp only [ha, hb, hc, Bool.false_eq_true, decide_eq_true_eq] at hab hbc ⊢
  case at.at.at n d m e p f =>
    have he : (e : Int) ≠ 0 := Int.natCast_ne_zero.2 (Nat.ne_of_gt (den_pos_of_position hb))
    refine Int.eq_of_mul_eq_mul_right he ?_
    calc n * f * e
      _ = n * e * f := by ring
      _ = m * d * f := by rw [hab]
      _ = m * f * d := by ring
      _ = p * e * d := by rw [hbc]
      _ = p * d * e := by ring

end Number
end Casework
