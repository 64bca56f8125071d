import Mathlib.Algebra.Order.Field.Basic
import Mathlib.Tactic.Linarith
import Mathlib.Tactic.Ring

/-!
# KzHome.Lib.Counters

Counters that measure real time, each at a rate of its own.

A counter moves within a factor `1 - rho` to `1 + rho` of real time (`Drifts`), and a reading
of it is off by what it is quantised by (`Shows`). A lease that was granted on one counter is
waited out on another one when the wait makes up for both rates and for the errors of the four
readings that are compared (`waited_out`).
-/

namespace Counters

variable {K : Type*} [Field K] [LinearOrder K] [IsStrictOrderedRing K]

/-- The count moves within a factor `1 - rho` to `1 + rho` of real time. -/
def Drifts (rho : K) (count : K → K) : Prop :=
  ∀ s t, s ≤ t →
    (1 - rho) * (t - s) ≤ count t - count s ∧ count t - count s ≤ (1 + rho) * (t - s)

/-- The counter may show `v` at instant `t`: a reading is at most `low` below the count and at
most `high` above it. -/
def Shows (count : K → K) (low high : K) (t : K) (v : Int) : Prop :=
  count t - low ≤ v ∧ v ≤ count t + high

instance (count : K → K) (low high t : K) (v : Int) : Decidable (Shows count low high t v) :=
  inferInstanceAs (Decidable (_ ∧ _))

variable {rho low high s t : K} {count : K → K} {v w : Int}

theorem Shows.mono {low' high' : K} (h : Shows count low high t v) (hlow : low ≤ low')
    (hhigh : high ≤ high') : Shows count low' high' t v :=
  ⟨(sub_le_sub_left hlow _).trans h.1, h.2.trans (add_le_add_right hhigh _)⟩

/-- Between two readings a counter shows at least so much. -/
theorem Shows.advanced (hd : Drifts rho count) (hv : Shows count low high s v)
    (hw : Shows count low high t w) (hst : s ≤ t) :
    (1 - rho) * (t - s) - (low + high) ≤ (w : K) - v := by
  have hcount := (hd s t hst).1
  linarith [hv.2, hw.1]

/-- Between two readings a counter shows at most so much. -/
theorem Shows.bounded (hd : Drifts rho count) (hv : Shows count low high s v)
    (hw : Shows count low high t w) (hst : s ≤ t) :
    (w : K) - v ≤ (1 + rho) * (t - s) + (low + high) := by
  have hcount := (hd s t hst).2
  linarith [hv.1, hw.2]

/-- A later reading is at most the quantisation below an earlier one. -/
theorem Shows.back (hrho : rho ≤ 1) (hd : Drifts rho count) (hv : Shows count low high s v)
    (hw : Shows count low high t w) (hts : t ≤ s) : (w : K) - v ≤ low + high := by
  have hcount := (hd t s hts).1
  have hnonneg : 0 ≤ (1 - rho) * (s - t) := mul_nonneg (sub_nonneg.mpr hrho) (sub_nonneg.mpr hts)
  linarith [hv.1, hw.2]

/-- **A lease is over once the wait is.** The lease was granted on the counter `old` at a
reading `v`, no later than the counter `new` was read for the first time, and `new` has moved
by `wait` since then. -/
theorem waited_out {error : K} {old new : K → K} {lifetime wait x y : Int} {u : K}
    (hrho : 0 ≤ rho) (hrho' : rho < 1) (hlifetime : 0 < lifetime) (herror : 0 ≤ error)
    (hwait : ((lifetime : K) + error) * (1 + rho) ≤ wait * (1 - rho))
    (hband : 2 * (low + high) ≤ (1 + rho) * error)
    (hold : Drifts rho old) (hnew : Drifts rho new) (hst : s ≤ t)
    (hv : Shows old low high s v) (hw : Shows new low high t w)
    (hx : Shows new low high u x) (hy : Shows old low high u y) (hpassed : wait ≤ x - w) :
    v + lifetime ≤ y := by
  have hpassed' : (wait : K) ≤ (x : K) - w := by exact_mod_cast hpassed
  have hlife : (0 : K) < lifetime := by exact_mod_cast hlifetime
  have hslow : 0 < 1 - rho := sub_pos.mpr hrho'
  rcases le_total t u with htu | hut
  · -- what `new` has counted is real time, and `old` has counted it too
    have hreal := hnew t u htu
    have hfast := Shows.bounded hnew hw hx htu
    have hcounted := Shows.advanced hold hv hy (hst.trans htu)
    have hsince : (1 - rho) * (u - t) ≤ (1 - rho) * (u - s) :=
      mul_le_mul_of_nonneg_left (by linarith) hslow.le
    have hnumber : (1 + rho) * lifetime ≤ (1 + rho) * ((y : K) - v) := by
      have h₁ : (1 - rho) * wait ≤ (1 - rho) * ((1 + rho) * (u - t) + (low + high)) :=
        mul_le_mul_of_nonneg_left (hpassed'.trans hfast) hslow.le
      have h₂ : (1 + rho) * ((1 - rho) * (u - t) - (low + high)) ≤ (1 + rho) * ((y : K) - v) :=
        mul_le_mul_of_nonneg_left (by linarith) (by linarith)
      nlinarith [h₁, h₂, hwait, hband]
    have hle : (lifetime : K) ≤ (y : K) - v := le_of_mul_le_mul_left hnumber (by linarith)
    have hsum : ((v + lifetime : Int) : K) ≤ y := by push_cast; linarith
    exact_mod_cast hsum
  · -- a counter does not run backwards by a whole wait
    exfalso
    have hback := Shows.back hrho'.le hnew hw hx hut
    have h₁ : (1 - rho) * wait ≤ (1 - rho) * (low + high) :=
      mul_le_mul_of_nonneg_left (hpassed'.trans hback) hslow.le
    have h₂ : (1 - rho) * (2 * (low + high)) ≤ (1 - rho) * ((1 + rho) * error) :=
      mul_le_mul_of_nonneg_left hband hslow.le
    have h₃ : (1 - rho) * ((1 + rho) * error) ≤ 1 * ((1 + rho) * error) :=
      mul_le_mul_of_nonneg_right (by linarith) (mul_nonneg (by linarith) herror)
    have h₄ : 0 < (lifetime : K) * (1 + rho) := mul_pos hlife (by linarith)
    have h₅ : 0 ≤ error * (1 + rho) := mul_nonneg herror (by linarith)
    nlinarith [h₁, h₂, h₃, h₄, h₅, hwait]

end Counters
