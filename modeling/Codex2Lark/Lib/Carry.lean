import Mathlib.Algebra.Order.Group.Int
import Mathlib.Algebra.BigOperators.Group.List.Basic
import Mathlib.Tactic.Ring

/-!
Amounts that are drawn in whole units. What does not fill a unit is carried to the next
draw, so the units drawn are those of the whole amount, however it was cut.
-/

namespace Codex2Lark.Lib

/-- The units drawn so far and what is carried. -/
structure Carry where
  drawn : Int
  rest : Int
deriving DecidableEq, Repr

namespace Carry

variable {unit amount : Int} {c : Carry}

def draw (unit : Int) (c : Carry) (amount : Int) : Carry :=
  ⟨c.drawn + (c.rest + amount) / unit, (c.rest + amount) % unit⟩

/-- All that was put in. -/
def total (unit : Int) (c : Carry) : Int := unit * c.drawn + c.rest

/-- What is carried fills no unit. -/
def Proper (unit : Int) (c : Carry) : Prop := 0 ≤ c.rest ∧ c.rest < unit

theorem total_draw : (c.draw unit amount).total unit = c.total unit + amount := by
  have hsplit := Int.mul_ediv_add_emod (c.rest + amount) unit
  unfold total draw
  dsimp only
  rw [mul_add, add_assoc, hsplit]
  ring

theorem proper_draw (hunit : 0 < unit) : (c.draw unit amount).Proper unit :=
  ⟨Int.emod_nonneg _ hunit.ne', Int.emod_lt_of_pos _ hunit⟩

theorem total_draws (amounts : List Int) :
    (amounts.foldl (draw unit) c).total unit = c.total unit + amounts.sum := by
  induction amounts generalizing c with
  | nil => simp
  | cons amount rest ih =>
      rw [List.foldl_cons, ih, total_draw, List.sum_cons, add_assoc]

theorem proper_draws (hunit : 0 < unit) (hc : c.Proper unit) (amounts : List Int) :
    (amounts.foldl (draw unit) c).Proper unit := by
  induction amounts generalizing c with
  | nil => exact hc
  | cons amount rest ih => exact ih (proper_draw hunit)

/-- The units drawn are those of all that was put in. -/
theorem Proper.drawn_eq (hc : c.Proper unit) : c.drawn = c.total unit / unit := by
  have hunit : unit ≠ 0 := (hc.1.trans_lt hc.2).ne'
  unfold total
  rw [Int.mul_add_ediv_left _ _ hunit, Int.ediv_eq_zero_of_lt hc.1 hc.2, add_zero]

theorem drawn_draws (hunit : 0 < unit) (hc : c.Proper unit) (amounts : List Int) :
    (amounts.foldl (draw unit) c).drawn = (c.total unit + amounts.sum) / unit := by
  rw [(proper_draws hunit hc amounts).drawn_eq, total_draws]

end Carry

end Codex2Lark.Lib
