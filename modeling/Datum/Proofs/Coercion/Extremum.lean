import Datum.Coercion
import Datum.Proofs.Behavior.TotalOrder

/-!
# The smaller and the larger of two values

Choosing the smaller of two values and choosing the larger differ only in the order in which the
left one gives way to the right one (`Extremum.yields`).  `Extremum` stands for both, so that what
holds of one is said of both at once.
-/

namespace Datum

inductive Extremum where
  | least
  | greatest

namespace Extremum

/-- The order of two values in which the right one is chosen. -/
def yields : Extremum → Ordering
  | least => .gt
  | greatest => .lt

def ofKind : Extremum → Kind → Value → Value → Except TypeError Value
  | least => Behavior.min
  | greatest => Behavior.max

def ofValues : Extremum → Value → Value → Except TypeError Value
  | least => Value.min
  | greatest => Value.max

def choose (x : Extremum) (v w : Value) : Value :=
  if v.order? w = some x.yields then w else v

variable (x : Extremum)

theorem ofKind_of_isPayload {kind : Kind} {v w : Value} (hv : v.IsPayload kind)
    (hw : w.IsPayload kind) : x.ofKind kind v w = .ok (x.choose v w) := by
  have hc := Behavior.compare_of_isPayload hv hw
  obtain ⟨order, ho⟩ : ∃ order, v.order? w = some order := ⟨_, Value.order?_eq_cmp hv hw⟩
  rw [ho] at hc
  rw [choose, ho]
  cases x with
  | least =>
    simp only [ofKind, Behavior.min, hc, ok_bind]
    cases order <;> rfl
  | greatest =>
    simp only [ofKind, Behavior.max, hc, ok_bind]
    cases order <;> rfl

theorem ofValues_of_isNull {v w : Value} (h : v.isNull = true ∨ w.isNull = true) :
    x.ofValues v w = .ok (Behavior.nullOperand v w) := by
  cases x with
  | least => exact if_pos h
  | greatest => exact if_pos h

theorem ofValues_eq_coerce_bind {v w : Value} (hv : v.isNull = false) (hw : w.isNull = false) :
    x.ofValues v w = (do
      let (l, r) ← v.coerce w
      x.ofKind l.value.kind l.value r.value) := by
  have hn : ¬ (v.isNull = true ∨ w.isNull = true) := by simp [hv, hw]
  cases x with
  | least => exact if_neg hn
  | greatest => exact if_neg hn

end Extremum

end Datum
