import Datum.Comparison
import Datum.Proofs.Coercion.CommonKind
import Datum.Proofs.Coercion.Mirror
import Mathlib.Logic.ExistsUnique

/-!
# The laws of the comparison operators

All operators start from one comparison, so on given operands they fail together, are unknown
together or have truth values together.  `Comparison.Consistent` lists the laws of these truth
values, which hold because the operators read them off one ordering (`Comparison.consistent_holds`).

Exchanging the operands exchanges the operators (`Comparison.mirror`): the ordering is reversed
(`Value.compare_mirror`), although the resolver may cast the other operand, and a mirrored operator
holds of a reversed ordering if and only if the operator holds of the ordering.
-/

namespace Datum

/-- A comparison fails, is unknown or finds an order. -/
theorem Value.compare_cases (a b : Value) :
    (∃ e, a.compare b = .error e) ∨ a.compare b = .ok none ∨ ∃ o, a.compare b = .ok (some o) := by
  cases a.compare b with
  | error e => exact .inl ⟨e, rfl⟩
  | ok order? =>
    cases order? with
    | none => exact .inr (.inl rfl)
    | some o => exact .inr (.inr ⟨o, rfl⟩)

/-- **A comparison is unknown beside a null and nowhere else**: coercion leads to two values of one
kind, and these have an order. -/
theorem Value.compare_eq_ok_none_iff (a b : Value) :
    a.compare b = .ok none ↔ a.isNull = true ∨ b.isNull = true := by
  constructor
  · intro h
    by_cases hn : a.isNull = true ∨ b.isNull = true
    · exact hn
    obtain ⟨ha, hb⟩ : a.isNull = false ∧ b.isNull = false := by simpa using hn
    cases hc : a.coerce b with
    | error e =>
      rw [compare_of_coerce_error ha hb hc] at h
      cases h
    | ok lr =>
      obtain ⟨c, -, hl, hr⟩ := isPayload_of_coerce ha hb hc
      rw [compare_of_coerce ha hb hc, order?_eq_cmp hl hr] at h
      cases h
  · intro hn
    exact if_pos hn

namespace Comparison

/-- The operator that says the same of the operands in the other order. -/
def mirror : Comparison → Comparison
  | equal => equal
  | notEqual => notEqual
  | lessThan => greaterThan
  | lessThanEqual => greaterThanEqual
  | greaterThan => lessThan
  | greaterThanEqual => lessThanEqual

theorem holds_mirror (op : Comparison) (o : Ordering) : op.mirror.holds o.swap = op.holds o := by
  cases op <;> cases o <;> rfl

/-- The laws of the truth values that the operators have on the same operands. -/
structure Consistent (truth : Comparison → Bool) : Prop where
  trichotomy : ∃! op, op ∈ [lessThan, equal, greaterThan] ∧ truth op = true
  notEqual_eq : truth notEqual = !truth equal
  greaterThanEqual_eq : truth greaterThanEqual = !truth lessThan
  lessThanEqual_eq : truth lessThanEqual = !truth greaterThan

def only : Ordering → Comparison
  | .lt => lessThan
  | .eq => equal
  | .gt => greaterThan

theorem only_holds_iff (o p : Ordering) : (only o).holds p = true ↔ o = p := by
  cases o <;> cases p <;> decide

theorem consistent_holds (o : Ordering) : Consistent (·.holds o) where
  trichotomy := by
    refine ⟨only o, ⟨by cases o <;> decide, (only_holds_iff o o).mpr rfl⟩, ?_⟩
    rintro op ⟨hop, hholds⟩
    -- Each of the three operators is that of one ordering.
    obtain ⟨p, rfl⟩ : ∃ p, only p = op := by
      simp only [List.mem_cons, List.not_mem_nil, or_false] at hop
      rcases hop with rfl | rfl | rfl
      · exact ⟨.lt, rfl⟩
      · exact ⟨.eq, rfl⟩
      · exact ⟨.gt, rfl⟩
    rw [(only_holds_iff p o).mp hholds]
  notEqual_eq := rfl
  greaterThanEqual_eq := rfl
  lessThanEqual_eq := rfl

theorem evaluate_eq_map (op : Comparison) (a b : Value) :
    op.evaluate a b = (a.compare b).map (Option.map op.holds) := by
  rw [evaluate]
  cases a.compare b <;> rfl

/-- **An operator and its mirror image agree**, up to the order of the operands in a failure. -/
theorem evaluate_mirror (op : Comparison) (a b : Value) :
    op.mirror.evaluate b a = (op.evaluate a b).mapError TypeError.mirror := by
  rw [evaluate_eq_map, evaluate_eq_map, Value.compare_mirror a b]
  rcases a.compare_cases b with ⟨e, h⟩ | h | ⟨o, h⟩
  · rw [h]
    rfl
  · rw [h]
    rfl
  · rw [h]
    exact congrArg (fun t => Except.ok (some t)) (op.holds_mirror o)

/-- **The six operators are one three-valued logic.**  On any two values they all fail with the same
error, or all are unknown, which happens beside a null and nowhere else, or they have truth values
that obey the laws.  Each may be replaced by its mirror image with the operands exchanged: if one of
them succeeds, so does the other, with the same result. -/
theorem operators_three_valued (a b : Value) :
    ((∃ e, ∀ op, evaluate op a b = .error e) ∨
      (∀ op, evaluate op a b = .ok none) ∨
      ∃ truth, Consistent truth ∧ ∀ op, evaluate op a b = .ok (some (truth op))) ∧
    (∀ op, evaluate op a b = .ok none ↔ a.isNull = true ∨ b.isNull = true) ∧
    ∀ op r, evaluate op a b = .ok r ↔ evaluate (mirror op) b a = .ok r := by
  refine ⟨?_, ?_, ?_⟩
  · rcases a.compare_cases b with ⟨e, h⟩ | h | ⟨o, h⟩
    · left
      refine ⟨e, ?_⟩
      intro op
      rw [evaluate_eq_map, h]
      rfl
    · right; left
      intro op
      rw [evaluate_eq_map, h]
      rfl
    · right; right
      refine ⟨_, consistent_holds o, ?_⟩
      intro op
      rw [evaluate_eq_map, h]
      rfl
  · intro op
    rw [← Value.compare_eq_ok_none_iff, evaluate_eq_map, map_eq_ok_iff]
    simp
  · intro op r
    rw [evaluate_mirror, mapError_eq_ok_iff]

/-- A text reads as a number beside one, whichever of them comes first. -/
example :
    lessThan.evaluate (.text (Utf8.encode "9")) (.integer 10) = .ok (some true) ∧
      greaterThan.evaluate (.integer 10) (.text (Utf8.encode "9")) = .ok (some true) :=
  ⟨rfl, rfl⟩

end Comparison

end Datum
