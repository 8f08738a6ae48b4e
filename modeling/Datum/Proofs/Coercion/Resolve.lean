import Datum.Coercion
import Datum.Proofs.Behavior.Payload

/-!
# What the resolver chooses and what follows

For two kinds the resolver keeps both operands, casts one of them to the kind of the other, or finds
the kinds incomparable (`resolve_cases`).  `Value.compare_of_not_null` says what a comparison does
after each choice: the operand that is cast has the kind of the other one, and the order is that of
the two payloads.
-/

namespace Datum

/-- What the resolver can choose: it never picks a kind but that of an operand. -/
theorem resolve_cases (k l : Kind) :
    (k = l ∧ resolve k l = .ok (.same k)) ∨
    (k ≠ l ∧ resolve k l = .ok (.left l)) ∨
    (k ≠ l ∧ resolve k l = .ok (.right k)) ∨
    (k ≠ l ∧ resolve k l = .error (.incomparableTypes k l)) := by
  unfold resolve
  by_cases hk : k = l
  · exact .inl ⟨hk, if_pos hk⟩
  · rw [if_neg hk]
    dsimp only
    split
    · exact .inr (.inr (.inr ⟨hk, rfl⟩))
    · split
      · exact .inr (.inl ⟨hk, rfl⟩)
      · exact .inr (.inr (.inl ⟨hk, rfl⟩))

namespace Value

theorem isPayload_castOperand {operand : Operand} {v w : Value} {target : Kind}
    (hv : v.isNull = false) (h : castOperand operand v target = .ok w) : w.IsPayload target := by
  unfold castOperand at h
  cases hc : v.cast target with
  | error e => rw [hc] at h; cases h
  | ok u =>
    rw [hc] at h
    obtain rfl := Except.ok.inj h
    exact isPayload_cast hv hc

theorem compare_of_not_null {a b : Value} (ha : a.isNull = false) (hb : b.isNull = false) :
    a.compare b =
      match resolve a.kind b.kind with
      | .ok (.same _) => .ok (a.order? b)
      | .ok (.left target) => (castOperand .left a target).map (·.order? b)
      | .ok (.right target) => (castOperand .right b target).map (a.order? ·)
      | .error e => .error e := by
  have hn : ¬ (a.isNull = true ∨ b.isNull = true) := by simp [ha, hb]
  rw [compare, if_neg hn, coerce]
  rcases resolve_cases a.kind b.kind with ⟨hk, hr⟩ | ⟨-, hr⟩ | ⟨-, hr⟩ | ⟨-, hr⟩
  · rw [hr]
    exact Behavior.compare_of_isPayload ⟨ha, rfl⟩ ⟨hb, hk.symm⟩
  · simp only [hr, ok_bind]
    cases hc : castOperand .left a b.kind with
    | error e => rfl
    | ok w =>
      have hw := isPayload_castOperand ha hc
      have ho := Behavior.compare_of_isPayload hw ⟨hb, rfl⟩
      rw [← hw.2] at ho
      exact ho
  · simp only [hr, ok_bind]
    cases hc : castOperand .right b a.kind with
    | error e => rfl
    | ok w => exact Behavior.compare_of_isPayload ⟨ha, rfl⟩ (isPayload_castOperand hb hc)
  · rw [hr]
    rfl

end Value

end Datum
