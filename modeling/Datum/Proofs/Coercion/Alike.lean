import Datum.Proofs.Coercion.CommonKind

/-!
# Two coercions side by side

Whatever two pairs of operands have in common after coercion carries over to comparing and choosing:
these fail where coercion fails, and otherwise look only at the two values in the common kind
(`Value.compare_alike`, `Extremum.ofValues_alike`).

`Value.coerce_mirror` does the same for two operands and the same operands exchanged.  As for
comparing, the two kinds of strings are left out: each coercion casts its own left operand there.
-/

namespace Datum

/-- Two comparisons that find their operands in one and the same order. -/
def SameOrder (o o' : Option Ordering) : Prop :=
  ∃ order, o = some order ∧ o' = some order

theorem SameOrder.eq {o o' : Option Ordering} (h : SameOrder o o') : o = o' := by
  obtain ⟨order, rfl, rfl⟩ := h
  rfl

namespace Value

/-- **Coercion casts the same operand, whichever comes first**, unless both are strings. -/
theorem coerce_mirror {a b : Value}
    (h : a.kind = b.kind ∨ ¬ (a.kind.isString = true ∧ b.kind.isString = true)) :
    b.coerce a = ((a.coerce b).map Prod.swap).mapError TypeError.mirror := by
  have hm := resolve_mirror h
  rcases resolve_cases a.kind b.kind with ⟨-, hr⟩ | ⟨-, hr⟩ | ⟨-, hr⟩ | ⟨-, hr⟩
  · rw [hr] at hm
    rw [coerce_of_same hr, coerce_of_same hm]
    rfl
  · rw [hr] at hm
    rw [coerce_of_left hr, coerce_of_right hm, castOperand_right]
    cases castOperand .left a b.kind <;> rfl
  · rw [hr] at hm
    rw [coerce_of_right hr, coerce_of_left hm, castOperand_left]
    cases castOperand .right b a.kind <;> rfl
  · rw [hr] at hm
    rw [coerce_of_error hr, coerce_of_error hm]
    rfl

section

variable {a b a' b' : Value} {errors : TypeError → TypeError → Prop}
  {results : Coerced × Coerced → Coerced × Coerced → Prop}

theorem alike_mirror (h : Alike errors results (a.coerce b) (a'.coerce b'))
    (he : ∀ e f, errors e f → errors e.mirror f.mirror)
    (hs : a.kind = b.kind ∨ ¬ (a.kind.isString = true ∧ b.kind.isString = true))
    (hs' : a'.kind = b'.kind ∨ ¬ (a'.kind.isString = true ∧ b'.kind.isString = true)) :
    Alike errors (fun p q => results p.swap q.swap) (b.coerce a) (b'.coerce a') := by
  rw [coerce_mirror hs, coerce_mirror hs']
  exact Alike.mapError (Alike.map h fun p q hpq => hpq) he

/-- **Operands whose coercions leave them in one order compare alike.** -/
theorem compare_alike (ha : a.isNull = false) (hb : b.isNull = false) (ha' : a'.isNull = false)
    (hb' : b'.isNull = false) (h : Alike errors results (a.coerce b) (a'.coerce b'))
    (ho : ∀ p q, results p q → p.1.value.order? p.2.value = q.1.value.order? q.2.value) :
    Alike errors SameOrder (a.compare b) (a'.compare b') := by
  generalize hx : a.coerce b = x at h
  generalize hy : a'.coerce b' = y at h
  cases h with
  | error he =>
    rw [compare_of_coerce_error ha hb hx, compare_of_coerce_error ha' hb' hy]
    exact .error he
  | ok hr =>
    obtain ⟨c, -, hl, hr'⟩ := isPayload_of_coerce ha hb hx
    rw [compare_of_coerce ha hb hx, compare_of_coerce ha' hb' hy]
    refine .ok ⟨_, order?_eq_cmp hl hr', ?_⟩
    rw [← ho _ _ hr]
    exact order?_eq_cmp hl hr'

end

end Value

/-- **Operands whose coercions lead to related choices are chosen from alike.** -/
theorem Extremum.ofValues_alike (x : Extremum) {a b a' b' : Value}
    {errors : TypeError → TypeError → Prop} {results : Coerced × Coerced → Coerced × Coerced → Prop}
    {choices : Value → Value → Prop} (ha : a.isNull = false) (hb : b.isNull = false)
    (ha' : a'.isNull = false) (hb' : b'.isNull = false)
    (h : Alike errors results (a.coerce b) (a'.coerce b'))
    (hc : ∀ p q, results p q →
      choices (x.choose p.1.value p.2.value) (x.choose q.1.value q.2.value)) :
    Alike errors choices (x.ofValues a b) (x.ofValues a' b') := by
  generalize hx : a.coerce b = outcome at h
  generalize hy : a'.coerce b' = outcome' at h
  cases h with
  | error he =>
    rw [x.ofValues_of_coerce_error ha hb hx, x.ofValues_of_coerce_error ha' hb' hy]
    exact .error he
  | ok hr =>
    rw [x.ofValues_of_coerce ha hb hx, x.ofValues_of_coerce ha' hb' hy]
    exact .ok (hc _ _ hr)

end Datum
