import Datum.Proofs.Coercion.Extremum

/-!
# Null and foreign operands

What the behavior of a kind does with operands that it has no order for.  A null of any kind makes a
comparison unknown, and is itself chosen as the smaller and as the larger operand.  Of two operands
that are not null the first one of another kind is reported.

The behavior of the untyped null looks at the kinds of its operands before anything else
(`ChecksKinds`).  A null of a proper kind is of another kind to it, which it refuses
(`untyped_null_refuses_other_kinds`), while all other behaviors take every null for unknown.
-/

namespace Datum

namespace Extremum

variable (x : Extremum) {kind : Kind} {left right : Value}

theorem ofKind_of_unknown (h : Behavior.compare kind left right = .ok none) :
    x.ofKind kind left right = .ok (Behavior.nullOperand left right) := by
  cases x with
  | least => simp only [ofKind, Behavior.min, h, ok_bind, pure, Except.pure]
  | greatest => simp only [ofKind, Behavior.max, h, ok_bind, pure, Except.pure]

/-- Choosing fails exactly as comparing does. -/
theorem ofKind_eq_error_iff {e : TypeError} :
    x.ofKind kind left right = .error e ↔ Behavior.compare kind left right = .error e := by
  cases hc : Behavior.compare kind left right with
  | error found =>
    rw [Except.error.injEq]
    cases x with
    | least => rw [ofKind, Behavior.min, hc, error_bind, Except.error.injEq]
    | greatest => rw [ofKind, Behavior.max, hc, error_bind, Except.error.injEq]
  | ok order =>
    refine iff_of_false ?_ (fun h => by cases h)
    cases x with
    | least =>
      simp only [ofKind, Behavior.min, hc, ok_bind]
      split <;> (intro h; cases h)
    | greatest =>
      simp only [ofKind, Behavior.max, hc, ok_bind]
      split <;> (intro h; cases h)

end Extremum

namespace Behavior

/-- The kind of the first operand that is not of the kind. -/
def foreignKind? (kind : Kind) (left right : Value) : Option Kind :=
  [left.kind, right.kind].find? (· ≠ kind)

/-- Whether the behavior of a kind looks at the kinds of its operands: that of the untyped null
always does, and every other one if neither operand is null. -/
def ChecksKinds (kind : Kind) (left right : Value) : Prop :=
  kind = .null ∨ left.isNull = false ∧ right.isNull = false

variable {kind : Kind} {left right : Value}

theorem foreignKind?_eq_none_iff :
    foreignKind? kind left right = none ↔ left.kind = kind ∧ right.kind = kind := by
  simp [foreignKind?]

/-- Where the kinds are looked at, the first foreign one is reported. -/
theorem compare_of_checksKinds (h : ChecksKinds kind left right) :
    compare kind left right =
      match foreignKind? kind left right with
      | some actual => .error (.kindMismatch kind actual)
      | none => .ok (left.order? right) := by
  have hn : ¬ (kind ≠ .null ∧ (left.isNull = true ∨ right.isNull = true)) := by
    rintro ⟨hk, hn⟩
    rcases h with h | ⟨hl, hr⟩
    · exact hk h
    · rw [hl, hr] at hn
      simp at hn
  rw [compare, if_neg hn, checkKind, checkKind, foreignKind?]
  by_cases hl : left.kind = kind
  · rw [if_pos hl, ok_bind, List.find?_cons_of_neg (by simp [hl])]
    by_cases hr : right.kind = kind
    · rw [if_pos hr, ok_bind, List.find?_cons_of_neg (by simp [hr]), List.find?_nil]
      rfl
    · rw [if_neg hr, error_bind, List.find?_cons_of_pos (by simp [hr])]
  · rw [if_neg hl, error_bind, List.find?_cons_of_pos (by simp [hl])]

theorem compare_eq_error_iff (h : ChecksKinds kind left right) {e : TypeError} :
    compare kind left right = .error e ↔
      ∃ actual, foreignKind? kind left right = some actual ∧ e = .kindMismatch kind actual := by
  rw [compare_of_checksKinds h]
  cases foreignKind? kind left right with
  | none => simp
  | some actual => simp [eq_comm]

theorem order?_of_isNull (h : left.isNull = true ∨ right.isNull = true) :
    left.order? right = none := by
  rcases h with h | h
  · cases left with
    | null kind => rfl
    | _ => cases h
  · cases right with
    | null kind => cases left <;> rfl
    | _ => cases h

/-- A null operand makes a comparison unknown, except that the behavior of the untyped null takes no
operand of another kind. -/
theorem compare_of_isNull (h : left.isNull = true ∨ right.isNull = true)
    (hk : kind = .null → left.kind = .null ∧ right.kind = .null) :
    compare kind left right = .ok none := by
  by_cases hn : kind = .null
  · have hf : foreignKind? kind left right = none := foreignKind?_eq_none_iff.mpr (hn ▸ hk hn)
    rw [compare_of_checksKinds (.inl hn), hf, order?_of_isNull h]
  · exact if_pos ⟨hn, h⟩

/-- **Null operands make a comparison unknown and foreign ones make it fail.**  If an operand is
null, whatever its kind, nothing is compared and the null is what is chosen, the left one of two.
Otherwise comparing and choosing fail if and only if an operand is of another kind, and report the
first such kind.  The behavior of the untyped null reports it even of a null. -/
theorem null_and_foreign_operands (kind : Kind) (left right : Value) :
    (left.isNull = true ∨ right.isNull = true →
      (kind = .null → left.kind = .null ∧ right.kind = .null) →
      compare kind left right = .ok none ∧
      ∀ x : Extremum, x.ofKind kind left right = .ok (if left.isNull then left else right)) ∧
    (ChecksKinds kind left right →
      ∀ e, (compare kind left right = .error e ↔
          ∃ actual, foreignKind? kind left right = some actual ∧ e = .kindMismatch kind actual) ∧
        ∀ x : Extremum, x.ofKind kind left right = .error e ↔
          ∃ actual, foreignKind? kind left right = some actual ∧ e = .kindMismatch kind actual) := by
  constructor
  · intro h hk
    have hc := compare_of_isNull h hk
    exact ⟨hc, fun x => x.ofKind_of_unknown hc⟩
  · intro h e
    refine ⟨compare_eq_error_iff h, fun x => ?_⟩
    rw [x.ofKind_eq_error_iff]
    exact compare_eq_error_iff h

/-- A NaN beside the null of a date, which is chosen, and beside a truth value, which is foreign to
floats. -/
theorem null_and_foreign_operands_at_edges :
    ((Value.float .nan).isNull = true ∨ (Value.null .date).isNull = true) ∧
    Extremum.greatest.ofKind .float (.float .nan) (.null .date) = .ok (.null .date) ∧
    ChecksKinds .float (.float .nan) (.boolean true) ∧
    compare .float (.float .nan) (.boolean true) = .error (.kindMismatch .float .boolean) := by
  have hn : (Value.float .nan).isNull = true ∨ (Value.null .date).isNull = true := .inr rfl
  have hk : ChecksKinds .float (.float .nan) (.boolean true) := .inr ⟨rfl, rfl⟩
  refine ⟨hn, ?_, hk, ?_⟩
  · exact ((null_and_foreign_operands .float (.float .nan) (.null .date)).1 hn nofun).2 .greatest
  · exact ((null_and_foreign_operands .float (.float .nan) (.boolean true)).2 hk _).1.mpr
      ⟨.boolean, rfl, rfl⟩

/-- To the behavior of the untyped null the number one is of another kind, and so is the null of
integers: neither leaves the order open, and no null is chosen. -/
theorem untyped_null_refuses_other_kinds :
    compare .null (.null .null) (.integer 1) = .error (.kindMismatch .null .integer) ∧
    compare .null (.null .integer) (.null .null) = .error (.kindMismatch .null .integer) ∧
    ∀ x : Extremum,
      x.ofKind .null (.null .null) (.integer 1) = .error (.kindMismatch .null .integer) ∧
      x.ofKind .null (.null .integer) (.null .null) = .error (.kindMismatch .null .integer) := by
  refine ⟨rfl, rfl, fun x => ?_⟩
  cases x <;> exact ⟨rfl, rfl⟩

end Behavior

end Datum
