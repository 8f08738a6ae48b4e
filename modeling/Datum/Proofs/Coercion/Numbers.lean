import Datum.Proofs.Coercion.Mirror
import Datum.Proofs.Single.Number

/-!
# Comparing truth values, integers and floats

Truth values, integers and floats have exact numbers (`Value.number?`), and comparing any two of
them gives the order of their numbers.  The one exception is an integer that no single represents
beside a float, which is refused (`Value.Refused`): an integer is never rounded to be compared.

Casting a truth value keeps its number, and so does casting an integer, as far as it succeeds
(`Single.ofIntExact?_cases`).  The resolver never casts in the other direction.
-/

namespace Datum.Value

/-- The exact number of a truth value, an integer or a float. -/
def number? : Value → Option Number
  | boolean b => some (.ofRat (if b then 1 else 0))
  | integer n => some (.ofRat n.toInt)
  | float x => some x.number
  | _ => none

/-- No single is this integer. -/
def Unrepresentable (n : Int32) : Prop :=
  ¬ ∃ x : Single, x.number = .ofRat n.toInt

/-- One operand is an integer that no single represents, and the other is a float. -/
def Refused (operand : Operand) (n : Int32) (a b : Value) : Prop :=
  Unrepresentable n ∧ ∃ x : Single,
    match operand with
    | .left => a = integer n ∧ b = float x
    | .right => a = float x ∧ b = integer n

def refusal (operand : Operand) (n : Int32) : TypeError :=
  .coercionFailed operand .integer .float (.numericOverflow (Integer.toText n.toInt) .float)

theorem natAbs_toInt_lt (n : Int32) : n.toInt.natAbs < 2 ^ 53 := by
  have h1 := n.le_toInt
  have h2 := n.toInt_lt
  omega

/-! ### Two values of one kind -/

theorem compare_integer_integer (m n : Int32) :
    (integer m).compare (integer n) =
      .ok (some (cmp (Number.ofRat m.toInt) (Number.ofRat n.toInt))) := by
  have hc : Ord.compare m.toInt n.toInt = cmp (Number.ofRat m.toInt) (Number.ofRat n.toInt) := by
    apply compare_eq_cmp_of_lt_iff <;> rw [Number.ofRat_lt_ofRat, Int.cast_lt]
  rw [compare_of_not_null rfl rfl, ← hc]
  rfl

theorem compare_float_float (x y : Single) :
    (float x).compare (float y) = .ok (some (cmp x.number y.number)) := by
  rw [compare_of_not_null rfl rfl, ← x.compare_eq_cmp]
  rfl

/-! ### Truth values -/

theorem cast_toInt_ite (b : Bool) :
    (((if b then 1 else 0 : Int32).toInt : ℤ) : ℚ) = if b then 1 else 0 := by
  cases b <;> norm_cast

theorem compare_boolean_integer (b : Bool) (n : Int32) :
    (boolean b).compare (integer n) =
      .ok (some (cmp (Number.ofRat (if b then 1 else 0)) (Number.ofRat n.toInt))) := by
  have hc := compare_integer_integer (if b then 1 else 0) n
  rw [compare_of_not_null rfl rfl] at hc ⊢
  rw [← cast_toInt_ite]
  exact hc

theorem compare_boolean_boolean (a b : Bool) :
    (boolean a).compare (boolean b) =
      .ok (some (cmp (Number.ofRat (if a then 1 else 0)) (Number.ofRat (if b then 1 else 0)))) := by
  have hc := compare_boolean_integer a (if b then 1 else 0)
  rw [cast_toInt_ite] at hc
  rw [← hc]
  cases a <;> cases b <;> rfl

theorem number_ofInt_ite (b : Bool) :
    (Single.ofInt (if b then 1 else 0)).number = .ofRat (if b then 1 else 0) := by
  cases b with
  | false => exact Single.number_ofInt (n := 0) (by decide) (by decide)
  | true => exact Single.number_ofInt (n := 1) (by decide) (by decide)

theorem compare_boolean_float (b : Bool) (x : Single) :
    (boolean b).compare (float x) =
      .ok (some (cmp (Number.ofRat (if b then 1 else 0)) x.number)) := by
  rw [← number_ofInt_ite, ← Single.compare_eq_cmp, compare_of_not_null rfl rfl]
  rfl

/-! ### Integers and floats -/

theorem cast_integer_float (n : Int32) :
    (integer n).cast .float =
      match Single.ofIntExact? n.toInt with
      | some x => .ok (float x)
      | none => .error (.numericOverflow (Integer.toText n.toInt) .float) := by
  have hp : (integer n).IsPayload .integer := ⟨rfl, rfl⟩
  rw [cast_of_isPayload hp, if_pos (by decide), if_neg (by decide)]
  rfl

theorem castOperand_integer_float (operand : Operand) (n : Int32) :
    castOperand operand (integer n) .float =
      match Single.ofIntExact? n.toInt with
      | some x => .ok (float x)
      | none => .error (refusal operand n) := by
  rw [castOperand, cast_integer_float]
  cases Single.ofIntExact? n.toInt <;> rfl

theorem compare_integer_float (n : Int32) (x : Single) :
    (¬ Unrepresentable n ∧ (integer n).compare (float x) =
      .ok (some (cmp (Number.ofRat n.toInt) x.number))) ∨
    (Unrepresentable n ∧ (integer n).compare (float x) = .error (refusal .left n)) := by
  have hc := castOperand_integer_float .left n
  rw [compare_of_not_null rfl rfl]
  show (_ ∧ (castOperand .left (integer n) .float).map (·.order? (float x)) = _) ∨
    (_ ∧ (castOperand .left (integer n) .float).map (·.order? (float x)) = _)
  rw [hc]
  rcases Single.ofIntExact?_cases (natAbs_toInt_lt n) with ⟨y, hy, hn⟩ | ⟨hy, hn⟩
  · rw [hy, ← hn, ← Single.compare_eq_cmp]
    exact .inl ⟨not_not.mpr ⟨y, hn⟩, rfl⟩
  · rw [hy]
    exact .inr ⟨hn, rfl⟩

theorem compare_of_refused {operand : Operand} {n : Int32} {a b : Value}
    (h : Refused operand n a b) : a.compare b = .error (refusal operand n) := by
  obtain ⟨hn, x, hab⟩ := h
  have hc : (integer n).compare (float x) = .error (refusal .left n) := by
    rcases compare_integer_float n x with ⟨hr, -⟩ | ⟨-, hc⟩
    · exact absurd hn hr
    · exact hc
  cases operand with
  | left =>
    obtain ⟨rfl, rfl⟩ := hab
    exact hc
  | right =>
    obtain ⟨rfl, rfl⟩ := hab
    rw [compare_mirror (integer n) (float x), hc]
    rfl

/-! ### The order of numbers -/

theorem number?_cases {v : Value} {p : Number} (h : v.number? = some p) :
    (∃ b, v = boolean b ∧ p = .ofRat (if b then 1 else 0)) ∨
    (∃ n, v = integer n ∧ p = .ofRat n.toInt) ∨
    (∃ x, v = float x ∧ p = x.number) := by
  cases v with
  | boolean b => exact .inl ⟨b, rfl, (Option.some.inj h).symm⟩
  | integer n => exact .inr (.inl ⟨n, rfl, (Option.some.inj h).symm⟩)
  | float x => exact .inr (.inr ⟨x, rfl, (Option.some.inj h).symm⟩)
  | null kind => cases h
  | charString bytes => cases h
  | text bytes => cases h
  | date d => cases h

theorem compare_reverse {a b : Value} {p q : Number} (h : a.compare b = .ok (some (cmp p q))) :
    b.compare a = .ok (some (cmp q p)) := by
  rw [compare_mirror a b, h, ← cmp_swap p q]
  rfl

theorem compare_of_not_refused {a b : Value} {p q : Number} (ha : a.number? = some p)
    (hb : b.number? = some q) (h : ∀ operand n, ¬ Refused operand n a b) :
    a.compare b = .ok (some (cmp p q)) := by
  rcases number?_cases ha with ⟨a, rfl, rfl⟩ | ⟨m, rfl, rfl⟩ | ⟨x, rfl, rfl⟩
  · rcases number?_cases hb with ⟨b, rfl, rfl⟩ | ⟨n, rfl, rfl⟩ | ⟨y, rfl, rfl⟩
    · exact compare_boolean_boolean a b
    · exact compare_boolean_integer a n
    · exact compare_boolean_float a y
  · rcases number?_cases hb with ⟨b, rfl, rfl⟩ | ⟨n, rfl, rfl⟩ | ⟨y, rfl, rfl⟩
    · exact compare_reverse (compare_boolean_integer b m)
    · exact compare_integer_integer m n
    · rcases compare_integer_float m y with ⟨-, hc⟩ | ⟨hm, -⟩
      · exact hc
      · exact absurd ⟨hm, y, rfl, rfl⟩ (h .left m)
  · rcases number?_cases hb with ⟨b, rfl, rfl⟩ | ⟨n, rfl, rfl⟩ | ⟨y, rfl, rfl⟩
    · exact compare_reverse (compare_boolean_float b x)
    · rcases compare_integer_float n x with ⟨-, hc⟩ | ⟨hn, -⟩
      · exact compare_reverse hc
      · exact absurd ⟨hn, x, rfl, rfl⟩ (h .right n)
    · exact compare_float_float x y

theorem eq_cmp_of_compare {a b : Value} {p q : Number} {o : Ordering} (ha : a.number? = some p)
    (hb : b.number? = some q) (h : a.compare b = .ok (some o)) : o = cmp p q := by
  have hr : ∀ operand n, ¬ Refused operand n a b := by
    intro operand n hr
    rw [compare_of_refused hr] at h
    cases h
  rw [compare_of_not_refused ha hb hr] at h
  exact (Option.some.inj (Except.ok.inj h)).symm

/-- **Across truth values, integers and floats comparison is the order of the exact numbers.**  Only
an integer that no single represents is refused beside a float, on whichever side it stands.  So
where three values can be compared with each other, their order is transitive. -/
theorem compare_is_exact {a b : Value} {p q : Number} (ha : a.number? = some p)
    (hb : b.number? = some q) :
    (∀ operand n, Refused operand n a b → a.compare b = .error (.coercionFailed operand
      .integer .float (.numericOverflow (Integer.toText n.toInt) .float))) ∧
    ((∀ operand n, ¬ Refused operand n a b) → a.compare b = .ok (some (cmp p q))) ∧
    (∀ (c : Value) (r : Number) (o₁ o₂ o₃ : Ordering), c.number? = some r →
      a.compare b = .ok (some o₁) → b.compare c = .ok (some o₂) → a.compare c = .ok (some o₃) →
      o₁ ≠ .gt → o₂ ≠ .gt → o₃ ≠ .gt ∧ (o₁ = .lt ∨ o₂ = .lt → o₃ = .lt)) := by
  refine ⟨fun operand n hr => compare_of_refused hr, compare_of_not_refused ha hb, ?_⟩
  intro c r o₁ o₂ o₃ hc h₁ h₂ h₃ hle₁ hle₂
  rw [eq_cmp_of_compare ha hb h₁] at hle₁ ⊢
  rw [eq_cmp_of_compare hb hc h₂] at hle₂ ⊢
  rw [eq_cmp_of_compare ha hc h₃]
  rw [ne_eq, cmp_eq_gt_iff, not_lt] at hle₁ hle₂ ⊢
  rw [cmp_eq_lt_iff, cmp_eq_lt_iff, cmp_eq_lt_iff]
  refine ⟨le_trans hle₁ hle₂, ?_⟩
  rintro (hlt | hlt)
  · exact lt_of_lt_of_le hlt hle₂
  · exact lt_of_le_of_lt hle₁ hlt

theorem compare_is_exact_two_pow_24 :
    (integer 16777217).number? = some (.ofRat (16777217 : Int32).toInt) ∧
    (float ⟨0x4b800000⟩).number? = some (Single.mk 0x4b800000).number ∧
    Refused .left 16777217 (integer 16777217) (float ⟨0x4b800000⟩) ∧
    (integer 16777217).compare (float ⟨0x4b800000⟩) = .error (.coercionFailed .left
      .integer .float (.numericOverflow (Integer.toText (16777217 : Int32).toInt) .float)) := by
  have hn : Unrepresentable 16777217 := by
    rintro ⟨x, hx⟩
    exact absurd (Single.isExact_of_number_eq (by decide) hx) (by decide)
  have hr : Refused .left 16777217 (integer 16777217) (float ⟨0x4b800000⟩) :=
    ⟨hn, ⟨0x4b800000⟩, rfl, rfl⟩
  exact ⟨rfl, rfl, hr, (compare_is_exact rfl rfl).1 .left 16777217 hr⟩

end Datum.Value
