import Datum.Proofs.Coercion.Resolve

/-!
# Comparing the other way round

Comparing `b` with `a` gives the mirror image of comparing `a` with `b`: the reverse ordering, the
same unknown, or the same failure with its operands exchanged.  `Value.compare_mirror` is this law,
for values of all kinds.

The two comparisons take different branches.  `resolve_mirror` says that the resolver casts the same
operand in both, and so the same cast succeeds or fails, except between the two kinds of strings:
these are equally far from each other, so that each comparison casts its own left operand.  There
the casts keep the bytes and cannot fail, and bytes are ordered alike in both kinds.
-/

namespace Datum

def Coercion.mirror : Coercion → Coercion
  | same kind => same kind
  | left target => right target
  | right target => left target

def TypeError.mirror : TypeError → TypeError
  | incomparableTypes left right => incomparableTypes right left
  | coercionFailed operand source target cause =>
    coercionFailed operand.opposite source target cause
  | e => e

def mirrorOutcome : Except TypeError (Option Ordering) → Except TypeError (Option Ordering)
  | .ok o => .ok (o.map Ordering.swap)
  | .error e => .error e.mirror

@[simp] theorem Operand.opposite_opposite (operand : Operand) :
    operand.opposite.opposite = operand := by
  cases operand <;> rfl

@[simp] theorem TypeError.mirror_mirror (e : TypeError) : e.mirror.mirror = e := by
  cases e with
  | coercionFailed operand source target cause =>
    exact congrArg (coercionFailed · source target cause) operand.opposite_opposite
  | _ => rfl

@[simp] theorem mirrorOutcome_mirrorOutcome (x : Except TypeError (Option Ordering)) :
    mirrorOutcome (mirrorOutcome x) = x := by
  cases x with
  | error e => simp only [mirrorOutcome, TypeError.mirror_mirror]
  | ok o => cases o <;> simp [mirrorOutcome]

/-! ### The resolver -/

/-- **The resolver casts the same operand, whichever comes first**, unless both are strings. -/
theorem resolve_mirror {k l : Kind} (h : k = l ∨ ¬ (k.isString = true ∧ l.isString = true)) :
    resolve l k = ((resolve k l).map Coercion.mirror).mapError TypeError.mirror := by
  cases k <;> cases l <;> first | rfl | exact absurd h (by decide)

namespace Value

theorem castOperand_opposite (operand : Operand) (v : Value) (target : Kind) :
    castOperand operand.opposite v target =
      (castOperand operand v target).mapError TypeError.mirror := by
  unfold castOperand
  cases v.cast target <;> rfl

theorem castOperand_right (v : Value) (target : Kind) :
    castOperand .right v target = (castOperand .left v target).mapError TypeError.mirror :=
  castOperand_opposite .left v target

theorem castOperand_left (v : Value) (target : Kind) :
    castOperand .left v target = (castOperand .right v target).mapError TypeError.mirror :=
  castOperand_opposite .right v target

/-- Between the two kinds of strings the bytes are compared, whichever operand is cast. -/
theorem compare_charString_text (bs cs : List UInt8) :
    (charString bs).compare (text cs) = .ok (some (compareBytes bs cs)) ∧
      (text cs).compare (charString bs) = .ok (some (compareBytes cs bs)) := by
  constructor
  · rw [compare_of_not_null rfl rfl]
    rfl
  · rw [compare_of_not_null rfl rfl]
    rfl

theorem strings_of_kinds {a b : Value} (ha : a.isNull = false) (hb : b.isNull = false)
    (hne : a.kind ≠ b.kind) (hs : a.kind.isString = true ∧ b.kind.isString = true) :
    (∃ bs cs, a = charString bs ∧ b = text cs) ∨ (∃ bs cs, a = text bs ∧ b = charString cs) := by
  obtain ⟨hs, ht⟩ := hs
  cases a with
  | charString bs =>
    cases b with
    | text cs => exact .inl ⟨bs, cs, rfl, rfl⟩
    | charString cs => exact absurd rfl hne
    | null kind => cases hb
    | integer n | float x | date d | boolean b => cases ht
  | text bs =>
    cases b with
    | charString cs => exact .inr ⟨bs, cs, rfl, rfl⟩
    | text cs => exact absurd rfl hne
    | null kind => cases hb
    | integer n | float x | date d | boolean b => cases ht
  | null kind => cases ha
  | integer n | float x | date d | boolean b => cases hs

/-- **The mirror law of comparison**: with the operands exchanged, the outcome is the mirror
image. -/
theorem compare_mirror (a b : Value) : b.compare a = mirrorOutcome (a.compare b) := by
  by_cases hn : a.isNull = true ∨ b.isNull = true
  · rw [compare, compare, if_pos hn, if_pos hn.symm]
    rfl
  obtain ⟨ha, hb⟩ : a.isNull = false ∧ b.isNull = false := by simpa using hn
  by_cases hs : a.kind = b.kind ∨ ¬ (a.kind.isString = true ∧ b.kind.isString = true)
  · rw [compare_of_not_null ha hb, compare_of_not_null hb ha, resolve_mirror hs]
    rcases resolve_cases a.kind b.kind with ⟨-, hr⟩ | ⟨-, hr⟩ | ⟨-, hr⟩ | ⟨-, hr⟩
    · rw [hr]
      exact congrArg Except.ok (order?_swap a b).symm
    · -- the left operand is cast here, so it is the right one there
      rw [hr]
      show (castOperand .right a b.kind).map (b.order? ·) =
        mirrorOutcome ((castOperand .left a b.kind).map (·.order? b))
      rw [castOperand_right]
      cases castOperand .left a b.kind with
      | error e => rfl
      | ok w => exact congrArg Except.ok (order?_swap w b).symm
    · rw [hr]
      show (castOperand .left b a.kind).map (·.order? a) =
        mirrorOutcome ((castOperand .right b a.kind).map (a.order? ·))
      rw [castOperand_left]
      cases castOperand .right b a.kind with
      | error e => rfl
      | ok w => exact congrArg Except.ok (order?_swap a w).symm
    · rw [hr]
      rfl
  · obtain ⟨hne, hstr⟩ := not_or.mp hs
    rcases strings_of_kinds ha hb hne (Classical.not_not.mp hstr) with
      ⟨bs, cs, rfl, rfl⟩ | ⟨bs, cs, rfl, rfl⟩
    · obtain ⟨h₁, h₂⟩ := compare_charString_text bs cs
      rw [h₁, h₂, ← compareBytes_swap]
      rfl
    · obtain ⟨h₁, h₂⟩ := compare_charString_text cs bs
      rw [h₁, h₂, ← compareBytes_swap]
      rfl

/-- **Comparison is mirror symmetric, failures included.** -/
theorem compare_mirror_symmetric (a b : Value) :
    (a.compare b = .ok none ↔ b.compare a = .ok none) ∧
    (∀ o : Ordering, a.compare b = .ok (some o) ↔ b.compare a = .ok (some o.swap)) ∧
    (∀ x y : Kind, a.compare b = .error (.incomparableTypes x y) ↔
      b.compare a = .error (.incomparableTypes y x)) ∧
    (∀ (operand : Operand) (source target : Kind) (cause : TypeError),
      a.compare b = .error (.coercionFailed operand source target cause) ↔
        b.compare a = .error (.coercionFailed operand.opposite source target cause)) := by
  have mirrored : ∀ x, a.compare b = x ↔ b.compare a = mirrorOutcome x := by
    intro x
    rw [compare_mirror a b]
    constructor
    · intro h
      rw [h]
    · intro h
      rw [← mirrorOutcome_mirrorOutcome (a.compare b), h, mirrorOutcome_mirrorOutcome]
  exact ⟨mirrored _, fun o => mirrored _, fun x y => mirrored _,
    fun operand source target cause => mirrored _⟩

end Value

end Datum
