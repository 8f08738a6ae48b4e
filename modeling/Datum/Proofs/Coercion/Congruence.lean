import Datum.Proofs.Coercion.Alike
import Datum.Proofs.Value.Grouping

/-!
# Equal values in the place of each other

Structural equality joins values that are not the same, but only among floats: the two zeros, and
all NaNs (`Value.eq_or_floats_of_equals`).  These have different texts, so that a cast can tell them
apart.  Comparing and choosing cannot, since the resolver never casts a float: beside a float it
casts the other operand or none, whatever number the float is (`Value.coerce_float_congr`), and the
order of floats is the order of their numbers (`Value.order?_congr`).
-/

namespace Datum

variable {a b c v v' w w' : Value} {x y : Single}

theorem Single.compare_congr {x' y' : Single} (hx : x.compare x' = .eq)
    (hy : y.compare y' = .eq) : x.compare y = x'.compare y' := by
  rw [compare_eq_cmp, cmp_eq_eq_iff] at hx hy
  rw [compare_eq_cmp, compare_eq_cmp, hx, hy]

namespace Value

theorem eq_or_floats_of_equals (h : a.equals b = true) :
    a = b ∨ ∃ x y, a = float x ∧ b = float y ∧ x.compare y = .eq := by
  cases a with
  | float x =>
    cases b with
    | float y => exact .inr ⟨x, y, rfl, rfl, of_decide_eq_true h⟩
    | _ => cases h
  | null k =>
    cases b with
    | null l => exact .inl (congrArg null (of_decide_eq_true h))
    | _ => cases h
  | integer m =>
    cases b with
    | integer n => exact .inl (congrArg integer (of_decide_eq_true h))
    | _ => cases h
  | charString bs =>
    cases b with
    | charString cs => exact .inl (congrArg charString (of_decide_eq_true h))
    | _ => cases h
  | text bs =>
    cases b with
    | text cs => exact .inl (congrArg text (of_decide_eq_true h))
    | _ => cases h
  | date d =>
    cases b with
    | date e => exact .inl (congrArg date (of_decide_eq_true h))
    | _ => cases h
  | boolean p =>
    cases b with
    | boolean q => exact .inl (congrArg boolean (of_decide_eq_true h))
    | _ => cases h

/-! ### Two values of one kind -/

theorem order?_congr (hv : v.equals v' = true) (hw : w.equals w' = true) :
    v.order? w = v'.order? w' := by
  rcases eq_or_floats_of_equals hv with rfl | ⟨x, x', rfl, rfl, hx⟩
  · rcases eq_or_floats_of_equals hw with rfl | ⟨y, y', rfl, rfl, hy⟩
    · rfl
    · cases v with
      | float x => exact congrArg some (Single.compare_congr x.compare_self hy)
      | _ => rfl
  · rcases eq_or_floats_of_equals hw with rfl | ⟨y, y', rfl, rfl, hy⟩
    · cases w with
      | float y => exact congrArg some (Single.compare_congr hx y.compare_self)
      | _ => rfl
    · exact congrArg some (Single.compare_congr hx hy)

end Value

theorem Extremum.choose_congr (x : Extremum) (hv : v.equals v' = true)
    (hw : w.equals w' = true) : (x.choose v w).equals (x.choose v' w') = true := by
  unfold choose
  rw [Value.order?_congr hv hw]
  split
  · exact hw
  · exact hv

namespace Value

/-! ### Coercion -/

/-- Operands in the common kind that are equal side by side. -/
def EqualPairs (p q : Coerced × Coerced) : Prop :=
  p.1.value.equals q.1.value = true ∧ p.2.value.equals q.2.value = true

/-- **A float is left as it is, and what becomes of the other operand does not depend on it.** -/
theorem coerce_float_congr (h : x.compare y = .eq) (hc : c.isNull = false) :
    Alike Eq EqualPairs ((float x).coerce c) ((float y).coerce c) := by
  have hxy : (float x).equals (float y) = true := decide_eq_true h
  rcases resolve_choice (k := .float) nofun (kind_ne_null hc) with
    ⟨-, hr⟩ | ⟨-, ⟨-, hr⟩ | ⟨-, -, hq⟩ | ⟨-, hr, -⟩⟩
  · have hx := coerce_of_error (a := float x) hr
    have hy := coerce_of_error (a := float y) hr
    rw [hx, hy]
    exact .error rfl
  · have hx := coerce_of_same (a := float x) hr
    have hy := coerce_of_same (a := float y) hr
    rw [hx, hy]
    exact .ok ⟨hxy, equals_refl c⟩
  · exact absurd rfl hq.2.1
  · have hx := coerce_of_right (a := float x) hr
    have hy := coerce_of_right (a := float y) hr
    rw [hx, hy]
    cases castOperand .right c .float with
    | error e => exact .error rfl
    | ok w => exact .ok ⟨hxy, equals_refl w⟩

theorem coerce_float_congr_right (h : x.compare y = .eq) (hc : c.isNull = false) :
    Alike Eq EqualPairs (c.coerce (float x)) (c.coerce (float y)) := by
  -- A float is no string, so the operands can be exchanged.
  have hs : ∀ z, (float z).kind = c.kind ∨
      ¬ ((float z).kind.isString = true ∧ c.kind.isString = true) := fun z => .inr nofun
  have hm := alike_mirror (coerce_float_congr h hc) (fun _ _ => congrArg _) (hs x) (hs y)
  exact hm.mono fun _ _ hpq => hpq.symm

theorem compare_eq_of_coerce_alike {a' b' : Value} (ha : a.isNull = false) (hb : b.isNull = false)
    (ha' : a'.isNull = false) (hb' : b'.isNull = false)
    (h : Alike Eq EqualPairs (a.coerce b) (a'.coerce b')) : a.compare b = a'.compare b' := by
  have hc := compare_alike ha hb ha' hb' h fun _ _ hpq => order?_congr hpq.1 hpq.2
  exact (hc.mono fun _ _ => SameOrder.eq).eq

theorem ofValues_alike_of_coerce_alike (e : Extremum) {a' b' : Value} (ha : a.isNull = false)
    (hb : b.isNull = false) (ha' : a'.isNull = false) (hb' : b'.isNull = false)
    (h : Alike Eq EqualPairs (a.coerce b) (a'.coerce b')) :
    Alike Eq (fun v w => v.equals w = true) (e.ofValues a b) (e.ofValues a' b') :=
  e.ofValues_alike ha hb ha' hb' h fun _ _ hpq => e.choose_congr hpq.1 hpq.2

/-- **Equal operands cannot be told apart.**  Beside any third value, and on either side of it, they
compare with the same outcome, failures included, and the smaller and the larger value are equal or
fail alike. -/
theorem equal_operands_indistinguishable (h : a.equals b = true) (c : Value) :
    a.compare c = b.compare c ∧ c.compare a = c.compare b ∧
    ∀ e : Extremum,
      Alike Eq (fun v w => v.equals w = true) (e.ofValues a c) (e.ofValues b c) ∧
      Alike Eq (fun v w => v.equals w = true) (e.ofValues c a) (e.ofValues c b) := by
  rcases eq_or_floats_of_equals h with rfl | ⟨x, y, rfl, rfl, hxy⟩
  · have hself : ∀ o, Alike Eq (fun v w : Value => v.equals w = true) o o :=
      Alike.refl (fun _ : TypeError => rfl) equals_refl
    exact ⟨rfl, rfl, fun e => ⟨hself _, hself _⟩⟩
  cases hc : c.isNull with
  | true =>
    have hright : ∀ v : Value, v.isNull = true ∨ c.isNull = true := fun _ => .inr hc
    have hleft : ∀ v : Value, c.isNull = true ∨ v.isNull = true := fun _ => .inl hc
    refine ⟨?_, ?_, fun e => ⟨?_, ?_⟩⟩
    · rw [compare, compare, if_pos (hright _), if_pos (hright _)]
    · rw [compare, compare, if_pos (hleft _), if_pos (hleft _)]
    · rw [e.ofValues_of_isNull (hright _), e.ofValues_of_isNull (hright _)]
      exact .ok (equals_refl c)
    · rw [e.ofValues_of_isNull (hleft _), e.ofValues_of_isNull (hleft _)]
      simp only [Behavior.nullOperand, hc, if_true]
      exact .ok (equals_refl c)
  | false =>
    have hl := coerce_float_congr hxy hc
    have hr := coerce_float_congr_right hxy hc
    exact ⟨compare_eq_of_coerce_alike rfl hc rfl hc hl, compare_eq_of_coerce_alike hc rfl hc rfl hr,
      fun e => ⟨ofValues_alike_of_coerce_alike e rfl hc rfl hc hl,
        ofValues_alike_of_coerce_alike e hc rfl hc rfl hr⟩⟩

/-- The two zeros beside a string that reads as zero, and two NaNs beside an integer that no float
represents. -/
theorem equal_operands_indistinguishable_at_edges :
    ((float ⟨0x80000000⟩).equals (float ⟨0⟩) = true ∧
      (float ⟨0x80000000⟩).compare (text [0x30]) = (float ⟨0⟩).compare (text [0x30]) ∧
      Alike Eq (fun v w => v.equals w = true) ((float ⟨0x80000000⟩).min (text [0x30]))
        ((float ⟨0⟩).min (text [0x30]))) ∧
    ((float ⟨0x7fc00000⟩).equals (float ⟨0xffc00001⟩) = true ∧
      (integer 16777217).compare (float ⟨0x7fc00000⟩) =
        (integer 16777217).compare (float ⟨0xffc00001⟩)) := by
  have hzeros : (float ⟨0x80000000⟩).equals (float ⟨0⟩) = true := by decide
  have hnans : (float ⟨0x7fc00000⟩).equals (float ⟨0xffc00001⟩) = true := by decide
  obtain ⟨hcompare, -, hchoose⟩ := equal_operands_indistinguishable hzeros (text [0x30])
  exact ⟨⟨hzeros, hcompare, (hchoose .least).1⟩, hnans,
    (equal_operands_indistinguishable hnans (integer 16777217)).2.1⟩

end Value

end Datum
