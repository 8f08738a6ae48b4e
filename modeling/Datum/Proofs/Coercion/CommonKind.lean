import Datum.Proofs.Behavior.Failure
import Datum.Proofs.Coercion.Extremum
import Datum.Proofs.Coercion.Numbers

/-!
# Bringing two values to a common kind

The resolver asks only for casts that exist and lose nothing (`Requested`): strings are read as
literals, truth values become numbers, and integers floats.  It finds nothing in common only between
dates and numbers or truth values (`resolve_choice`).

So coercion has three outcomes.  The kinds have nothing in common, or both values come out in the
common kind, or the payload of the one operand that was cast does not allow it
(`CoercionOutcome`, `Value.coerce_outcome`).  Comparing and choosing add no failures of their own.
-/

namespace Datum

/-! ### The choices of the resolver -/

def Coercion.operand? : Coercion → Option Operand
  | same _ => none
  | left _ => some .left
  | right _ => some .right

def Operand.pick {α : Type} : Operand → α → α → α
  | left, a, _ => a
  | right, _, b => b

/-- A date on one side and a number or a truth value on the other. -/
def Incomparable (k l : Kind) : Prop :=
  (k = .date ∧ (l = .integer ∨ l = .float ∨ l = .boolean)) ∨
    (l = .date ∧ (k = .integer ∨ k = .float ∨ k = .boolean))

instance (k l : Kind) : Decidable (Incomparable k l) :=
  inferInstanceAs (Decidable (_ ∨ _))

/-- The casts that the resolver asks for.  They exist, and none is from a float or a date; integers
are cast to floats and truth values to numbers. -/
def Requested (source target : Kind) : Prop :=
  (castCost source target).isReachable = true ∧ source ≠ .float ∧ source ≠ .date ∧
    (source = .integer → target = .float) ∧
    (source = .boolean → target = .integer ∨ target = .float)

instance (source target : Kind) : Decidable (Requested source target) :=
  inferInstanceAs (Decidable (_ ∧ _))

/-- What the resolver chooses between the kinds of two values that are not null. -/
theorem resolve_choice {k l : Kind} (hk : k ≠ .null) (hl : l ≠ .null) :
    (Incomparable k l ∧ resolve k l = .error (.incomparableTypes k l)) ∨
    (¬ Incomparable k l ∧
      ((k = l ∧ resolve k l = .ok (.same k)) ∨
        (k ≠ l ∧ resolve k l = .ok (.left l) ∧ Requested k l) ∨
        (k ≠ l ∧ resolve k l = .ok (.right k) ∧ Requested l k))) := by
  -- The rule looks at nothing but the costs, so its table of 36 pairs is the proof.
  revert hk hl
  cases k <;> cases l <;> decide

theorem Incomparable.isString_eq_false {k l : Kind} (h : Incomparable k l) :
    k.isString = false ∨ l.isString = false := by
  rcases h with ⟨rfl, -⟩ | ⟨rfl, -⟩
  · exact .inl rfl
  · exact .inr rfl

theorem target_of_resolve {k l : Kind} {c : Coercion} (h : resolve k l = .ok c) :
    c.target = k ∨ c.target = l := by
  rcases resolve_cases k l with ⟨-, hr⟩ | ⟨-, hr⟩ | ⟨-, hr⟩ | ⟨-, hr⟩
  · rw [hr] at h
    obtain rfl := Except.ok.inj h
    exact .inl rfl
  · rw [hr] at h
    obtain rfl := Except.ok.inj h
    exact .inr rfl
  · rw [hr] at h
    obtain rfl := Except.ok.inj h
    exact .inl rfl
  · rw [hr] at h
    cases h

namespace Value

theorem kind_ne_null {v : Value} (h : v.isNull = false) : v.kind ≠ .null := by
  cases v with
  | null kind => cases h
  | _ => exact nofun

/-! ### The operand that is cast -/

/-- Nothing of a value is lost in another: its exact number is the same, and so are its bytes if the
other is a string, too. -/
def KeptIn (v w : Value) : Prop :=
  (∀ p, v.number? = some p → w.number? = some p) ∧
    (∀ bs cs, v.bytes? = some bs → w.bytes? = some cs → bs = cs)

theorem keptIn_self (v : Value) : v.KeptIn v :=
  ⟨fun _ => id, fun _ _ h h' => Option.some.inj (h.symm.trans h')⟩

theorem bytes?_convertBytes {source target : Kind} {bs cs : List UInt8} {w : Value}
    (h : convertBytes source bs target = .ok w) (hw : w.bytes? = some cs) : bs = cs := by
  have hp := isPayload_convertBytes h
  cases target with
  | charString | text =>
    obtain rfl := Except.ok.inj h
    exact Option.some.inj hw
  | null => cases h
  | integer | float | date | boolean =>
    obtain ⟨_, rfl⟩ := form_of_isPayload hp
    cases hw

theorem keptIn_of_number {v w : Value} (hv : v.bytes? = none)
    (h : ∀ p, v.number? = some p → w.number? = some p) : v.KeptIn w := by
  refine ⟨h, fun bs cs hbs _ => ?_⟩
  rw [hv] at hbs
  cases hbs

theorem keptIn_of_bytes {v w : Value} (hv : v.number? = none)
    (h : ∀ bs cs, v.bytes? = some bs → w.bytes? = some cs → bs = cs) : v.KeptIn w := by
  refine ⟨fun p hp => ?_, h⟩
  rw [hv] at hp
  cases hp

/-- **A cast that the resolver asks for loses nothing.** -/
theorem keptIn_of_convert {v w : Value} {target : Kind} (hr : Requested v.kind target)
    (h : v.convert target = .ok w) : v.KeptIn w := by
  obtain ⟨-, hfloat, hdate, hinteger, hboolean⟩ := hr
  cases v with
  | null kind => cases h
  | float x => exact absurd rfl hfloat
  | date d => exact absurd rfl hdate
  | integer n =>
    refine keptIn_of_number rfl fun p hp => ?_
    obtain rfl := Option.some.inj hp
    obtain rfl := hinteger rfl
    simp only [convert, convertInteger] at h
    rcases Single.ofIntExact?_cases (natAbs_toInt_lt n) with ⟨x, hx, hn⟩ | ⟨hx, -⟩
    · rw [hx] at h
      obtain rfl := Except.ok.inj h
      exact congrArg some hn
    · rw [hx] at h
      cases h
  | boolean b =>
    refine keptIn_of_number rfl fun p hp => ?_
    obtain rfl := Option.some.inj hp
    rcases hboolean rfl with rfl | rfl
    · obtain rfl := Except.ok.inj h
      exact congrArg (fun q => some (Number.ofRat q)) (cast_toInt_ite b)
    · obtain rfl := Except.ok.inj h
      exact congrArg some (number_ofInt_ite b)
  | charString bytes | text bytes =>
    refine keptIn_of_bytes rfl fun bs cs hbs hcs => ?_
    obtain rfl := Option.some.inj hbs
    exact bytes?_convertBytes h hcs

theorem castOperand_cases {v : Value} {target : Kind} (operand : Operand) (hv : v.isNull = false)
    (hk : v.kind ≠ target) (hr : Requested v.kind target) :
    (∃ w, castOperand operand v target = .ok w ∧ w.IsPayload target ∧ v.KeptIn w) ∨
    (∃ cause, castOperand operand v target = .error (.coercionFailed operand v.kind target cause) ∧
      ConversionFault v.kind target cause) := by
  cases hc : v.cast target with
  | ok w =>
    have hw := isPayload_cast hv hc
    have hconvert := hc
    rw [cast_of_isPayload ⟨hv, rfl⟩, if_pos hr.1, if_neg hk.symm] at hconvert
    refine .inl ⟨w, ?_, hw, keptIn_of_convert hr hconvert⟩
    rw [castOperand, hc]
    rfl
  | error cause =>
    refine .inr ⟨cause, ?_, conversionFault_of_cast hv hr.1 hc⟩
    rw [castOperand, hc]
    rfl

/-! ### Both operands -/

theorem coerce_of_same {a b : Value} {kind : Kind}
    (h : resolve a.kind b.kind = .ok (.same kind)) : a.coerce b = .ok (⟨a, false⟩, ⟨b, false⟩) := by
  rw [coerce, h]
  rfl

theorem coerce_of_isPayload {v w : Value} {kind : Kind} (hv : v.IsPayload kind)
    (hw : w.IsPayload kind) : v.coerce w = .ok (⟨v, false⟩, ⟨w, false⟩) := by
  have hr : resolve v.kind w.kind = .ok (.same v.kind) := if_pos (hv.2.trans hw.2.symm)
  exact coerce_of_same hr

theorem coerce_of_left {a b : Value} {target : Kind}
    (h : resolve a.kind b.kind = .ok (.left target)) :
    a.coerce b = (castOperand .left a target).map fun w => (⟨w, true⟩, ⟨b, false⟩) := by
  rw [coerce, h]
  show (castOperand .left a target >>= _) = _
  cases castOperand .left a target <;> rfl

theorem coerce_of_right {a b : Value} {target : Kind}
    (h : resolve a.kind b.kind = .ok (.right target)) :
    a.coerce b = (castOperand .right b target).map fun w => (⟨a, false⟩, ⟨w, true⟩) := by
  rw [coerce, h]
  show (castOperand .right b target >>= _) = _
  cases castOperand .right b target <;> rfl

theorem coerce_of_error {a b : Value} {e : TypeError} (h : resolve a.kind b.kind = .error e) :
    a.coerce b = .error e := by
  rw [coerce, h]
  rfl

end Value

/-- What a value has become as an operand in the common kind: itself if it was of that kind, and
otherwise a value of that kind in which nothing of it is lost. -/
structure Coerced.StandsFor (x : Coerced) (v : Value) (target : Kind) : Prop where
  isPayload : x.value.IsPayload target
  eq_self : v.kind = target → x = ⟨v, false⟩
  keptIn : v.KeptIn x.value

theorem Coerced.standsFor_self {v : Value} {target : Kind} (h : v.IsPayload target) :
    StandsFor ⟨v, false⟩ v target :=
  ⟨h, fun _ => rfl, v.keptIn_self⟩

theorem Coerced.standsFor_cast {v w : Value} {target : Kind} (hk : v.kind ≠ target)
    (hw : w.IsPayload target) (h : v.KeptIn w) : StandsFor ⟨w, true⟩ v target :=
  ⟨hw, fun he => absurd he hk, h⟩

/-- The outcomes of bringing two values to a common kind after a choice of the resolver.  Either
both stand in the common kind, and the operand that was chosen is the one that was cast, or its
payload did not allow the cast. -/
inductive CoercionOutcome (a b : Value) (c : Coercion) :
    Except TypeError (Coerced × Coerced) → Prop
  | ok {l r : Coerced} (hl : l.StandsFor a c.target) (hr : r.StandsFor b c.target)
    (hleft : l.isCast = true ↔ c.operand? = some .left)
    (hright : r.isCast = true ↔ c.operand? = some .right) : CoercionOutcome a b c (.ok (l, r))
  | error {operand : Operand} {cause : TypeError} (ho : c.operand? = some operand)
    (h : ConversionFault (operand.pick a b).kind c.target cause) :
    CoercionOutcome a b c
      (.error (.coercionFailed operand (operand.pick a b).kind c.target cause))

theorem CoercionOutcome.ok_of_not_fault {a b : Value} {c : Coercion}
    {x : Except TypeError (Coerced × Coerced)} (h : CoercionOutcome a b c x)
    (hf : ∀ operand cause, c.operand? = some operand →
      ¬ ConversionFault (operand.pick a b).kind c.target cause) : ∃ l r, x = .ok (l, r) := by
  cases h with
  | @ok l r => exact ⟨l, r, rfl⟩
  | @error operand cause ho h => exact absurd h (hf operand cause ho)

namespace Value

/-- **Coercion finds the kinds incomparable, or has one of the outcomes of a choice.** -/
theorem coerce_outcome {a b : Value} (ha : a.isNull = false) (hb : b.isNull = false) :
    (Incomparable a.kind b.kind ∧ a.coerce b = .error (.incomparableTypes a.kind b.kind)) ∨
    (¬ Incomparable a.kind b.kind ∧ ∃ c, resolve a.kind b.kind = .ok c ∧
      CoercionOutcome a b c (a.coerce b) ∧
      ∀ operand, c.operand? = some operand →
        Requested (operand.pick a b).kind (operand.opposite.pick a b).kind) := by
  rcases resolve_choice (kind_ne_null ha) (kind_ne_null hb) with
    ⟨hi, hr⟩ | ⟨hi, ⟨hk, hr⟩ | ⟨hk, hr, hq⟩ | ⟨hk, hr, hq⟩⟩
  · exact .inl ⟨hi, coerce_of_error hr⟩
  · refine .inr ⟨hi, _, hr, ?_, nofun⟩
    rw [coerce_of_same hr]
    exact .ok (Coerced.standsFor_self ⟨ha, rfl⟩) (Coerced.standsFor_self ⟨hb, hk.symm⟩)
      (iff_of_false nofun nofun) (iff_of_false nofun nofun)
  · refine .inr ⟨hi, _, hr, ?_, ?_⟩
    · rw [coerce_of_left hr]
      rcases castOperand_cases .left ha hk hq with ⟨w, hw, hp, hkept⟩ | ⟨cause, hw, hf⟩
      · rw [hw]
        exact .ok (Coerced.standsFor_cast hk hp hkept) (Coerced.standsFor_self ⟨hb, rfl⟩)
          (iff_of_true rfl rfl) (iff_of_false nofun nofun)
      · rw [hw]
        exact .error rfl hf
    · rintro operand h
      obtain rfl := Option.some.inj h
      exact hq
  · refine .inr ⟨hi, _, hr, ?_, ?_⟩
    · rw [coerce_of_right hr]
      rcases castOperand_cases .right hb (Ne.symm hk) hq with ⟨w, hw, hp, hkept⟩ | ⟨cause, hw, hf⟩
      · rw [hw]
        exact .ok (Coerced.standsFor_self ⟨ha, rfl⟩) (Coerced.standsFor_cast (Ne.symm hk) hp hkept)
          (iff_of_false nofun nofun) (iff_of_true rfl rfl)
      · rw [hw]
        exact .error rfl hf
    · rintro operand h
      obtain rfl := Option.some.inj h
      exact hq

/-! ### Comparing and choosing -/

theorem isPayload_of_coerce {a b : Value} {l r : Coerced} (ha : a.isNull = false)
    (hb : b.isNull = false) (h : a.coerce b = .ok (l, r)) :
    ∃ c, resolve a.kind b.kind = .ok c ∧ l.value.IsPayload c.target ∧
      r.value.IsPayload c.target := by
  rcases coerce_outcome ha hb with ⟨-, he⟩ | ⟨-, c, hr, ho, -⟩
  · rw [he] at h
    cases h
  · rw [h] at ho
    cases ho with
    | ok hl hr' => exact ⟨c, hr, hl.isPayload, hr'.isPayload⟩

theorem compare_eq_coerce_bind {a b : Value} (ha : a.isNull = false) (hb : b.isNull = false) :
    a.compare b = (do
      let (l, r) ← a.coerce b
      Behavior.compare l.value.kind l.value r.value) := by
  have hn : ¬ (a.isNull = true ∨ b.isNull = true) := by simp [ha, hb]
  exact if_neg hn

theorem compare_of_coerce {a b : Value} {l r : Coerced} (ha : a.isNull = false)
    (hb : b.isNull = false) (h : a.coerce b = .ok (l, r)) :
    a.compare b = .ok (l.value.order? r.value) := by
  obtain ⟨c, -, hl, hr⟩ := isPayload_of_coerce ha hb h
  rw [compare_eq_coerce_bind ha hb, h, ok_bind]
  show Behavior.compare l.value.kind _ _ = _
  rw [hl.2]
  exact Behavior.compare_of_isPayload hl hr

theorem compare_of_coerce_error {a b : Value} {e : TypeError} (ha : a.isNull = false)
    (hb : b.isNull = false) (h : a.coerce b = .error e) : a.compare b = .error e := by
  rw [compare_eq_coerce_bind ha hb, h, error_bind]

end Value

theorem Extremum.ofValues_of_coerce (x : Extremum) {a b : Value} {l r : Coerced}
    (ha : a.isNull = false) (hb : b.isNull = false) (h : a.coerce b = .ok (l, r)) :
    x.ofValues a b = .ok (x.choose l.value r.value) := by
  obtain ⟨c, -, hl, hr⟩ := Value.isPayload_of_coerce ha hb h
  rw [x.ofValues_eq_coerce_bind ha hb, h, ok_bind]
  show x.ofKind l.value.kind _ _ = _
  rw [hl.2]
  exact x.ofKind_of_isPayload hl hr

theorem Extremum.ofValues_of_coerce_error (x : Extremum) {a b : Value} {e : TypeError}
    (ha : a.isNull = false) (hb : b.isNull = false) (h : a.coerce b = .error e) :
    x.ofValues a b = .error e := by
  rw [x.ofValues_eq_coerce_bind ha hb, h, error_bind]

namespace Value

/-- **Comparing fails exactly where coercion does**, and not at all beside a null. -/
theorem compare_eq_error_iff (a b : Value) (e : TypeError) :
    a.compare b = .error e ↔ a.isNull = false ∧ b.isNull = false ∧ a.coerce b = .error e := by
  cases ha : a.isNull with
  | true => simp [compare, ha]
  | false =>
    cases hb : b.isNull with
    | true => simp [compare, hb]
    | false =>
      cases hc : a.coerce b with
      | error e' => simp [compare_of_coerce_error ha hb hc]
      | ok lr => simp [compare_of_coerce ha hb hc]

end Value

/-- **Choosing fails exactly where coercion does**, and not at all beside a null. -/
theorem Extremum.ofValues_eq_error_iff (x : Extremum) (a b : Value) (e : TypeError) :
    x.ofValues a b = .error e ↔ a.isNull = false ∧ b.isNull = false ∧ a.coerce b = .error e := by
  cases ha : a.isNull with
  | true => simp [x.ofValues_of_isNull (.inl ha)]
  | false =>
    cases hb : b.isNull with
    | true => simp [x.ofValues_of_isNull (.inr hb)]
    | false =>
      cases hc : a.coerce b with
      | error e' => simp [x.ofValues_of_coerce_error ha hb hc]
      | ok lr => simp [x.ofValues_of_coerce ha hb hc]

namespace Value

/-- **The failures of coercion.**  Dates have no common kind with numbers and truth values, and
nothing else fails over its kinds.  Elsewhere the outcome is that of a choice: a float or a date is
never cast, an integer only to a float, and a failure is that of the one operand that was cast, over
its payload.  Truth values can always be cast, and two strings always be brought together.
Comparing and choosing fail exactly where coercion does. -/
theorem coercion_failures :
    (∀ a b : Value, a.isNull = false → b.isNull = false →
      (∀ k l, a.coerce b = .error (.incomparableTypes k l) ↔
        Incomparable a.kind b.kind ∧ k = a.kind ∧ l = b.kind) ∧
      (¬ Incomparable a.kind b.kind → ∃ c, resolve a.kind b.kind = .ok c ∧
        CoercionOutcome a b c (a.coerce b) ∧
        ∀ operand, c.operand? = some operand →
          (operand.pick a b).kind ≠ .float ∧ (operand.pick a b).kind ≠ .date ∧
          ((operand.pick a b).kind = .integer → (operand.opposite.pick a b).kind = .float) ∧
          ((operand.pick a b).kind = .boolean → ∃ l r, a.coerce b = .ok (l, r))) ∧
      (a.kind.isString = true → b.kind.isString = true → ∃ l r, a.coerce b = .ok (l, r))) ∧
    (∀ (a b : Value) (e : TypeError),
      (a.compare b = .error e ↔ a.isNull = false ∧ b.isNull = false ∧ a.coerce b = .error e) ∧
      (a.min b = .error e ↔ a.isNull = false ∧ b.isNull = false ∧ a.coerce b = .error e) ∧
      (a.max b = .error e ↔ a.isNull = false ∧ b.isNull = false ∧ a.coerce b = .error e)) := by
  refine ⟨fun a b ha hb => ?_, fun a b e => ?_⟩
  · rcases coerce_outcome ha hb with ⟨hi, he⟩ | ⟨hi, c, hr, ho, hq⟩
    · refine ⟨fun k l => ?_, fun h => absurd hi h, fun hsa hsb => ?_⟩
      · simp [he, hi, eq_comm]
      · rcases hi.isString_eq_false with h | h
        · exact absurd hsa (by simp [h])
        · exact absurd hsb (by simp [h])
    · refine ⟨fun k l => iff_of_false ?_ (hi ·.1),
        fun _ => ⟨c, hr, ho, fun operand hop => ?_⟩, fun hsa hsb => ?_⟩
      · intro he
        rw [he] at ho
        cases ho
      · obtain ⟨-, hfloat, hdate, hinteger, -⟩ := hq operand hop
        refine ⟨hfloat, hdate, hinteger, fun hboolean => ?_⟩
        apply ho.ok_of_not_fault
        intro operand' cause hop'
        obtain rfl : operand = operand' := Option.some.inj (hop.symm.trans hop')
        rw [hboolean]
        exact not_conversionFault_boolean
      · have hs : c.target.isString = true := by
          rcases target_of_resolve hr with ht | ht <;> rw [ht] <;> assumption
        exact ho.ok_of_not_fault fun _ _ _ => not_conversionFault_of_isString hs
  · exact ⟨compare_eq_error_iff a b e, Extremum.ofValues_eq_error_iff .least a b e,
      Extremum.ofValues_eq_error_iff .greatest a b e⟩

/-- An integer that no float represents, two strings of different kinds, and a date beside a truth
value. -/
theorem coercion_failures_at_edges :
    ((integer 16777217).isNull = false ∧ (float ⟨0x4b800000⟩).isNull = false ∧
      ¬ Incomparable .integer .float ∧
      ∃ c, resolve .integer .float = .ok c ∧ CoercionOutcome (integer 16777217)
        (float ⟨0x4b800000⟩) c ((integer 16777217).coerce (float ⟨0x4b800000⟩))) ∧
    ((charString [0xff]).isNull = false ∧ (text [0]).isNull = false ∧
      ∃ l r, (charString [0xff]).coerce (text [0]) = .ok (l, r)) ∧
    ((date default).isNull = false ∧ (boolean true).isNull = false ∧
      (date default).coerce (boolean true) = .error (.incomparableTypes .date .boolean)) := by
  have outcomes := coercion_failures.1
  refine ⟨⟨rfl, rfl, by decide, ?_⟩, ⟨rfl, rfl, ?_⟩, rfl, rfl, ?_⟩
  · obtain ⟨-, hchoice, -⟩ := outcomes (integer 16777217) (float ⟨0x4b800000⟩) rfl rfl
    obtain ⟨c, hr, ho, -⟩ := hchoice (by decide)
    exact ⟨c, hr, ho⟩
  · exact (outcomes (charString [0xff]) (text [0]) rfl rfl).2.2 rfl rfl
  · exact ((outcomes (date default) (boolean true) rfl rfl).1 .date .boolean).mpr (by decide)

end Value

end Datum
