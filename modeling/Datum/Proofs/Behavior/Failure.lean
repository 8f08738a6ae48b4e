import Datum.Proofs.Behavior.Payload

/-!
# How casts fail

A cast that exists can still fail over the payload: a string need not be a literal of the target
kind, and a number can be out of its range.  `Value.conversionFault_of_cast` says that it fails in
no other way, and which of the two is possible between which kinds.  Where neither is, as from truth
values and to strings, the cast succeeds (`Value.cast_ok_of_not_fault`).

With the casts that do not exist these are all failures of casts (`CastFault`), and
`Value.cast_contract` collects what a cast does to any value and for any target kind.
-/

namespace Datum

/-- The failures of reading a literal of a kind: the text is none, or its number is out of range. -/
inductive LiteralFault (kind : Kind) : TypeError → Prop
  | invalid (text reason : String) : LiteralFault kind (.invalidLiteral text kind reason)
  | overflow (text : String) (h : kind = .integer ∨ kind = .float) :
    LiteralFault kind (.numericOverflow text kind)

/-- The failures of casts that exist: a string may be no literal of the target kind, and a number
may have no equal or near one there. -/
inductive ConversionFault (source target : Kind) : TypeError → Prop
  | literal {e : TypeError} (hs : source.isString = true) (ht : target.isString = false)
    (hn : target ≠ .null) (h : LiteralFault target e) : ConversionFault source target e
  | numeric (text : String)
    (h : source = .integer ∧ target = .float ∨ source = .float ∧ target = .integer) :
    ConversionFault source target (.numericOverflow text target)

theorem not_conversionFault_boolean {target : Kind} {e : TypeError} :
    ¬ ConversionFault .boolean target e := by
  rintro (⟨hs, -, -, -⟩ | ⟨text, ⟨h, -⟩ | ⟨h, -⟩⟩)
  · cases hs
  · cases h
  · cases h

theorem not_conversionFault_of_isString {source target : Kind} {e : TypeError}
    (h : target.isString = true) : ¬ ConversionFault source target e := by
  rintro (⟨-, ht, -, -⟩ | ⟨text, ⟨-, rfl⟩ | ⟨-, rfl⟩⟩)
  · rw [h] at ht
    cases ht
  · cases h
  · cases h

/-- The failures of casts.  The two kinds have no cast between them, a string is no literal of the
target kind, or the number of a value is out of the range of the target kind. -/
inductive CastFault (source target : Kind) : TypeError → Prop
  | unsupported (h : (castCost source target).isReachable = false) :
    CastFault source target (.unsupportedCast source target)
  | invalid (text reason : String) (hs : source.isString = true)
    (ht : target = .integer ∨ target = .float ∨ target = .date ∨ target = .boolean) :
    CastFault source target (.invalidLiteral text target reason)
  | overflow (text : String)
    (h : (source = .integer ∧ target = .float) ∨ (source = .float ∧ target = .integer) ∨
      (source.isString = true ∧ (target = .integer ∨ target = .float))) :
    CastFault source target (.numericOverflow text target)

theorem ConversionFault.castFault {source target : Kind} {e : TypeError}
    (h : ConversionFault source target e) : CastFault source target e := by
  cases h with
  | numeric text h => exact .overflow text (h.imp_right .inl)
  | literal hs ht hn h =>
    cases h with
    | overflow text hk => exact .overflow text (.inr (.inr ⟨hs, hk⟩))
    | invalid text reason =>
      refine .invalid text reason hs ?_
      cases target with
      | integer | float | date | boolean => simp
      | charString | text => cases ht
      | null => exact absurd rfl hn

namespace Value

theorem literalFault_of_parse {kind : Kind} {text : String} {e : TypeError}
    (h : parse kind text = .error e) : LiteralFault kind e := by
  cases kind with
  | charString | text => cases h
  | integer =>
    obtain ⟨fault, -, rfl⟩ := map_mapError_eq_error_iff.mp h
    cases fault with
    | empty | notDigits => exact .invalid _ _
    | outOfRange => exact .overflow _ (.inl rfl)
  | float =>
    obtain ⟨fault, -, rfl⟩ := map_mapError_eq_error_iff.mp h
    cases fault with
    | empty | notNumber => exact .invalid _ _
    | outOfRange => exact .overflow _ (.inr rfl)
  | date =>
    obtain ⟨fault, -, rfl⟩ := map_mapError_eq_error_iff.mp h
    exact .invalid _ _
  | boolean =>
    simp only [parse] at h
    split at h
    · cases h
    · obtain rfl := Except.error.inj h
      exact .invalid _ _
  | null =>
    simp only [parse] at h
    split at h
    · cases h
    · obtain rfl := Except.error.inj h
      exact .invalid _ _

theorem conversionFault_of_convertBytes {source target : Kind} {bytes : List UInt8} {e : TypeError}
    (hs : source.isString = true) (hn : target ≠ .null)
    (h : convertBytes source bytes target = .error e) : ConversionFault source target e := by
  cases target with
  | charString | text => cases h
  | null => exact absurd rfl hn
  | integer | float | date | boolean =>
    refine .literal hs rfl hn ?_
    simp only [convertBytes] at h
    split at h
    · exact literalFault_of_parse h
    · obtain rfl := Except.error.inj h
      exact .invalid _ _

/-- **A conversion that exists fails only over its payload.** -/
theorem conversionFault_of_convert {v : Value} {target : Kind} {e : TypeError}
    (hv : v.isNull = false) (hr : (castCost v.kind target).isReachable = true)
    (hk : target ≠ v.kind) (h : v.convert target = .error e) :
    ConversionFault v.kind target e := by
  cases v with
  | null kind => cases hv
  | integer n =>
    cases target with
    | float =>
      simp only [convert, convertInteger] at h
      split at h
      · cases h
      · obtain rfl := Except.error.inj h
        exact .numeric _ (.inl ⟨rfl, rfl⟩)
    | integer => exact absurd rfl hk
    | charString | text | boolean => cases h
    | date | null => cases hr
  | float x =>
    cases target with
    | integer =>
      simp only [convert, convertFloat] at h
      split at h
      · cases h
      · obtain rfl := Except.error.inj h
        exact .numeric _ (.inr ⟨rfl, rfl⟩)
    | float => exact absurd rfl hk
    | charString | text => cases h
    | date | boolean | null => cases hr
  | charString bytes | text bytes =>
    have hn : target ≠ .null := by
      rintro rfl
      cases hr
    exact conversionFault_of_convertBytes rfl hn h
  | date d =>
    cases target with
    | charString | text => cases h
    | date => exact absurd rfl hk
    | integer | float | boolean | null => cases hr
  | boolean b =>
    cases target with
    | integer | float | charString | text => cases h
    | boolean => exact absurd rfl hk
    | date | null => cases hr

theorem conversionFault_of_cast {v : Value} {target : Kind} {e : TypeError}
    (hv : v.isNull = false) (hr : (castCost v.kind target).isReachable = true)
    (h : v.cast target = .error e) : ConversionFault v.kind target e := by
  rw [cast_of_isPayload ⟨hv, rfl⟩, if_pos hr] at h
  split at h
  · cases h
  · rename_i hk
    exact conversionFault_of_convert hv hr hk h

theorem cast_ok_of_not_fault {v : Value} {target : Kind} (hv : v.isNull = false)
    (hr : (castCost v.kind target).isReachable = true)
    (hf : ∀ e, ¬ ConversionFault v.kind target e) : ∃ w, v.cast target = .ok w := by
  cases h : v.cast target with
  | error e => exact absurd (conversionFault_of_cast hv hr h) (hf e)
  | ok w => exact ⟨w, rfl⟩

/-! ### The contract of casts -/

theorem cast_of_isNull {v : Value} (hv : v.isNull = true) (target : Kind) :
    v.cast target = .ok (.null target) := by
  cases v with
  | null kind =>
    simp only [cast, Behavior.castTo, Behavior.checkKind, if_true, ok_bind]
    rfl
  | _ => cases hv

theorem cast_of_unreachable {v : Value} {target : Kind} (hv : v.isNull = false)
    (hr : (castCost v.kind target).isReachable = false) :
    v.cast target = .error (.unsupportedCast v.kind target) := by
  rw [cast_of_isPayload ⟨hv, rfl⟩, hr]
  rfl

theorem cast_eq_unsupported_iff {v : Value} {target : Kind} (hv : v.isNull = false) :
    v.cast target = .error (.unsupportedCast v.kind target) ↔
      (castCost v.kind target).isReachable = false := by
  refine ⟨fun h => ?_, cast_of_unreachable hv⟩
  cases hr : (castCost v.kind target).isReachable with
  | false => rfl
  | true =>
    cases conversionFault_of_cast hv hr h with
    | literal _ _ _ hf => cases hf

theorem castCost_self (kind : Kind) : castCost kind kind = .identity := by
  cases kind <;> rfl

theorem cast_self {v : Value} (hv : v.isNull = false) : v.cast v.kind = .ok v := by
  rw [cast_of_isPayload ⟨hv, rfl⟩, castCost_self, if_pos (rfl : v.kind = v.kind)]
  rfl

theorem castFault_of_cast {v : Value} {target : Kind} {e : TypeError} (hv : v.isNull = false)
    (h : v.cast target = .error e) : CastFault v.kind target e := by
  cases hr : (castCost v.kind target).isReachable with
  | true => exact (conversionFault_of_cast hv hr h).castFault
  | false =>
    rw [cast_of_unreachable hv hr] at h
    obtain rfl := Except.error.inj h
    exact .unsupported hr

/-- **The contract of casts.**  A null becomes a null of the target kind.  Any other value becomes a
value of the target kind that is not null, and stays as it is if it has that kind already, or the
cast fails in one of the ways that the two kinds leave.  It is unsupported exactly where the cost
says so, and casts to strings and from truth values, where they exist, never fail. -/
theorem cast_contract (v : Value) (target : Kind) :
    (v.isNull = true → v.cast target = .ok (.null target)) ∧
    (v.isNull = false →
      (v.cast target = .error (.unsupportedCast v.kind target) ↔
        (castCost v.kind target).isReachable = false) ∧
      v.cast v.kind = .ok v ∧
      (∀ w, v.cast target = .ok w → w.isNull = false ∧ w.kind = target) ∧
      ((castCost v.kind target).isReachable = true →
        target.isString = true ∨ v.kind = .boolean → ∃ w, v.cast target = .ok w) ∧
      ∀ e, v.cast target = .error e → CastFault v.kind target e) := by
  refine ⟨fun hn => cast_of_isNull hn target, fun hv => ?_⟩
  refine ⟨cast_eq_unsupported_iff hv, cast_self hv, fun w hw => isPayload_cast hv hw, ?_,
    fun e he => castFault_of_cast hv he⟩
  rintro hr (hs | hb)
  · exact cast_ok_of_not_fault hv hr fun e => not_conversionFault_of_isString hs
  · refine cast_ok_of_not_fault hv hr fun e => ?_
    rw [hb]
    exact not_conversionFault_boolean

/-- A null of a kind that has no cast to the target, a NaN that has none either, and bytes that are
no text. -/
theorem cast_contract_at_edges :
    ((null .date).isNull = true ∧ (null .date).cast .boolean = .ok (.null .boolean)) ∧
    ((float ⟨0x7fc00000⟩).isNull = false ∧
      (castCost .float .boolean).isReachable = false ∧
      (float ⟨0x7fc00000⟩).cast .boolean = .error (.unsupportedCast .float .boolean)) ∧
    ((charString [0xff]).isNull = false ∧
      (charString [0xff]).cast .integer =
        .error (.invalidLiteral "\ufffd" .integer "not valid UTF-8") ∧
      CastFault .charString .integer (.invalidLiteral "\ufffd" .integer "not valid UTF-8")) := by
  have hcast : (charString [0xff]).cast .integer =
      .error (.invalidLiteral "\ufffd" .integer "not valid UTF-8") := rfl
  refine ⟨⟨rfl, (cast_contract (null .date) .boolean).1 rfl⟩, ⟨rfl, by decide, ?_⟩, rfl, hcast, ?_⟩
  · exact ((cast_contract (float ⟨0x7fc00000⟩) .boolean).2 rfl).1.mpr (by decide)
  · exact ((cast_contract (charString [0xff]) .integer).2 rfl).2.2.2.2 _ hcast

end Value

end Datum
