import Datum.Behavior
import Datum.Proofs.Outcome

/-!
# Values of one kind

`Value.IsPayload v kind` says that `v` is a value of a kind and not null.  This file collects what
holds of such values whatever their kind: reading a literal, converting and casting lead to a value
of the kind that was asked for (`isPayload_cast`), and two of one kind always have an order
(`compare_of_isPayload`), which is reversed when they change places (`order?_swap`).
-/

namespace Datum

namespace Value

/-- A value of a kind that is not null. -/
def IsPayload (v : Value) (kind : Kind) : Prop :=
  v.isNull = false ∧ v.kind = kind

/-! ### Literals and conversions -/

theorem isPayload_parse {kind : Kind} {text : String} {v : Value} (hk : kind ≠ .null)
    (h : parse kind text = .ok v) : v.IsPayload kind := by
  cases kind with
  | null => exact absurd rfl hk
  | charString | text =>
    obtain rfl := Except.ok.inj h
    exact ⟨rfl, rfl⟩
  | integer | float | date =>
    obtain ⟨payload, rfl⟩ := eq_of_map_eq_ok h
    exact ⟨rfl, rfl⟩
  | boolean =>
    simp only [parse] at h
    split at h
    · obtain rfl := Except.ok.inj h
      exact ⟨rfl, rfl⟩
    · cases h

theorem isPayload_convertInteger {n : Int32} {target : Kind} {v : Value}
    (h : convertInteger n target = .ok v) : v.IsPayload target := by
  cases target with
  | float =>
    simp only [convertInteger] at h
    split at h
    · obtain rfl := Except.ok.inj h
      exact ⟨rfl, rfl⟩
    · cases h
  | charString | text | boolean =>
    obtain rfl := Except.ok.inj h
    exact ⟨rfl, rfl⟩
  | integer | date | null => cases h

theorem isPayload_convertFloat {x : Single} {target : Kind} {v : Value}
    (h : convertFloat x target = .ok v) : v.IsPayload target := by
  cases target with
  | integer =>
    simp only [convertFloat] at h
    split at h
    · obtain rfl := Except.ok.inj h
      exact ⟨rfl, rfl⟩
    · cases h
  | charString | text =>
    obtain rfl := Except.ok.inj h
    exact ⟨rfl, rfl⟩
  | float | date | boolean | null => cases h

theorem isPayload_convertBytes {source target : Kind} {bytes : List UInt8} {v : Value}
    (h : convertBytes source bytes target = .ok v) : v.IsPayload target := by
  cases target with
  | charString | text =>
    obtain rfl := Except.ok.inj h
    exact ⟨rfl, rfl⟩
  | null => cases h
  | integer | float | date | boolean =>
    simp only [convertBytes] at h
    split at h
    · exact isPayload_parse nofun h
    · cases h

theorem isPayload_convertDate {d : Date} {target : Kind} {v : Value}
    (h : convertDate d target = .ok v) : v.IsPayload target := by
  cases target with
  | charString | text =>
    obtain rfl := Except.ok.inj h
    exact ⟨rfl, rfl⟩
  | integer | float | date | boolean | null => cases h

theorem isPayload_convertBoolean {b : Bool} {target : Kind} {v : Value}
    (h : convertBoolean b target = .ok v) : v.IsPayload target := by
  cases target with
  | integer | float | charString | text =>
    obtain rfl := Except.ok.inj h
    exact ⟨rfl, rfl⟩
  | date | boolean | null => cases h

/-- **A conversion leads to a value of the kind that was asked for.** -/
theorem isPayload_convert {v w : Value} {target : Kind} (h : v.convert target = .ok w) :
    w.IsPayload target := by
  cases v with
  | null kind => cases h
  | integer n => exact isPayload_convertInteger h
  | float x => exact isPayload_convertFloat h
  | charString bytes => exact isPayload_convertBytes h
  | text bytes => exact isPayload_convertBytes h
  | date d => exact isPayload_convertDate h
  | boolean b => exact isPayload_convertBoolean h

/-! ### Casts -/

theorem cast_of_isPayload {v : Value} {kind : Kind} (h : v.IsPayload kind) (target : Kind) :
    v.cast target =
      if (castCost kind target).isReachable then
        if target = kind then .ok v else v.convert target
      else .error (.unsupportedCast kind target) := by
  obtain ⟨hn, rfl⟩ := h
  simp only [cast, Behavior.castTo, Behavior.checkKind, Behavior.convert, hn, if_true, ok_bind]
  cases hc : (castCost v.kind target).isReachable with
  | true =>
    simp
    rfl
  | false => rfl

/-- **A cast of a value that is not null leads to a value of the target kind that is not null.** -/
theorem isPayload_cast {v w : Value} {target : Kind} (hv : v.isNull = false)
    (h : v.cast target = .ok w) : w.IsPayload target := by
  rw [cast_of_isPayload ⟨hv, rfl⟩] at h
  split at h
  · split at h
    · rename_i he
      obtain rfl := Except.ok.inj h
      exact ⟨hv, he.symm⟩
    · exact isPayload_convert h
  · cases h

/-! ### Orders -/

theorem order?_swap (v w : Value) : (v.order? w).map Ordering.swap = w.order? v := by
  cases v with
  | null kind => cases w <;> rfl
  | integer m =>
    cases w with
    | integer n => exact congrArg some (Int.compare_swap ..)
    | _ => rfl
  | float x =>
    cases w with
    | float y => exact congrArg some (x.compare_swap y)
    | _ => rfl
  | charString bs =>
    cases w with
    | charString cs => exact congrArg some (compareBytes_swap bs cs)
    | _ => rfl
  | text bs =>
    cases w with
    | text cs => exact congrArg some (compareBytes_swap bs cs)
    | _ => rfl
  | date d =>
    cases w with
    | date e => exact congrArg some (Nat.compare_swap ..)
    | _ => rfl
  | boolean a =>
    cases w with
    | boolean b => exact congrArg some (Nat.compare_swap ..)
    | _ => rfl

end Value

theorem Behavior.compare_of_isPayload {kind : Kind} {v w : Value} (hv : v.IsPayload kind)
    (hw : w.IsPayload kind) : Behavior.compare kind v w = .ok (v.order? w) := by
  obtain ⟨hv, rfl⟩ := hv
  obtain ⟨hw, he⟩ := hw
  simp only [compare, checkKind, hv, hw, he, Bool.false_eq_true, or_self, and_false, if_false,
    if_true, ok_bind]
  rfl

end Datum
