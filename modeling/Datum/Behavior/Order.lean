import Datum.Value.Basic

/-! # The order of the values of one kind

Integers and dates are ordered as numbers, floats by their total order, strings byte by byte with a
proper beginning first, and false comes before true. Nulls have no order.
-/

namespace Datum

/-- Lexicographic order of byte strings, by unsigned bytes. -/
def compareBytes : List UInt8 → List UInt8 → Ordering
  | [], [] => .eq
  | [], _ :: _ => .lt
  | _ :: _, [] => .gt
  | b :: bs, c :: cs =>
    match compare b.toNat c.toNat with
    | .eq => compareBytes bs cs
    | order => order

theorem compareBytes_swap (bs cs : List UInt8) : (compareBytes bs cs).swap = compareBytes cs bs := by
  induction bs generalizing cs with
  | nil => cases cs <;> rfl
  | cons b bs ih =>
    cases cs with
    | nil => rfl
    | cons c cs =>
      have hs : (compare b.toNat c.toNat).swap = compare c.toNat b.toNat := Nat.compare_swap ..
      simp only [compareBytes, ← hs]
      cases compare b.toNat c.toNat
      · rfl
      · exact ih cs
      · rfl

theorem compareBytes_eq_iff {bs cs : List UInt8} : compareBytes bs cs = .eq ↔ bs = cs := by
  induction bs generalizing cs with
  | nil => cases cs <;> simp [compareBytes]
  | cons b bs ih =>
    cases cs with
    | nil => simp [compareBytes]
    | cons c cs =>
      simp only [compareBytes, List.cons.injEq, ← UInt8.toNat_inj]
      cases h : compare b.toNat c.toNat
      · rw [Nat.compare_eq_lt] at h
        simp
        omega
      · rw [Nat.compare_eq_eq] at h
        simp [h, ih]
      · rw [Nat.compare_eq_gt] at h
        simp
        omega

def Value.order? : Value → Value → Option Ordering
  | .integer m, .integer n => some (compare m.toInt n.toInt)
  | .float x, .float y => some (x.compare y)
  | .charString bs, .charString cs => some (compareBytes bs cs)
  | .text bs, .text cs => some (compareBytes bs cs)
  | .date d, .date e => some (d.compare e)
  | .boolean a, .boolean b => some (compare a.toNat b.toNat)
  | _, _ => none

end Datum
