import Mathlib.Tactic.ByContra
import Mathlib.Tactic.SplitIfs

/-!
# Small residues of an arithmetic progression

The indices at which `r + a * i` leaves a small remainder by `b` are found by the steps of the
Euclidean algorithm: each wrap of the progression is a term of a progression with the modulus `a`,
and its small remainders are the same ones.  `mem_smallResidues` says that the search finds exactly
these indices.
-/

namespace Datum

/-- The function at a number that is evaluated before, so that terms stay small when they are run by
the kernel. -/
def withNat {α : Type} (n : Nat) (f : Nat → α) : α :=
  match n with
  | 0 => f 0
  | m + 1 => f m.succ

@[simp] theorem withNat_eq {α : Type} (n : Nat) (f : Nat → α) : withNat n f = f n := by
  cases n <;> rfl

/-- Indices below `n`, among them all at which `r + a * i` leaves at most `w` modulo `b`. -/
def residueCandidates : Nat → Nat → Nat → Nat → Nat → Nat → List Nat
  | 0, _, _, _, _, n => List.range n
  | fuel + 1, a, b, r, w, n =>
    bif n.ble 8 then List.range n
    else bif a.beq 0 then bif r.ble w then List.range n else []
    else bif a.ble w then List.range n
    else bif b.blt (2 * a) then
      withNat (b - a) fun a' => withNat ((w + (b - r)) % b) fun r' =>
        residueCandidates fuel a' b r' w n
    else
      withNat ((a - b % a) % a) fun a' => withNat (r % a) fun r' =>
        withNat ((r + a * n) / b + 1) fun n' =>
          (residueCandidates fuel a' a r' w n').map fun j => (b * j - r + a - 1) / a

/-- The indices below `n` at which `r + a * i` leaves at most `w` modulo `b`. -/
def smallResidues (a b r w n : Nat) : List Nat :=
  (residueCandidates 32 a b r w n).filter fun i => i.blt n && ((r + a * i) % b).ble w

/-- Run backwards from `w`, the progression has the same small residues. -/
theorem reflect_mod {a b r w : Nat} (ha : a < b) (hr : r < b) (hw : w < b) {i : Nat}
    (h : (r + a * i) % b ≤ w) : ((w + (b - r)) % b + (b - a) * i) % b ≤ w := by
  have hdiv := Nat.div_add_mod (r + a * i) b
  generalize (r + a * i) / b = q at hdiv
  generalize (r + a * i) % b = s at hdiv h
  -- the two residues add up to `w`
  have hsum : w + (b - r) + (b - a) * i + q * b = (w - s) + (i + 1) * b := by
    have hmul : (b - a) * i + a * i = i * b := by
      rw [← Nat.add_mul, Nat.sub_add_cancel (Nat.le_of_lt ha), Nat.mul_comm]
    have hq : b * q = q * b := Nat.mul_comm _ _
    rw [Nat.succ_mul]
    omega
  have hmod : ((w + (b - r)) % b + (b - a) * i) % b = (w - s) % b := by
    rw [Nat.mod_add_mod, ← Nat.add_mul_mod_self_right _ q, hsum, Nat.add_mul_mod_self_right]
  rw [hmod, Nat.mod_eq_of_lt (by omega)]
  omega

/-- The number of wraps up to an index with a small residue. -/
theorem wrap_spec {a b r w : Nat} (ha : w < a) (hr : r < b) {i : Nat} (h : (r + a * i) % b ≤ w) :
    (r % a + (a - b % a) % a * ((r + a * i) / b)) % a ≤ w ∧
      (b * ((r + a * i) / b) - r + a - 1) / a = i := by
  have hdiv := Nat.div_add_mod (r + a * i) b
  generalize (r + a * i) / b = q at hdiv
  generalize (r + a * i) % b = s at hdiv h
  have hpos : 0 < a := by omega
  constructor
  · -- modulo `a`, a wrap takes `b` off
    have hfull : (a - b % a) + b = a * (b / a + 1) := by
      have hdiv' := Nat.div_add_mod b a
      have hlt := Nat.mod_lt b hpos
      rw [Nat.mul_succ]
      omega
    have hwraps : (a - b % a) * q + b * q = a * ((b / a + 1) * q) := by
      rw [← Nat.add_mul, hfull, Nat.mul_assoc]
    have hsum : r + (a - b % a) * q + a * i = s + a * ((b / a + 1) * q) := by omega
    have hmod : (r % a + (a - b % a) % a * q) % a = s % a := by
      rw [Nat.mod_add_mod, Nat.add_mod, Nat.mod_mul_mod, ← Nat.add_mod,
        ← Nat.add_mul_mod_self_left _ a i, hsum, Nat.add_mul_mod_self_left]
    rw [hmod, Nat.mod_eq_of_lt (by omega)]
    exact h
  · by_cases hi : i = 0
    · subst hi
      have hq : q = 0 := by
        by_contra hq
        have := Nat.le_mul_of_pos_right b (Nat.pos_of_ne_zero hq)
        omega
      subst hq
      rw [Nat.mul_zero, Nat.zero_sub, Nat.zero_add, Nat.div_eq_of_lt]
      omega
    · have hle : a ≤ a * i := Nat.le_mul_of_pos_right a (Nat.pos_of_ne_zero hi)
      have hnum : b * q - r + a - 1 = (a - 1 - s) + a * i := by omega
      rw [hnum, Nat.add_mul_div_left _ _ hpos, Nat.div_eq_of_lt (by omega), Nat.zero_add]

theorem mem_residueCandidates {fuel a b r w n i : Nat} (ha : a < b) (hr : r < b) (hw : w < b)
    (hi : i < n) (h : (r + a * i) % b ≤ w) : i ∈ residueCandidates fuel a b r w n := by
  induction fuel generalizing a b r n i with
  | zero => exact List.mem_range.mpr hi
  | succ fuel ih =>
    simp only [residueCandidates, withNat_eq, Bool.cond_eq_ite, Nat.ble_eq, Nat.beq_eq, Nat.blt_eq]
    split_ifs with hn h0 hrw haw hreflect
    · exact List.mem_range.mpr hi
    · exact List.mem_range.mpr hi
    · subst h0
      rw [Nat.zero_mul, Nat.add_zero, Nat.mod_eq_of_lt hr] at h
      exact absurd h hrw
    · exact List.mem_range.mpr hi
    · exact ih (by omega) (Nat.mod_lt _ (by omega)) hw hi (reflect_mod ha hr hw h)
    · have hpos : 0 < a := by omega
      obtain ⟨hsmall, hindex⟩ := wrap_spec (by omega) hr h
      refine List.mem_map.mpr ⟨(r + a * i) / b, ?_, hindex⟩
      refine ih (Nat.mod_lt _ hpos) (Nat.mod_lt _ hpos) (by omega) ?_ hsmall
      have hmono : r + a * i ≤ r + a * n :=
        Nat.add_le_add_left (Nat.mul_le_mul_left a (Nat.le_of_lt hi)) r
      exact Nat.lt_succ_of_le (Nat.div_le_div_right hmono)

/-- **The search finds the indices with a small residue.** -/
theorem mem_smallResidues {a b r w n i : Nat} (ha : a < b) (hr : r < b) (hw : w < b) :
    i ∈ smallResidues a b r w n ↔ i < n ∧ (r + a * i) % b ≤ w := by
  rw [smallResidues, List.mem_filter, Bool.and_eq_true, Nat.blt_eq, Nat.ble_eq]
  exact ⟨fun h => h.2, fun h => ⟨mem_residueCandidates ha hr hw h.1 h.2, h⟩⟩

end Datum
