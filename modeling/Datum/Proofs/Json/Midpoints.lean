import Datum.Proofs.Json.Residues
import Mathlib.Tactic.Ring

/-!
# Decimals near a midpoint

Reading a decimal in double precision and rounding the result again may go wrong only if the decimal
is so near to the midpoint of two singles that the error of the first step reaches it.  There are few
such decimals of nine digits, and `nearMidpoints` finds them: in each octave the decimals with one
exponent are an arithmetic progression, whose residues by the spacing have to be small.
`mem_nearMidpoints` says that none is missed.
-/

namespace Datum

-- the power of the core library, also where algebra has one of its own
attribute [local instance (high)] instPowNat

namespace Json.Number

/-! ### The decimals -/

/-- The units of 2^-150 in `10 ^ e`, times `wholePower e`. -/
def step (e : Int) : Nat :=
  10 ^ e.toNat * 2 ^ 150

/-- The power of ten that makes a negative power whole. -/
def wholePower (e : Int) : Nat :=
  10 ^ (-e).toNat

/-- The decimals of nine digits, in steps of `a`, that are near a midpoint of at least `2 ^ s * p`
and below twice as much without being one.  Midpoints are the odd multiples of the spacing `b`. -/
def nearMidpoints (s a p : Nat) : List Nat :=
  withNat (p * 2 ^ (s - 24)) fun b =>
  withNat (b * 2 ^ min s 24 / 2 ^ 49) fun w =>
  bif w.beq 0 then []
  else
    withNat (max ((2 ^ s * p - w) / a) (10 ^ 8)) fun first =>
    withNat (min ((2 ^ (s + 1) * p + w) / a) (10 ^ 9 - 1) + 1 - first) fun n =>
    withNat (a % (2 * b)) fun a' =>
    withNat ((first * a + b + w) % (2 * b)) fun below =>
    withNat ((first * a + b - 1) % (2 * b)) fun above =>
      (smallResidues a' (2 * b) below (w - 1) n ++
        smallResidues a' (2 * b) above (w - 1) n).map (first + ·)

/-- The octaves of midpoints that decimals of nine digits in steps of `a` may be near. -/
def octaves (a p : Nat) : List Nat :=
  (List.range 278).filter fun s =>
    (2 ^ s * p).ble (2 * 10 ^ 9 * a) && (10 ^ 8 * a).ble (2 ^ (s + 2) * p)

/-- A decimal and a midpoint that differ, but by one part in 2^51 at most. -/
structure Near (decimal midpoint : Nat) : Prop where
  ne : decimal ≠ midpoint
  lower : 2 ^ 51 * midpoint ≤ 2 ^ 51 * decimal + decimal
  upper : 2 ^ 51 * decimal ≤ 2 ^ 51 * midpoint + decimal

namespace Near

variable {decimal midpoint octave : Nat}

/-- The distance of a decimal from a midpoint is a small part of the octave of that. -/
theorem distance (h : Near decimal midpoint) (hlow : octave ≤ midpoint)
    (hhigh : midpoint < 2 * octave) :
    decimal ≤ midpoint + octave / 2 ^ 49 ∧ midpoint ≤ decimal + octave / 2 ^ 49 ∧
      octave / 2 ^ 49 ≠ 0 := by
  obtain ⟨hne, hlower, hupper⟩ := h
  omega

end Near

variable {a s p d m : Nat}

/-- An octave of midpoints: the spacing, times the least odd multiple there. -/
theorem two_pow_mul (s p : Nat) : 2 ^ s * p = p * 2 ^ (s - 24) * 2 ^ min s 24 := by
  rw [Nat.mul_assoc, ← Nat.pow_add, Nat.mul_comm]
  congr 2
  omega

theorem progression_mod {first c modulus : Nat} (h : first ≤ d) :
    ((first * a + c) % modulus + a % modulus * (d - first)) % modulus = (d * a + c) % modulus := by
  have hsum : first * a + a * (d - first) = d * a := by
    rw [Nat.mul_comm first, ← Nat.mul_add, Nat.add_sub_cancel' h, Nat.mul_comm]
  rw [Nat.mod_add_mod, Nat.add_mod, Nat.mod_mul_mod, ← Nat.add_mod, Nat.add_right_comm, hsum]

/-- A multiple of the spacing is a residue away from an odd one. -/
theorem odd_multiple_mod {b k : Nat} (hk : k < 2 * b) :
    ((2 * m + 1) * b + b + k) % (2 * b) = k := by
  have hodd : (2 * m + 1) * b + b + k = k + 2 * b * (m + 1) := by ring
  rw [hodd, Nat.add_mul_mod_self_left, Nat.mod_eq_of_lt hk]

/-- **No decimal near a midpoint is missed.** -/
theorem mem_nearMidpoints (ha : 0 < a) (hp : 0 < p) (hd : 10 ^ 8 ≤ d) (hd' : d < 10 ^ 9)
    (hm : 2 ^ min s 24 ≤ 2 * m + 1) (hm' : 2 * m + 1 < 2 * 2 ^ min s 24)
    (hnear : Near (d * a) ((2 * m + 1) * (p * 2 ^ (s - 24)))) : d ∈ nearMidpoints s a p := by
  have hoctave := two_pow_mul s p
  have hoctave' : 2 ^ (s + 1) * p = 2 * (p * 2 ^ (s - 24) * 2 ^ min s 24) := by
    rw [Nat.pow_succ', Nat.mul_assoc, hoctave]
  have hb : 0 < p * 2 ^ (s - 24) := Nat.mul_pos hp (Nat.two_pow_pos _)
  have hmany : 2 ^ min s 24 ≤ 2 ^ 24 := Nat.pow_le_pow_right Nat.two_pos (Nat.min_le_right _ _)
  simp only [nearMidpoints, withNat_eq, hoctave, hoctave', Bool.cond_eq_ite, Nat.beq_eq]
  generalize p * 2 ^ (s - 24) = b at *
  generalize 2 ^ min s 24 = t at *
  have hlow : b * t ≤ (2 * m + 1) * b := by
    rw [Nat.mul_comm]
    exact Nat.mul_le_mul_right b hm
  have hhigh : (2 * m + 1) * b < 2 * (b * t) := by
    rw [Nat.mul_comm b, ← Nat.mul_assoc]
    exact Nat.mul_lt_mul_of_pos_right hm' hb
  have hw : b * t / 2 ^ 49 < b := by
    have := Nat.mul_le_mul_left b hmany
    omega
  obtain ⟨hle, hge, hw0⟩ := hnear.distance hlow hhigh
  have hne := hnear.ne
  have hodd {k : Nat} := odd_multiple_mod (m := m) (b := b) (k := k)
  rw [if_neg hw0]
  generalize b * t = octave at *
  generalize octave / 2 ^ 49 = w at *
  generalize (2 * m + 1) * b = midpoint at *
  have hfirst : max ((octave - w) / a) (10 ^ 8) ≤ d :=
    Nat.max_le.mpr ⟨Nat.div_le_of_le_mul (by rw [Nat.mul_comm]; omega), hd⟩
  have hlast : d ≤ min ((2 * octave + w) / a) (10 ^ 9 - 1) :=
    Nat.le_min.mpr ⟨(Nat.le_div_iff_mul_le ha).mpr (by omega), by omega⟩
  generalize max ((octave - w) / a) (10 ^ 8) = first at *
  generalize min ((2 * octave + w) / a) (10 ^ 9 - 1) = last at *
  have hmod (x : Nat) : x % (2 * b) < 2 * b := Nat.mod_lt x (by omega)
  refine List.mem_map.mpr ⟨d - first, List.mem_append.mpr ?_, by omega⟩
  rcases Nat.lt_or_gt_of_ne hne with hlt | hgt
  · left
    rw [mem_smallResidues (hmod _) (hmod _) (by omega), Nat.add_assoc, progression_mod hfirst]
    have hsum : d * a + (b + w) = midpoint + b + (w - (midpoint - d * a)) := by omega
    rw [hsum, hodd (by omega)]
    omega
  · right
    rw [mem_smallResidues (hmod _) (hmod _) (by omega), Nat.add_sub_assoc hb,
      progression_mod hfirst]
    have hsum : d * a + (b - 1) = midpoint + b + (d * a - midpoint - 1) := by omega
    rw [hsum, hodd (by omega)]
    omega

theorem mem_octaves (hs : s < 278) (hp : 0 < p) (hd : 10 ^ 8 ≤ d) (hd' : d < 10 ^ 9)
    (hm : 2 ^ min s 24 ≤ 2 * m + 1) (hm' : 2 * m + 1 < 2 * 2 ^ min s 24)
    (hnear : Near (d * a) ((2 * m + 1) * (p * 2 ^ (s - 24)))) : s ∈ octaves a p := by
  have hoctave := two_pow_mul s p
  have hoctave' : 2 ^ (s + 2) * p = 4 * (p * 2 ^ (s - 24) * 2 ^ min s 24) := by
    rw [Nat.pow_add, Nat.mul_comm _ (2 ^ 2), Nat.mul_assoc, hoctave]
  have hb : 0 < p * 2 ^ (s - 24) := Nat.mul_pos hp (Nat.two_pow_pos _)
  have hlow := Nat.mul_le_mul_right (p * 2 ^ (s - 24)) hm
  have hhigh := Nat.mul_lt_mul_of_pos_right hm' hb
  rw [Nat.mul_assoc 2] at hhigh
  have hd := Nat.mul_le_mul_right a hd
  have hd' := Nat.mul_le_mul_right a hd'.le
  obtain ⟨-, hlower, hupper⟩ := hnear
  rw [octaves, List.mem_filter, List.mem_range, Bool.and_eq_true, Nat.ble_eq, Nat.ble_eq, hoctave,
    hoctave', Nat.mul_comm _ (2 ^ min s 24)]
  refine ⟨hs, ?_, ?_⟩
  · omega
  · omega

end Json.Number

end Datum
