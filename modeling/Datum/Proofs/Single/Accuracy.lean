import Datum.Proofs.Single.Nearest

/-!
# How much rounding changes

Above the lowest octave, rounding changes a number by at most a half of the last bit, relative to the
number (`nearest_within`), and a number whose significant bits fit the format not at all
(`nearest_exact`, `exists_code`).
-/

namespace Datum

-- the power of the core library, also where algebra has one of its own
attribute [local instance (high)] instPowNat

/-- `y` differs from `q` by at most the part `e` of `q`. -/
structure Within (e y q : ℚ) : Prop where
  lower : (1 - e) * q ≤ y
  upper : y ≤ (1 + e) * q

theorem roundHalfEven_bounds (num : Nat) {den : Nat} (hden : 0 < den) :
    2 * roundHalfEven num den * den ≤ 2 * num + den ∧
      2 * num ≤ 2 * roundHalfEven num den * den + den := by
  have hnum := Nat.div_add_mod num den
  have hr := Nat.mod_lt num hden
  unfold roundHalfEven
  generalize num / den = q at hnum
  generalize num % den = r at hnum hr
  subst hnum
  have hm : 2 * q * den = 2 * (den * q) := by ring
  have hm' : 2 * (q + 1) * den = 2 * (den * q) + 2 * den := by ring
  simp only
  split_ifs with h1 h2
  · rw [hm]
    omega
  · rw [hm']
    omega
  · rcases Nat.mod_two_eq_zero_or_one q with h | h <;> rw [h]
    · rw [Nat.add_zero, hm]
      omega
    · rw [hm']
      omega

namespace BinaryFormat

variable (f : BinaryFormat)

/-! ### The relative error -/

theorem octaveOfUnits_spec (n : Nat) :
    n < 2 * 2 ^ f.fractionBits * 2 ^ f.octaveOfUnits n ∧
      (f.octaveOfUnits n = 0 ∨ 2 ^ f.fractionBits * 2 ^ f.octaveOfUnits n ≤ n) := by
  by_cases hn : n = 0
  · subst hn
    exact ⟨Nat.mul_pos (Nat.mul_pos Nat.two_pos f.two_pow_fractionBits_pos) (Nat.two_pow_pos _),
      .inl (Nat.zero_sub _)⟩
  have hhigh := Nat.lt_log2_self (n := n)
  have hlow := Nat.log2_self_le hn
  unfold octaveOfUnits
  rcases Nat.le_total n.log2 f.fractionBits with h | h
  · refine ⟨?_, .inl (Nat.sub_eq_zero_of_le h)⟩
    rw [Nat.sub_eq_zero_of_le h, Nat.pow_zero, Nat.mul_one, ← Nat.pow_succ']
    exact Nat.lt_of_lt_of_le hhigh (Nat.pow_le_pow_right Nat.two_pos (Nat.succ_le_succ h))
  · rw [Nat.mul_assoc, ← Nat.pow_add, Nat.add_sub_cancel' h, ← Nat.pow_succ']
    exact ⟨hhigh, .inr hlow⟩

/-- The significand that rounding chooses is in normal form, but for being one too large. -/
theorem roundHalfEven_normal (num : Nat) {den : Nat} (hden : 0 < den) :
    let k := f.octaveOfUnits (num / den)
    roundHalfEven num (den * 2 ^ k) ≤ 2 * 2 ^ f.fractionBits ∧
      (k = 0 ∨ 2 ^ f.fractionBits ≤ roundHalfEven num (den * 2 ^ k)) := by
  intro k
  obtain ⟨hlt, hge⟩ := f.octaveOfUnits_spec (num / den)
  have hspace : 0 < den * 2 ^ k := Nat.mul_pos hden (Nat.two_pow_pos k)
  obtain ⟨hlower, hupper⟩ := roundHalfEven_bounds num hspace
  rw [Nat.div_lt_iff_lt_mul hden, Nat.mul_assoc _ _ den, Nat.mul_comm _ den] at hlt
  rw [Nat.le_div_iff_mul_le hden, Nat.mul_assoc, Nat.mul_comm _ den] at hge
  change num < 2 * 2 ^ f.fractionBits * (den * 2 ^ k) at hlt
  change k = 0 ∨ 2 ^ f.fractionBits * (den * 2 ^ k) ≤ num at hge
  generalize den * 2 ^ k = space at *
  generalize roundHalfEven num space = m at *
  constructor
  · by_contra hm
    have := Nat.mul_le_mul_right space (show 2 * 2 ^ f.fractionBits + 1 ≤ m by omega)
    rw [Nat.add_mul, Nat.one_mul] at this
    rw [Nat.mul_assoc] at hlower
    omega
  · refine hge.imp_right fun hge => ?_
    by_contra hm
    have := Nat.mul_le_mul_right space (show m + 1 ≤ 2 ^ f.fractionBits by omega)
    rw [Nat.add_mul, Nat.one_mul] at this
    rw [Nat.mul_assoc] at hupper
    omega

/-- **Rounding changes a number by at most a half of its last bit.** -/
theorem nearest_within {num den : Nat} (hden : 0 < den) (hlow : 2 ^ f.fractionBits * den ≤ num)
    (hfin : f.nearest num den < f.infinity) :
    Within (1 / 2 ^ (f.fractionBits + 1)) (f.units (f.nearest num den)) ((num : ℚ) / den) := by
  obtain ⟨hm, hk⟩ := f.roundHalfEven_normal num hden
  obtain ⟨hlt, hge⟩ := f.octaveOfUnits_spec (num / den)
  have hge : 2 ^ f.fractionBits * 2 ^ f.octaveOfUnits (num / den) ≤ num / den := by
    rcases hge with h | h
    · rw [h, Nat.pow_zero, Nat.mul_one]
      exact (Nat.le_div_iff_mul_le hden).mpr hlow
    · exact h
  rw [Nat.le_div_iff_mul_le hden, Nat.mul_assoc, Nat.mul_comm _ den] at hge
  unfold nearest at hfin ⊢
  simp only at hfin hm hk ⊢
  have hspace : 0 < den * 2 ^ f.octaveOfUnits (num / den) := Nat.mul_pos hden (Nat.two_pow_pos _)
  obtain ⟨hlower, hupper⟩ := roundHalfEven_bounds num hspace
  rw [Nat.min_eq_left (by omega), f.units_encode hm hk]
  generalize f.octaveOfUnits (num / den) = k at *
  generalize roundHalfEven num (den * 2 ^ k) = m at *
  -- the error is at most a half of the spacing, of which the number has `2 ^ fractionBits`
  have hbelow : 2 ^ (f.fractionBits + 1) * num ≤
      2 ^ (f.fractionBits + 1) * (m * (den * 2 ^ k)) + num := by
    rw [Nat.pow_succ, Nat.mul_assoc, Nat.mul_assoc]
    have := Nat.mul_le_mul_left (2 ^ f.fractionBits) hupper
    rw [Nat.mul_add, Nat.mul_assoc 2 m] at this
    omega
  have habove : 2 ^ (f.fractionBits + 1) * (m * (den * 2 ^ k)) ≤
      2 ^ (f.fractionBits + 1) * num + num := by
    rw [Nat.pow_succ, Nat.mul_assoc, Nat.mul_assoc]
    have := Nat.mul_le_mul_left (2 ^ f.fractionBits) hlower
    rw [Nat.mul_add, Nat.mul_assoc 2 m] at this
    omega
  have hq : (0 : ℚ) < den := Nat.cast_pos.mpr hden
  have hu : (0 : ℚ) < 2 ^ (f.fractionBits + 1) := by positivity
  have hbelow' : (2 : ℚ) ^ (f.fractionBits + 1) * num ≤
      2 ^ (f.fractionBits + 1) * (m * (den * 2 ^ k)) + num := by exact_mod_cast hbelow
  have habove' : (2 : ℚ) ^ (f.fractionBits + 1) * (m * (den * 2 ^ k)) ≤
      2 ^ (f.fractionBits + 1) * num + num := by exact_mod_cast habove
  push_cast
  constructor
  · rw [← mul_div_assoc, div_le_iff₀ hq, ← mul_le_mul_iff_right₀ hu]
    field_simp
    linarith
  · rw [← mul_div_assoc, le_div_iff₀ hq, ← mul_le_mul_iff_right₀ hu]
    field_simp
    linarith

theorem nearest_lt_infinity {num den k : Nat} (hden : 0 < den)
    (hnum : num < 2 ^ f.fractionBits * 2 ^ k * den)
    (hk : 2 ^ f.fractionBits * (k + 2) < f.infinity) : f.nearest num den < f.infinity := by
  obtain ⟨hm, -⟩ := f.roundHalfEven_normal num hden
  obtain ⟨-, hge⟩ := f.octaveOfUnits_spec (num / den)
  have hle : f.octaveOfUnits (num / den) ≤ k := by
    rcases hge with h | h
    · omega
    · rw [← Nat.div_lt_iff_lt_mul hden] at hnum
      have hpow := Nat.lt_of_mul_lt_mul_left (Nat.lt_of_le_of_lt h hnum)
      exact Nat.le_of_lt ((Nat.pow_lt_pow_iff_right (by decide)).mp hpow)
  have hoct := Nat.mul_le_mul_left (2 ^ f.fractionBits) hle
  rw [Nat.mul_add] at hk
  unfold nearest
  simp only
  omega

/-! ### Exact numbers -/

theorem roundsTo_units {code : Nat} (hpos : 0 < code) : f.RoundsTo code (f.units code) := by
  have hlower := f.units_strictMono (Nat.sub_lt hpos Nat.one_pos)
  have hupper := f.units_strictMono (Nat.lt_add_one code)
  have hl : ((f.units (code - 1) + f.units code : ℕ) : ℚ) < 2 * f.units code := by
    exact_mod_cast (by omega : f.units (code - 1) + f.units code < 2 * f.units code)
  have hu : (2 * f.units code : ℚ) < ((f.units code + f.units (code + 1) : ℕ) : ℚ) := by
    exact_mod_cast (by omega : 2 * f.units code < f.units code + f.units (code + 1))
  exact ⟨hl.le, hu.le, fun _ => ⟨hl, hu⟩⟩

/-- **A number of the format is rounded to itself.** -/
theorem nearest_exact {code num den : Nat} (hbits : f.fractionBits ≠ 0) (hden : 0 < den)
    (hpos : 0 < code) (hinf : code ≤ f.infinity) (h : num = f.units code * den) :
    f.nearest num den = code := by
  have hq : (den : ℚ) ≠ 0 := Nat.cast_ne_zero.mpr hden.ne'
  have hdiv : (num : ℚ) / den = f.units code := by
    rw [h, Nat.cast_mul, mul_div_cancel_right₀ _ hq]
  exact f.nearest_eq hbits hden hpos hinf (hdiv ▸ f.roundsTo_units hpos)

/-- **A number whose significant bits fit the format has an encoding.** -/
theorem exists_code {m : Nat} (hm : m < 2 * 2 ^ f.fractionBits) (k : Nat) :
    ∃ code, f.units code = m * 2 ^ k ∧ code ≤ 2 ^ f.fractionBits * (k + 2) := by
  by_cases h0 : m = 0
  · exact ⟨0, by rw [units_zero, h0, Nat.zero_mul], Nat.zero_le _⟩
  -- shift the significand to the left as far as it goes
  have hlow := Nat.log2_self_le h0
  have hhigh := Nat.lt_log2_self (n := m)
  have hlog : m.log2 ≤ f.fractionBits := by
    rw [← Nat.lt_succ_iff, Nat.log2_lt h0, Nat.pow_succ']
    exact hm
  have hshift : m * 2 ^ min k (f.fractionBits - m.log2) < 2 * 2 ^ f.fractionBits := by
    calc m * 2 ^ min k (f.fractionBits - m.log2)
        < 2 ^ (m.log2 + 1) * 2 ^ min k (f.fractionBits - m.log2) :=
          Nat.mul_lt_mul_of_pos_right hhigh (Nat.two_pow_pos _)
      _ = 2 ^ (m.log2 + 1 + min k (f.fractionBits - m.log2)) := (Nat.pow_add _ _ _).symm
      _ ≤ 2 ^ (f.fractionBits + 1) := Nat.pow_le_pow_right Nat.two_pos (by omega)
      _ = 2 * 2 ^ f.fractionBits := Nat.pow_succ'
  have hnormal : k - min k (f.fractionBits - m.log2) = 0 ∨
      2 ^ f.fractionBits ≤ m * 2 ^ min k (f.fractionBits - m.log2) := by
    rcases Nat.le_total k (f.fractionBits - m.log2) with h | h
    · exact .inl (by omega)
    · right
      calc 2 ^ f.fractionBits = 2 ^ (m.log2 + (f.fractionBits - m.log2)) := by
            rw [Nat.add_sub_cancel' hlog]
        _ = 2 ^ m.log2 * 2 ^ (f.fractionBits - m.log2) := Nat.pow_add _ _ _
        _ ≤ m * 2 ^ min k (f.fractionBits - m.log2) := by
            rw [Nat.min_eq_right h]
            exact Nat.mul_le_mul_right _ hlow
  refine ⟨2 ^ f.fractionBits * (k - min k (f.fractionBits - m.log2)) +
    m * 2 ^ min k (f.fractionBits - m.log2), ?_, ?_⟩
  · rw [f.units_encode (Nat.le_of_lt hshift) hnormal, Nat.mul_assoc, ← Nat.pow_add,
      Nat.add_sub_cancel' (Nat.min_le_left _ _)]
  · have hoct := Nat.mul_le_mul_left (2 ^ f.fractionBits)
      (Nat.sub_le k (min k (f.fractionBits - m.log2)))
    rw [Nat.mul_add]
    omega

end BinaryFormat

end Datum
