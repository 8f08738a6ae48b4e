import Datum.Text.Utf8
import Mathlib.Data.List.Basic

/-!
# Reading UTF-8 back

A lead byte and the continuation bytes that belong to it are scanned as one character, whatever
follows them (`scan_one` to `scan_four`).  The bytes of a character are such a sequence
(`scan_encodePoint_append`), so the bytes of a text are well formed and decode to the text.
-/

namespace Datum.Utf8

/-! ### Sequences -/

theorem scan_one {a : UInt8} (ha : a.toNat < 0x80) (rest : List UInt8) :
    scan (a :: rest) = some (Char.ofNat a.toNat) :: scan rest := by
  rw [scan.eq_def]
  simp only [if_pos ha]

theorem scan_two {a b : UInt8} (ha : 0xc2 ≤ a.toNat ∧ a.toNat < 0xe0)
    (hb : isContinuation b = true) (rest : List UInt8) :
    scan (a :: b :: rest) = some (joinTwo a b) :: scan rest := by
  rw [scan.eq_def]
  simp only [if_neg (show ¬ a.toNat < 0x80 by omega), if_neg (show ¬ a.toNat < 0xc2 by omega),
    if_pos ha.2, if_pos hb]

theorem scan_three {a b c : UInt8} (ha : 0xe0 ≤ a.toNat ∧ a.toNat < 0xf0)
    (hb : isSecondOfThree a b = true) (hc : isContinuation c = true) (rest : List UInt8) :
    scan (a :: b :: c :: rest) = some (joinThree a b c) :: scan rest := by
  rw [scan.eq_def]
  simp only [if_neg (show ¬ a.toNat < 0x80 by omega), if_neg (show ¬ a.toNat < 0xc2 by omega),
    if_neg (show ¬ a.toNat < 0xe0 by omega), if_pos ha.2, if_pos hb, if_pos hc]

theorem scan_four {a b c d : UInt8} (ha : 0xf0 ≤ a.toNat ∧ a.toNat < 0xf5)
    (hb : isSecondOfFour a b = true) (hc : isContinuation c = true) (hd : isContinuation d = true)
    (rest : List UInt8) :
    scan (a :: b :: c :: d :: rest) = some (joinFour a b c d) :: scan rest := by
  rw [scan.eq_def]
  simp only [if_neg (show ¬ a.toNat < 0x80 by omega), if_neg (show ¬ a.toNat < 0xc2 by omega),
    if_neg (show ¬ a.toNat < 0xe0 by omega), if_neg (show ¬ a.toNat < 0xf0 by omega), if_pos ha.2,
    if_pos hb, if_pos hc, if_pos hd]

/-! ### Characters -/

/-- The code points of characters: all but the surrogates. -/
theorem toNat_bounds (c : Char) : c.toNat < 0xd800 ∨ 0xdfff < c.toNat ∧ c.toNat < 0x110000 := by
  have h := c.valid
  simp only [UInt32.isValidChar, Nat.isValidChar] at h
  exact h

theorem toNat_toUInt8 {n : Nat} (h : n < 256) : n.toUInt8.toNat = n := by
  rw [Nat.toUInt8_eq, UInt8.toNat_ofNat', Nat.mod_eq_of_lt h]

theorem ofNat_eq_of_eq {c : Char} {n : Nat} (h : n = c.toNat) : Char.ofNat n = c := by
  rw [h, Char.ofNat_toNat]

theorem toNat_trailing (n : Nat) : (0x80 + n % 0x40).toUInt8.toNat = 0x80 + n % 0x40 :=
  toNat_toUInt8 (by omega)

theorem isContinuation_trailing (n : Nat) : isContinuation (0x80 + n % 0x40).toUInt8 = true := by
  rw [isContinuation, toNat_trailing, Bool.and_eq_true, decide_eq_true_iff, decide_eq_true_iff]
  omega

/-- **The bytes of a character are read as the character.** -/
theorem scan_encodePoint_append (c : Char) (rest : List UInt8) :
    scan (encodePoint c.toNat ++ rest) = some c :: scan rest := by
  have hn := toNat_bounds c
  generalize hc : c.toNat = n at hn
  unfold encodePoint
  split
  · have ha : n.toUInt8.toNat = n := toNat_toUInt8 (by omega)
    rw [List.singleton_append, scan_one (by omega), ha, ofNat_eq_of_eq hc.symm]
  split
  · have ha : (0xc0 + n / 0x40).toUInt8.toNat = 0xc0 + n / 0x40 := toNat_toUInt8 (by omega)
    have hjoin : joinTwo (0xc0 + n / 0x40).toUInt8 (0x80 + n % 0x40).toUInt8 = c :=
      ofNat_eq_of_eq (by rw [ha, toNat_trailing]; omega)
    simp only [List.cons_append, List.nil_append]
    rw [scan_two (by omega) (isContinuation_trailing _), hjoin]
  split
  · have ha : (0xe0 + n / 0x1000).toUInt8.toNat = 0xe0 + n / 0x1000 := toNat_toUInt8 (by omega)
    have hb : isSecondOfThree (0xe0 + n / 0x1000).toUInt8 (0x80 + n / 0x40 % 0x40).toUInt8 = true := by
      simp only [isSecondOfThree, isContinuation_trailing, ha, toNat_trailing, Bool.true_and,
        Bool.and_eq_true, Bool.or_eq_true, bne_iff_ne, decide_eq_true_iff]
      omega
    have hjoin : joinThree (0xe0 + n / 0x1000).toUInt8 (0x80 + n / 0x40 % 0x40).toUInt8
        (0x80 + n % 0x40).toUInt8 = c :=
      ofNat_eq_of_eq (by rw [ha, toNat_trailing, toNat_trailing]; omega)
    simp only [List.cons_append, List.nil_append]
    rw [scan_three (by omega) hb (isContinuation_trailing _), hjoin]
  · have ha : (0xf0 + n / 0x40000).toUInt8.toNat = 0xf0 + n / 0x40000 := toNat_toUInt8 (by omega)
    have hb : isSecondOfFour (0xf0 + n / 0x40000).toUInt8 (0x80 + n / 0x1000 % 0x40).toUInt8 =
        true := by
      simp only [isSecondOfFour, isContinuation_trailing, ha, toNat_trailing, Bool.true_and,
        Bool.and_eq_true, Bool.or_eq_true, bne_iff_ne, decide_eq_true_iff]
      omega
    have hjoin : joinFour (0xf0 + n / 0x40000).toUInt8 (0x80 + n / 0x1000 % 0x40).toUInt8
        (0x80 + n / 0x40 % 0x40).toUInt8 (0x80 + n % 0x40).toUInt8 = c :=
      ofNat_eq_of_eq (by rw [ha, toNat_trailing, toNat_trailing, toNat_trailing]; omega)
    simp only [List.cons_append, List.nil_append]
    rw [scan_four (by omega) hb (isContinuation_trailing _) (isContinuation_trailing _), hjoin]

theorem scan_flatMap (text : List Char) :
    scan (text.flatMap fun c => encodePoint c.toNat) = text.map some := by
  induction text with
  | nil => rfl
  | cons c text ih => rw [List.flatMap_cons, scan_encodePoint_append, ih, List.map_cons]

/-- **The bytes of a text decode to the text.** -/
@[simp] theorem decode?_encode (text : String) : decode? (encode text) = some text := by
  have hmap : (text.toList.map some).mapM id = some text.toList := by
    have h := List.mapM_pure (m := Option) (l := text.toList) (f := fun c => c)
    rw [List.map_id'] at h
    rw [List.mapM_map]
    exact h
  rw [decode?, encode, scan_flatMap, hmap, Option.map_some, String.ofList_toList]

end Datum.Utf8
