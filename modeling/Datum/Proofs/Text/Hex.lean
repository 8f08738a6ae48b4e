import Datum.Text.Digits
import Mathlib.Data.List.Basic

/-!
# What is read as hexadecimal

A text is read as bytes if it spells each of them by a pair of characters (`readPairs_eq_ok_iff`).  The
second of a pair is a digit, and so is the first, which may be a plus sign, too: a pair is read as a
number, and this is what a number may begin with.  What has been written is read back
(`read_without_blanks`).

Pairs are counted in bytes, so that a pair can end inside a character, which the reader does not
survive.  This happens exactly if such a pair stands behind pairs that are read
(`readPairs_eq_splits_iff`); a text in ASCII is safe (`not_cutsCharacter_of_ascii`).
-/

namespace Datum.Hex

/-! ### Digits and pairs -/

/-- The digit of a number below sixteen, in either case. -/
def IsDigit (c : Char) (n : Nat) : Prop :=
  n < 16 ∧ (c = Nat.digitChar n ∨ c = (Nat.digitChar n).toUpper)

instance (c : Char) (n : Nat) : Decidable (IsDigit c n) :=
  inferInstanceAs (Decidable (_ ∧ _))

/-- What may stand first in a pair. -/
def IsLeading (c : Char) (n : Nat) : Prop :=
  IsDigit c n ∨ c = '+' ∧ n = 0

instance (c : Char) (n : Nat) : Decidable (IsLeading c n) :=
  inferInstanceAs (Decidable (_ ∨ _))

/-- The text has a pair of characters for each byte.  The second of a pair is a digit, the first one
is of a class. -/
inductive Spells (first : Char → Nat → Prop) : List Char → List UInt8 → Prop
  | nil : Spells first [] []
  | pair {a b : Char} {high low : Nat} {text : List Char} {bytes : List UInt8} (ha : first a high)
      (hb : IsDigit b low) (h : Spells first text bytes) :
      Spells first (a :: b :: text) ((16 * high + low).toUInt8 :: bytes)

theorem Spells.mono {first first' : Char → Nat → Prop} (hf : ∀ c n, first c n → first' c n)
    {text : List Char} {bytes : List UInt8} (h : Spells first text bytes) :
    Spells first' text bytes := by
  induction h with
  | nil => exact .nil
  | pair ha hb _ ih => exact .pair (hf _ _ ha) hb ih

theorem isDigit_of_row {base width least : Nat}
    (hrow : ∀ m < width, IsDigit (Char.ofNat (base + m)) (m + least)) {c : Char}
    (hge : base ≤ c.toNat) (hlt : c.toNat < base + width) : IsDigit c (c.toNat - base + least) := by
  have hdigit := hrow (c.toNat - base) (by omega)
  rwa [Nat.add_sub_cancel' hge, Char.ofNat_toNat] at hdigit

theorem hexDigit?_eq_some_iff {c : Char} {n : Nat} : Text.hexDigit? c = some n ↔ IsDigit c n := by
  constructor
  · intro h
    have hdecimal : ∀ m < 10, IsDigit (Char.ofNat (48 + m)) (m + 0) := by decide
    have hlower : ∀ m < 6, IsDigit (Char.ofNat (97 + m)) (m + 10) := by decide
    have hupper : ∀ m < 6, IsDigit (Char.ofNat (65 + m)) (m + 10) := by decide
    unfold Text.hexDigit? at h
    split at h
    · rename_i hc
      obtain rfl := Option.some.inj h
      exact isDigit_of_row hdecimal hc.1 (Nat.lt_succ_of_le hc.2)
    · split at h
      · rename_i hc
        obtain rfl := Option.some.inj h
        exact isDigit_of_row hlower hc.1 (Nat.lt_succ_of_le hc.2)
      · split at h
        · rename_i hc
          obtain rfl := Option.some.inj h
          exact isDigit_of_row hupper hc.1 (Nat.lt_succ_of_le hc.2)
        · cases h
  · rintro ⟨hn, hc⟩
    have heach : ∀ m < 16, Text.hexDigit? (Nat.digitChar m) = some m ∧
        Text.hexDigit? (Nat.digitChar m).toUpper = some m := by decide
    rcases hc with rfl | rfl
    · exact (heach n hn).1
    · exact (heach n hn).2

theorem IsDigit.utf8Size {c : Char} {n : Nat} (h : IsDigit c n) : c.utf8Size = 1 := by
  have heach : ∀ m < 16, (Nat.digitChar m).utf8Size = 1 ∧ (Nat.digitChar m).toUpper.utf8Size = 1 := by
    decide
  rcases h.2 with rfl | rfl
  · exact (heach n h.1).1
  · exact (heach n h.1).2

theorem IsLeading.utf8Size {c : Char} {n : Nat} (h : IsLeading c n) : c.utf8Size = 1 := by
  rcases h with h | ⟨rfl, -⟩
  · exact h.utf8Size
  · rfl

theorem pair?_eq_some_iff {a b : Char} {byte : UInt8} :
    pair? a b = some byte ↔
      ∃ high low, IsLeading a high ∧ IsDigit b low ∧ byte = (16 * high + low).toUInt8 := by
  have hfirst {high : Nat} :
      (if a = '+' then some 0 else Text.hexDigit? a) = some high ↔ IsLeading a high := by
    split
    · rename_i hplus
      subst hplus
      have hnot : ¬IsDigit '+' high := by
        rw [← hexDigit?_eq_some_iff]
        nofun
      simp [IsLeading, hnot, eq_comm]
    · rename_i hplus
      simp [IsLeading, hplus, hexDigit?_eq_some_iff]
  have hpair : pair? a b = (if a = '+' then some 0 else Text.hexDigit? a).bind fun high =>
      (Text.hexDigit? b).bind fun low => some (16 * high + low).toUInt8 := by
    unfold pair?
    split <;> rfl
  simp only [hpair, Option.bind_eq_some_iff, Option.some_inj, hfirst, hexDigit?_eq_some_iff]
  constructor
  · rintro ⟨high, hhigh, low, hlow, rfl⟩
    exact ⟨high, low, hhigh, hlow, rfl⟩
  · rintro ⟨high, low, hhigh, hlow, rfl⟩
    exact ⟨high, hhigh, low, hlow, rfl⟩

/-! ### Pairs behind one another -/

/-- The next pair of bytes ends inside a character. -/
def BeginsWithCut : List Char → Prop
  | [] => False
  | c :: rest => 2 < c.utf8Size ∨ c.utf8Size = 1 ∧ ∃ d ∈ rest.head?, 1 < d.utf8Size

/-- Behind pairs that are read, a pair of bytes ends inside a character. -/
def CutsCharacter (text : List Char) : Prop :=
  ∃ front rest bytes, text = front ++ rest ∧ Spells IsLeading front bytes ∧ BeginsWithCut rest

theorem readPairs_pair {a b : Char} (ha : a.utf8Size = 1) (hb : b.utf8Size = 1) (rest : List Char) :
    readPairs (a :: b :: rest) =
      (pair? a b).elim (.error .notDigit) fun byte => (readPairs rest).map (byte :: ·) := by
  rw [readPairs, if_pos ha, if_pos hb]
  cases pair? a b <;> rfl

theorem readPairs_of_utf8Size_ne {a : Char} (h : a.utf8Size ≠ 1) (rest : List Char) :
    readPairs (a :: rest) =
      if a.utf8Size = 2 then .error .notDigit else .error .splitsCharacter := by
  rw [readPairs.eq_def]
  simp only [if_neg h]

/-- **Pairs are read apart from what follows them.** -/
theorem readPairs_append {front : List Char} {bytes : List UInt8} (h : Spells IsLeading front bytes)
    (rest : List Char) : readPairs (front ++ rest) = (readPairs rest).map (bytes ++ ·) := by
  induction h with
  | nil => cases h : readPairs rest <;> simp [h, Except.map]
  | @pair a b high low text bytes ha hb _ ih =>
    have hpair : pair? a b = some (16 * high + low).toUInt8 :=
      pair?_eq_some_iff.mpr ⟨high, low, ha, hb, rfl⟩
    rw [List.cons_append, List.cons_append, readPairs_pair ha.utf8Size hb.utf8Size, hpair,
      Option.elim_some, ih]
    cases readPairs rest <;> rfl

theorem readPairs_of_beginsWithCut {text : List Char} (h : BeginsWithCut text) :
    readPairs text = .error .splitsCharacter := by
  cases text with
  | nil => exact h.elim
  | cons c rest =>
    rcases h with hc | ⟨hc, d, hd, hsize⟩
    · rw [readPairs_of_utf8Size_ne (by omega), if_neg (by omega)]
    · cases rest with
      | nil => cases hd
      | cons d' rest =>
        obtain rfl := Option.some.inj hd
        rw [readPairs, if_pos hc, if_neg (by omega)]

/-- What the reader finds behind the pairs that it reads: the end, a character that it cuts, or a pair
that is no byte. -/
theorem readPairs_cases (text : List Char) :
    ∃ front rest bytes, text = front ++ rest ∧ Spells IsLeading front bytes ∧
      (rest = [] ∧ readPairs text = .ok bytes ∨
        BeginsWithCut rest ∧ readPairs text = .error .splitsCharacter ∨
        readPairs text = .error .notDigit) := by
  have hstop {text : List Char} (h : BeginsWithCut text ∧ readPairs text = .error .splitsCharacter ∨
      readPairs text = .error .notDigit) :
      ∃ front rest bytes, text = front ++ rest ∧ Spells IsLeading front bytes ∧
        (rest = [] ∧ readPairs text = .ok bytes ∨
          BeginsWithCut rest ∧ readPairs text = .error .splitsCharacter ∨
          readPairs text = .error .notDigit) :=
    ⟨[], text, [], rfl, .nil, .inr h⟩
  induction text using readPairs.induct with
  | case1 => exact ⟨[], [], [], rfl, .nil, .inl ⟨rfl, rfl⟩⟩
  | case2 a ha => exact hstop (.inr (by rw [readPairs, if_pos ha]))
  | case3 a ha b rest hb byte hpair ih =>
    obtain ⟨high, low, hhigh, hlow, rfl⟩ := pair?_eq_some_iff.mp hpair
    obtain ⟨front, rest, bytes, rfl, hfront, hcases⟩ := ih
    have hread : readPairs (a :: b :: (front ++ rest)) =
        (readPairs (front ++ rest)).map ((16 * high + low).toUInt8 :: ·) := by
      rw [readPairs_pair ha hb, hpair, Option.elim_some]
    refine ⟨a :: b :: front, rest, _, rfl, .pair hhigh hlow hfront, ?_⟩
    rw [hread]
    rcases hcases with ⟨hrest, hok⟩ | ⟨hcut, herror⟩ | herror
    · exact .inl ⟨hrest, by rw [hok]; rfl⟩
    · exact .inr (.inl ⟨hcut, by rw [herror]; rfl⟩)
    · exact .inr (.inr (by rw [herror]; rfl))
  | case4 a ha b rest hb hpair =>
    refine hstop (.inr ?_)
    rw [readPairs_pair ha hb, hpair, Option.elim_none]
  | case5 a ha b rest hb =>
    have hsize : 1 < b.utf8Size := by
      have hpos := b.utf8Size_pos
      omega
    have hcut : BeginsWithCut (a :: b :: rest) := .inr ⟨ha, b, rfl, hsize⟩
    exact hstop (.inl ⟨hcut, readPairs_of_beginsWithCut hcut⟩)
  | case6 a rest h1 h2 => exact hstop (.inr (by rw [readPairs_of_utf8Size_ne h1, if_pos h2]))
  | case7 a rest h1 h2 =>
    have hsize : 2 < a.utf8Size := by
      have hpos := a.utf8Size_pos
      omega
    have hcut : BeginsWithCut (a :: rest) := .inl hsize
    exact hstop (.inl ⟨hcut, readPairs_of_beginsWithCut hcut⟩)

/-- **Pairs are read exactly if they spell bytes.** -/
theorem readPairs_eq_ok_iff {text : List Char} {bytes : List UInt8} :
    readPairs text = .ok bytes ↔ Spells IsLeading text bytes := by
  constructor
  · intro h
    obtain ⟨front, rest, bytes', rfl, hfront, ⟨rfl, hok⟩ | ⟨-, herror⟩ | herror⟩ := readPairs_cases text
    · rw [List.append_nil] at hok h ⊢
      obtain rfl := Except.ok.inj (h.symm.trans hok)
      exact hfront
    · cases h.symm.trans herror
    · cases h.symm.trans herror
  · intro h
    have hread := readPairs_append h []
    rw [List.append_nil] at hread
    rw [hread, readPairs]
    exact congrArg Except.ok (List.append_nil bytes)

/-- **A pair ends inside a character exactly if one does behind pairs that are read.** -/
theorem readPairs_eq_splits_iff {text : List Char} :
    readPairs text = .error .splitsCharacter ↔ CutsCharacter text := by
  constructor
  · intro h
    obtain ⟨front, rest, bytes, rfl, hfront, ⟨-, hok⟩ | ⟨hcut, -⟩ | herror⟩ := readPairs_cases text
    · cases h.symm.trans hok
    · exact ⟨front, rest, bytes, rfl, hfront, hcut⟩
    · cases h.symm.trans herror
  · rintro ⟨front, rest, bytes, rfl, hfront, hcut⟩
    rw [readPairs_append hfront, readPairs_of_beginsWithCut hcut]
    rfl

/-! ### Texts -/

theorem Spells.utf8ByteSize {text : List Char} {bytes : List UInt8} (h : Spells IsLeading text bytes) :
    (String.ofList text).utf8ByteSize = 2 * bytes.length := by
  have hcons (c : Char) (rest : List Char) :
      (String.ofList (c :: rest)).utf8ByteSize = c.utf8Size + (String.ofList rest).utf8ByteSize := by
    rw [← List.singleton_append, String.ofList_append, String.utf8ByteSize_append,
      ← String.singleton_eq_ofList, String.utf8ByteSize_singleton]
  induction h with
  | nil => rfl
  | pair ha hb _ ih =>
    rw [hcons, hcons, ha.utf8Size, hb.utf8Size, ih, List.length_cons]
    omega

theorem read_eq_ok_iff {text : String} {bytes : List UInt8} :
    read text = .ok bytes ↔ Spells IsLeading text.toList bytes := by
  rw [← readPairs_eq_ok_iff, read]
  split
  · rename_i hodd
    refine iff_of_false nofun ?_
    intro h
    apply hodd
    have hsize := (readPairs_eq_ok_iff.mp h).utf8ByteSize
    rw [String.ofList_toList] at hsize
    omega
  · rfl

theorem read_eq_splits_iff {text : String} :
    read text = .error .splitsCharacter ↔
      text.utf8ByteSize % 2 = 0 ∧ CutsCharacter text.toList := by
  rw [← readPairs_eq_splits_iff, read]
  split
  · rename_i hodd
    exact iff_of_false nofun fun h => hodd h.1
  · rename_i heven
    exact (and_iff_right (not_not.mp heven)).symm

/-- Without a plus sign a pair can only be two digits. -/
theorem spells_isLeading_iff {text : List Char} (h : '+' ∉ text) {bytes : List UInt8} :
    Spells IsLeading text bytes ↔ Spells IsDigit text bytes := by
  constructor
  · intro hs
    induction hs with
    | nil => exact .nil
    | pair ha hb _ ih =>
      rw [List.mem_cons, List.mem_cons, not_or, not_or] at h
      rcases ha with ha | ⟨rfl, -⟩
      · exact .pair ha hb (ih h.2.2)
      · exact absurd rfl h.1
  · exact fun hs => hs.mono fun _ _ => .inl

theorem not_cutsCharacter_of_ascii {text : List Char} (h : ∀ c ∈ text, c.toNat < 128) :
    ¬CutsCharacter text := by
  rintro ⟨front, rest, _, rfl, -, hcut⟩
  have hrest : ∀ c ∈ rest, c.utf8Size = 1 := by
    intro c hc
    have hascii : c.toNat < 128 := h c (List.mem_append_right front hc)
    exact Char.utf8Size_eq_one_iff.mpr (Nat.le_of_lt_succ hascii)
  cases rest with
  | nil => exact hcut
  | cons c rest =>
    rcases hcut with hc | ⟨-, d, hd, hsize⟩
    · rw [hrest c List.mem_cons_self] at hc
      omega
    · rw [hrest d (List.mem_cons_of_mem c (List.mem_of_mem_head? hd))] at hsize
      omega

/-! ### What has been written -/

theorem isDigit_digitChar {n : Nat} (h : n < 16) : IsDigit (Nat.digitChar n) n :=
  ⟨h, .inl rfl⟩

theorem spells_flatMap_byteChars (bytes : List UInt8) :
    Spells IsDigit (bytes.flatMap byteChars) bytes := by
  induction bytes with
  | nil => exact .nil
  | cons byte bytes ih =>
    have hbyte := byte.toNat_lt
    have hpair := Spells.pair (isDigit_digitChar (show byte.toNat / 16 < 16 by omega))
      (isDigit_digitChar (show byte.toNat % 16 < 16 by omega)) ih
    have hback : byte.toNat.toUInt8 = byte := UInt8.ofNat_toNat
    rwa [Nat.div_add_mod, hback] at hpair

theorem filter_intercalate_byteChars (bytes : List UInt8) :
    (List.intercalate [' '] (bytes.map byteChars)).filter (· ≠ ' ') = bytes.flatMap byteChars := by
  have hdigit : ∀ n < 16, Nat.digitChar n ≠ ' ' := by decide
  have hkeep (byte : UInt8) : (byteChars byte).filter (· ≠ ' ') = byteChars byte := by
    have hbyte := byte.toNat_lt
    rw [List.filter_eq_self, byteChars]
    simp [hdigit (byte.toNat / 16) (by omega), hdigit (byte.toNat % 16) (by omega)]
  induction bytes with
  | nil => rfl
  | cons byte bytes ih =>
    cases bytes with
    | nil => simpa using hkeep byte
    | cons next bytes =>
      rw [List.map_cons] at ih
      rw [List.map_cons, List.map_cons, List.intercalate_cons_cons, List.filter_append,
        List.filter_append, hkeep, ih, List.flatMap_cons]
      rfl

/-- **What has been written is read back** when the blanks between the bytes are taken out. -/
theorem read_without_blanks (bytes : List UInt8) :
    read (String.ofList ((spaced bytes).toList.filter (· ≠ ' '))) = .ok bytes := by
  rw [read_eq_ok_iff, String.toList_ofList, spaced, String.toList_ofList,
    filter_intercalate_byteChars]
  exact (spells_flatMap_byteChars bytes).mono fun _ _ => .inl

end Datum.Hex
