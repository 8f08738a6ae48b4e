import Datum.Proofs.Text.Runs
import Datum.Text.Digits
import Datum.Text.Layout
import Mathlib.Data.List.Basic
import Mathlib.Data.List.Induction

/-!
# Decimal digits

What is written by digits is read by digits: a number is the value of its digits, also with zeros in
front, and a run of digits is split off in front of anything that does not begin with one.  A sign is
read in front of anything that does not begin with another (`readSign_append`).
-/

namespace Datum.Text

-- the power of the core library, also where algebra has one of its own
attribute [local instance (high)] instPowNat

def AllDigits (text : List Char) : Prop :=
  ∀ c ∈ text, c.isDigit = true

instance (text : List Char) : Decidable (AllDigits text) :=
  decidable_of_iff (text.all Char.isDigit = true) List.all_eq_true

theorem allDigits_toDigits (n : Nat) : AllDigits (Nat.toDigits 10 n) :=
  fun _ hc => Nat.isDigit_of_mem_toDigits (by decide) (by decide) hc

theorem head?_toDigits {n : Nat} (h : n ≠ 0) : (Nat.toDigits 10 n).head? ≠ some '0' := by
  induction n using Nat.strongRecOn with
  | ind n ih =>
    rcases Nat.lt_or_ge n 10 with hn | hn
    · have hdigit : ∀ m < 10, m ≠ 0 → Nat.digitChar m ≠ '0' := by decide
      rw [Nat.toDigits_of_lt_base hn, List.head?_cons, Ne, Option.some.injEq]
      exact hdigit n hn h
    · rw [Nat.toDigits_of_base_le (by decide) hn, List.head?_append_of_ne_nil _ Nat.toDigits_ne_nil]
      exact ih (n / 10) (by omega) (by omega)

theorem allDigits_replicate_zero (n : Nat) : AllDigits (List.replicate n '0') := by
  intro c hc
  rw [List.eq_of_mem_replicate hc]
  rfl

theorem AllDigits.append {a b : List Char} (ha : AllDigits a) (hb : AllDigits b) :
    AllDigits (a ++ b) :=
  List.forall_mem_append.mpr ⟨ha, hb⟩

theorem AllDigits.all {text : List Char} (h : AllDigits text) : text.all Char.isDigit = true :=
  List.all_eq_true.mpr h

theorem isDigit_bounds {c : Char} (h : c.isDigit = true) : 48 ≤ c.toNat ∧ c.toNat ≤ 57 := by
  simp only [Char.isDigit, Bool.and_eq_true, decide_eq_true_iff] at h
  exact h

theorem not_isAsciiBlank_of_isDigit {c : Char} (h : c.isDigit = true) : isAsciiBlank c = false := by
  have hb := isDigit_bounds h
  rw [← Bool.not_eq_true]
  intro hblank
  simp only [isAsciiBlank, Bool.or_eq_true, beq_iff_eq] at hblank
  rcases hblank with (((rfl | rfl) | rfl) | rfl) | rfl <;> revert h <;> decide

theorem le_ofDigitChars (digits : List Char) (n : Nat) : n ≤ Nat.ofDigitChars 10 digits n := by
  induction digits generalizing n with
  | nil => exact Nat.le_refl n
  | cons c digits ih =>
    rw [Nat.ofDigitChars_cons]
    exact Nat.le_trans (by omega) (ih _)

theorem ofDigitChars_replicate_append (k : Nat) (digits : List Char) :
    Nat.ofDigitChars 10 (List.replicate k '0' ++ digits) 0 = Nat.ofDigitChars 10 digits 0 := by
  rw [Nat.ofDigitChars_append, Nat.ofDigitChars_replicate_zero, Nat.mul_zero]

theorem ofDigitChars_append_replicate (digits : List Char) (k : Nat) :
    Nat.ofDigitChars 10 (digits ++ List.replicate k '0') 0 =
      Nat.ofDigitChars 10 digits 0 * 10 ^ k := by
  rw [Nat.ofDigitChars_append, Nat.ofDigitChars_replicate_zero, Nat.mul_comm]

theorem ofDigitChars_concat (digits : List Char) (c : Char) :
    Nat.ofDigitChars 10 (digits ++ [c]) 0 = 10 * Nat.ofDigitChars 10 digits 0 + (c.toNat - 48) := by
  rw [Nat.ofDigitChars_append, Nat.ofDigitChars_cons, Nat.ofDigitChars_nil]
  rfl

theorem AllDigits.ofDigitChars_lt {digits : List Char} (h : AllDigits digits) :
    Nat.ofDigitChars 10 digits 0 < 10 ^ digits.length := by
  induction digits using List.reverseRecOn with
  | nil => decide
  | append_singleton digits c ih =>
    have hc := isDigit_bounds (h c (List.mem_append_right _ List.mem_cons_self))
    have ih := ih fun c hc => h c (List.mem_append_left _ hc)
    rw [ofDigitChars_concat, List.length_append, List.length_singleton, Nat.pow_succ]
    omega

theorem spanDigits_append {digits rest : List Char} (hd : AllDigits digits)
    (hr : ∀ c ∈ rest.head?, c.isDigit = false) : spanDigits (digits ++ rest) = (digits, rest) := by
  rw [spanDigits, takeWhile_run_append hd hr, dropWhile_run_append hd hr]

theorem spanDigits_eq {digits : List Char} (hd : AllDigits digits) :
    spanDigits digits = (digits, []) := by
  have h : spanDigits (digits ++ []) = (digits, []) := spanDigits_append hd (by simp)
  rwa [List.append_nil] at h

theorem eq_append_spanDigits (text : List Char) :
    text = (spanDigits text).1 ++ (spanDigits text).2 :=
  List.takeWhile_append_dropWhile.symm

theorem allDigits_spanDigits (text : List Char) : AllDigits (spanDigits text).1 :=
  forall_mem_takeWhile Char.isDigit text

theorem head?_spanDigits (text : List Char) :
    ∀ c ∈ (spanDigits text).2.head?, c.isDigit = false :=
  head?_dropWhile Char.isDigit text

/-! ### Signs -/

/-- A sign as it is written, and whether it is a minus.  It may be missing. -/
inductive IsSign : List Char → Bool → Prop
  | none : IsSign [] false
  | plus : IsSign ['+'] false
  | minus : IsSign ['-'] true

theorem IsSign.mem {sign : List Char} {negative : Bool} (h : IsSign sign negative) {c : Char}
    (hc : c ∈ sign) : c = '+' ∨ c = '-' := by
  cases h with
  | none => cases hc
  | plus => exact .inl (List.mem_singleton.mp hc)
  | minus => exact .inr (List.mem_singleton.mp hc)

def signed {α : Type} [Neg α] (negative : Bool) (a : α) : α :=
  if negative then -a else a

theorem readSign_append {sign body : List Char} {negative : Bool} (hs : IsSign sign negative)
    (hb : ∀ c ∈ body.head?, c ≠ '+' ∧ c ≠ '-') : readSign (sign ++ body) = (negative, body) := by
  cases hs with
  | plus => rfl
  | minus => rfl
  | none =>
    rw [List.nil_append, readSign.eq_def]
    split
    · exact absurd rfl (hb '-' rfl).2
    · exact absurd rfl (hb '+' rfl).1
    · rfl

theorem readSign_append_digits {sign digits : List Char} {negative : Bool}
    (hs : IsSign sign negative) (hne : digits ≠ []) (hd : AllDigits digits) (rest : List Char) :
    readSign (sign ++ (digits ++ rest)) = (negative, digits ++ rest) := by
  refine readSign_append hs ?_
  intro c hc
  rw [List.head?_append_of_ne_nil _ hne] at hc
  have hdigit := hd c (List.mem_of_mem_head? hc)
  constructor <;> rintro rfl <;> cases hdigit

theorem exists_sign (text : List Char) :
    ∃ sign, IsSign sign (readSign text).1 ∧ text = sign ++ (readSign text).2 := by
  unfold readSign
  split
  · exact ⟨['-'], .minus, rfl⟩
  · exact ⟨['+'], .plus, rfl⟩
  · exact ⟨[], .none, rfl⟩

end Datum.Text
