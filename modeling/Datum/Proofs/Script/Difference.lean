import Datum.Proofs.Text.Lines
import Datum.Script.Replay
import Mathlib.Order.Bounds.Defs

/-!
# Where the output of a script differs

A check that fails because of its output reports the first line in which this differs from the file,
where a line that one of them lacks counts as different from one that the other has
(`isLeast_firstDifference`).  There is such a line, since a check looks at the texts without the blanks
at their end: texts of the same lines differ at most in these, as long as no carriage return is hidden
in the ends of the lines (`Text.trimBlankEnd_eq_of_lines_eq`).
-/

namespace Datum.Script

/-! ### The first difference of lists of lines -/

/-- **Of lists that differ, the first difference is found.** -/
theorem isLeast_firstDifference {as bs : List String} (h : as ≠ bs) :
    IsLeast {i | as[i]? ≠ bs[i]?} (firstDifference as bs) := by
  fun_induction firstDifference as bs with
  | case1 as a bs ih =>
    have hne : as ≠ bs := by
      intro heq
      exact h (by rw [heq])
    obtain ⟨hmem, hleast⟩ := ih hne
    refine ⟨hmem, ?_⟩
    intro j hj
    cases j with
    | zero => exact absurd rfl hj
    | succ j => exact Nat.succ_le_succ (hleast hj)
  | case2 a as b bs hab => exact ⟨fun heq => hab (Option.some.inj heq), fun j _ => Nat.zero_le j⟩
  | case3 as bs hnot =>
    refine ⟨?_, fun j _ => Nat.zero_le j⟩
    cases as with
    | nil =>
      cases bs with
      | nil => exact absurd rfl h
      | cons b bs => nofun
    | cons a as =>
      cases bs with
      | nil => nofun
      | cons b bs => exact absurd rfl (hnot a as b bs rfl)

theorem firstDifference_le_length (as bs : List String) :
    firstDifference as bs ≤ as.length ∧ firstDifference as bs ≤ bs.length := by
  fun_induction firstDifference as bs with
  | case1 as a bs ih => exact ⟨Nat.succ_le_succ ih.1, Nat.succ_le_succ ih.2⟩
  | case2 => exact ⟨Nat.zero_le _, Nat.zero_le _⟩
  | case3 => exact ⟨Nat.zero_le _, Nat.zero_le _⟩

theorem take_eq_of_isLeast {as bs : List String} {i : Nat}
    (h : IsLeast {i | as[i]? ≠ bs[i]?} i) : as.take i = bs.take i := by
  apply List.ext_getElem?
  intro j
  rw [List.getElem?_take, List.getElem?_take]
  split
  · rename_i hj
    by_contra hne
    exact absurd (h.2 hne) (Nat.not_le.mpr hj)
  · rfl

/-! ### The report of a check -/

/-- A check of a file that is not to be updated reports a mismatch if the output differs in more than
blanks at the end. -/
theorem checkFile_eq_mismatch {σ : Type} {run : Runner σ} {path script output : String} {s : σ}
    (hg : (generate run script s).1 = .ok output)
    (h : Text.trimBlankEnd script ≠ Text.trimBlankEnd output) :
    (checkFile run path false script s).1 = .error (mismatch path script output) := by
  cases hc : generate run script s with
  | mk outcome s' =>
    rw [hc] at hg
    obtain rfl : outcome = .ok output := hg
    rw [checkFile, hc]
    simp only [if_neg (Ne.symm h)]
    rfl

/-- **The report points at the first line that differs.**  For texts without carriage returns that
differ in more than blanks at their end there is a least index at which their lines differ, or one of
them has no line any more; up to there they agree.  The report gives the number of this line, counted
from one, and shows the line of both, empty where it is missing. -/
theorem mismatch_at_first_difference (path : String) {expected actual : String}
    (he : '\r' ∉ expected.toList) (ha : '\r' ∉ actual.toList)
    (h : Text.trimBlankEnd expected ≠ Text.trimBlankEnd actual) :
    ∃ i, IsLeast {j | (Text.lines expected)[j]? ≠ (Text.lines actual)[j]?} i ∧
      (i ≤ (Text.lines expected).length ∧ i ≤ (Text.lines actual).length ∧
        (Text.lines expected).take i = (Text.lines actual).take i) ∧
      mismatch path expected actual = .outputDiffers path (i + 1)
        ((Text.lines expected)[i]?.getD "") ((Text.lines actual)[i]?.getD "") actual ∧
      (mismatch path expected actual).message =
        s!"{path}: output does not match\nfirst difference at line {i + 1}\nexpected: " ++
          Text.quoted ((Text.lines expected)[i]?.getD "") ++ "\nactual:   " ++
          Text.quoted ((Text.lines actual)[i]?.getD "") ++ "\n\n" ++ actual := by
  have hlines : Text.lines expected ≠ Text.lines actual := by
    intro heq
    exact h (Text.trimBlankEnd_eq_of_lines_eq he ha heq)
  have hleast := isLeast_firstDifference hlines
  obtain ⟨hle, hla⟩ := firstDifference_le_length (Text.lines expected) (Text.lines actual)
  have hreport : mismatch path expected actual = .outputDiffers path
      (firstDifference (Text.lines expected) (Text.lines actual) + 1)
      ((Text.lines expected)[firstDifference (Text.lines expected) (Text.lines actual)]?.getD "")
      ((Text.lines actual)[firstDifference (Text.lines expected) (Text.lines actual)]?.getD "")
      actual := by
    simp only [mismatch, List.getD_eq_getElem?_getD]
  exact ⟨_, hleast, ⟨hle, hla, take_eq_of_isLeast hleast⟩, hreport, by rw [hreport]; rfl⟩

/-- A blank line that is missing in the output shows like one that is there.  Lines that are there
show between quotes, with what is in them escaped. -/
theorem mismatch_at_first_difference_blank_line :
    '\r' ∉ "a\n\nb\n".toList ∧ '\r' ∉ "a\n".toList ∧
    Text.trimBlankEnd "a\n\nb\n" ≠ Text.trimBlankEnd "a\n" ∧
    IsLeast {j | (Text.lines "a\n\nb\n")[j]? ≠ (Text.lines "a\n")[j]?} 1 ∧
    mismatch "file" "a\n\nb\n" "a\n" = .outputDiffers "file" 2 "" "" "a\n" ∧
    (mismatch "file" "a\nb\n" "a\nb\t\"c\"\n").message =
      "file: output does not match\nfirst difference at line 2\nexpected: \"b\"\n" ++
        "actual:   \"b\\t\\\"c\\\"\"\n\na\nb\t\"c\"\n" := by
  have hvalue : mismatch "file" "a\n\nb\n" "a\n" = .outputDiffers "file" 2 "" "" "a\n" := by
    decide +kernel
  obtain ⟨i, hleast, -, hreport, -⟩ :=
    @mismatch_at_first_difference "file" "a\n\nb\n" "a\n" (by decide) (by decide) (by decide +kernel)
  rw [hvalue] at hreport
  injection hreport with _ hline
  obtain rfl : i = 1 := by omega
  exact ⟨by decide, by decide, by decide +kernel, hleast, hvalue, by decide +kernel⟩

/-- Where only the ends of lines differ, the report points behind the last line. -/
example : mismatch "file" "a\r\nb\n" "a\nb\n" = .outputDiffers "file" 3 "" "" "a\nb\n" := by
  decide +kernel

end Datum.Script
