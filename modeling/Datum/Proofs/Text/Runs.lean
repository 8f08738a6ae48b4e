import Datum.Text.Layout
import Mathlib.Data.List.TakeWhile

/-!
# Runs of a class

A run of members of a class is split off whole in front of anything that does not begin with a
further one (`takeWhile_run_append`, `dropWhile_run_append`), and what is left behind the longest run
does not begin with one (`head?_dropWhile`).

Characters of the class go from the end of a text up to the last character outside the class, so
that what is cut off and what stays can be told from that character alone (`getLast?_trimEnd`).
-/

namespace Datum.Text

section Lists

variable {α : Type} {p : α → Bool} {run rest : List α}

theorem dropWhile_eq_self (hr : ∀ a ∈ rest.head?, p a = false) : rest.dropWhile p = rest := by
  cases rest with
  | nil => rfl
  | cons a rest => exact List.dropWhile_cons_of_neg (by simp [hr a rfl])

theorem takeWhile_eq_nil (hr : ∀ a ∈ rest.head?, p a = false) : rest.takeWhile p = [] := by
  cases rest with
  | nil => rfl
  | cons a rest => exact List.takeWhile_cons_of_neg (by simp [hr a rfl])

theorem takeWhile_run_append (h : ∀ a ∈ run, p a = true) (hr : ∀ a ∈ rest.head?, p a = false) :
    (run ++ rest).takeWhile p = run := by
  rw [List.takeWhile_append_of_pos h, takeWhile_eq_nil hr, List.append_nil]

theorem dropWhile_run_append (h : ∀ a ∈ run, p a = true) (hr : ∀ a ∈ rest.head?, p a = false) :
    (run ++ rest).dropWhile p = rest := by
  rw [List.dropWhile_append_of_pos h, dropWhile_eq_self hr]

theorem head?_dropWhile (p : α → Bool) (l : List α) : ∀ a ∈ (l.dropWhile p).head?, p a = false := by
  intro a ha
  have h := List.head?_dropWhile_not p l
  rw [show (l.dropWhile p).head? = some a from ha] at h
  simpa using h

theorem forall_mem_takeWhile (p : α → Bool) (l : List α) : ∀ a ∈ l.takeWhile p, p a = true :=
  List.all_eq_true.mp List.all_takeWhile

end Lists

/-! ### What is left between the cuts -/

theorem exists_append_trimEnd (p : Char → Bool) (text : List Char) :
    ∃ pad, text = trimEnd p text ++ pad ∧ pad.all p = true := by
  refine ⟨(text.reverse.takeWhile p).reverse, ?_, ?_⟩
  · rw [trimEnd, ← List.reverse_append, List.takeWhile_append_dropWhile, List.reverse_reverse]
  · rw [List.all_reverse]
    exact List.all_takeWhile

theorem getLast?_trimEnd {p : Char → Bool} {text : List Char} {c : Char}
    (h : (trimEnd p text).getLast? = some c) : p c = false := by
  rw [trimEnd, List.getLast?_reverse] at h
  exact head?_dropWhile p text.reverse c h

@[simp] theorem trimEnd_trimEnd (p : Char → Bool) (text : List Char) :
    trimEnd p (trimEnd p text) = trimEnd p text := by
  obtain ⟨pad, ht, hp⟩ := exists_append_trimEnd p text
  have h := trimEnd_append_of_all hp (trimEnd p text)
  rw [← ht] at h
  exact h.symm

theorem trimEnd_append_congr {p : Char → Bool} {a b : List Char} (h : trimEnd p a = trimEnd p b)
    (text : List Char) : trimEnd p (text ++ a) = trimEnd p (text ++ b) := by
  obtain ⟨padA, ha, hpadA⟩ := exists_append_trimEnd p a
  obtain ⟨padB, hb, hpadB⟩ := exists_append_trimEnd p b
  calc trimEnd p (text ++ a)
      = trimEnd p (text ++ trimEnd p a ++ padA) := by rw [List.append_assoc, ← ha]
    _ = trimEnd p (text ++ trimEnd p b) := by rw [trimEnd_append_of_all hpadA, h]
    _ = trimEnd p (text ++ trimEnd p b ++ padB) := (trimEnd_append_of_all hpadB _).symm
    _ = trimEnd p (text ++ b) := by rw [List.append_assoc, ← hb]

theorem trim_eq_self {p : Char → Bool} {text : List Char} (h : ∀ c ∈ text, p c = false) :
    trim p text = text := by
  have hdrop {l : List Char} (hl : ∀ c ∈ l, p c = false) : l.dropWhile p = l :=
    dropWhile_eq_self fun c hc => hl c (List.mem_of_mem_head? hc)
  rw [trim, trimStart, hdrop h, trimEnd, hdrop fun c hc => h c (List.mem_reverse.mp hc),
    List.reverse_reverse]

theorem trim_append_of_all {p : Char → Bool} {front back : List Char} (hf : front.all p = true)
    (hb : back.all p = true) (text : List Char) :
    trim p (front ++ (text ++ back)) = trim p text := by
  rw [trim, trim, trimStart_append_of_all hf, trimStart, trimStart, List.dropWhile_append]
  split
  · rename_i hempty
    have hback : back.dropWhile p = [] := List.dropWhile_eq_nil_iff.mpr (List.all_eq_true.mp hb)
    rw [hback, List.isEmpty_iff.mp hempty]
  · exact trimEnd_append_of_all hb _

end Datum.Text
