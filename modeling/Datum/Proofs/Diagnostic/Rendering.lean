import Datum.Diagnostic
import Datum.Proofs.Text.Lines

/-!
# Renderings of several lines

A diagnostic whose texts hold no line feed is rendered as lines, and these are the same at every depth
but for the indentation in front of them (`IsUnbroken.exists_lines`).  So a rendering at a depth is the
rendering of the diagnostic, indented, and a cause may be rendered by itself
(`render_compositional`).
-/

namespace Datum.Diagnostic

open Text (blanks indent joinLines)

/-- The texts of a diagnostic itself, without those of its cause. -/
def fields (d : Diagnostic) : List String :=
  [d.code, d.message] ++ d.label.toList ++ d.help.toList ++ d.notes

/-- No text of the diagnostic or of a cause holds a line feed. -/
inductive IsUnbroken : Diagnostic → Prop
  | intro {d : Diagnostic} (own : ∀ field ∈ d.fields, '\n' ∉ field.toList)
      (behind : ∀ cause, d.cause = some cause → IsUnbroken cause) : IsUnbroken d

theorem indentLines_eq (depth : Nat) (lines : List String) :
    indentLines depth lines = joinLines (lines.map (blanks (2 * depth) ++ ·)) := by
  have hblanks : String.join (List.replicate depth "  ") = blanks (2 * depth) := by
    induction depth with
    | zero => rfl
    | succ depth ih =>
      rw [List.replicate_succ, String.join_cons, ih, Nat.mul_succ, Nat.add_comm, Text.blanks_add]
      rfl
  rw [indentLines, hblanks, joinLines, List.map_map]
  rfl

theorem renderAt_eq (depth : Nat) (d : Diagnostic) :
    d.renderAt depth = indentLines depth d.ownLines ++
      d.cause.elim "" fun cause =>
        indentLines depth ["  caused by:"] ++ cause.renderAt (depth + 2) := by
  obtain ⟨code, message, label, help, notes, _ | cause⟩ := d
  · rw [renderAt, Option.elim_none, String.append_empty]
  · rw [renderAt, Option.elim_some, ← String.append_assoc, indentLines_eq, indentLines_eq,
      indentLines_eq, ← Text.joinLines_append, ← List.map_append]
    rfl

theorem feed_not_mem_append {front text : String} (hf : '\n' ∉ front.toList)
    (ht : '\n' ∉ text.toList) : '\n' ∉ (front ++ text).toList := by
  rw [String.toList_append, List.mem_append, not_or]
  exact ⟨hf, ht⟩

theorem feed_not_mem_ownLines {d : Diagnostic} (h : ∀ field ∈ d.fields, '\n' ∉ field.toList) :
    ∀ line ∈ d.ownLines, '\n' ∉ line.toList := by
  simp only [fields, ownLines, List.forall_mem_append, List.forall_mem_cons, List.forall_mem_map] at h ⊢
  obtain ⟨⟨⟨⟨hcode, hmessage, -⟩, hlabel⟩, hhelp⟩, hnotes⟩ := h
  refine ⟨⟨⟨⟨?_, nofun⟩, ?_⟩, ?_⟩, ?_⟩
  · exact feed_not_mem_append (feed_not_mem_append (feed_not_mem_append (by decide) hcode)
      (by decide)) hmessage
  · intro label hm
    exact feed_not_mem_append (by decide) (hlabel label hm)
  · intro help hm
    exact feed_not_mem_append (by decide) (hhelp help hm)
  · intro note hm
    exact feed_not_mem_append (by decide) (hnotes note hm)

/-- **The lines of a rendering do not depend on the depth**, but for the blanks in front of them. -/
theorem IsUnbroken.exists_lines {d : Diagnostic} (h : d.IsUnbroken) :
    ∃ lines : List String, (∀ line ∈ lines, '\n' ∉ line.toList) ∧
      ∀ depth, d.renderAt depth = joinLines (lines.map (blanks (2 * depth) ++ ·)) := by
  induction h with
  | @intro d own _ ih =>
    have hown := feed_not_mem_ownLines own
    cases hc : d.cause with
    | none =>
      refine ⟨d.ownLines, hown, ?_⟩
      intro depth
      rw [renderAt_eq, hc, Option.elim_none, String.append_empty, indentLines_eq]
    | some cause =>
      obtain ⟨lines, hlines, hrender⟩ := ih cause hc
      refine ⟨d.ownLines ++ "  caused by:" :: lines.map (blanks 4 ++ ·), ?_, ?_⟩
      · rw [List.forall_mem_append, List.forall_mem_cons, List.forall_mem_map]
        refine ⟨hown, by decide, ?_⟩
        intro line hm
        exact feed_not_mem_append (by decide) (hlines line hm)
      · intro depth
        -- two levels further in are four blanks more, which stand behind those of the depth
        have hdeeper : (blanks (2 * (depth + 2)) ++ ·) = (blanks (2 * depth) ++ ·) ∘ (blanks 4 ++ ·) := by
          funext line
          rw [Nat.mul_add, Text.blanks_add, String.append_assoc]
          rfl
        rw [renderAt_eq, hc, Option.elim_some, indentLines_eq, indentLines_eq, hrender, hdeeper,
          ← List.map_map, ← Text.joinLines_append, ← Text.joinLines_append, ← List.map_append,
          ← List.map_append]
        rfl

theorem IsUnbroken.renderAt_eq_indent {d : Diagnostic} (h : d.IsUnbroken) (depth : Nat) :
    d.renderAt depth = indent (2 * depth) d.render := by
  obtain ⟨lines, hlines, hrender⟩ := h.exists_lines
  rw [render, hrender, hrender, Nat.mul_zero, Text.map_blanks_zero, Text.indent_joinLines _ hlines]

/-- **Rendering is compositional**, as long as no text of the diagnostic holds a line feed.  At any
depth every line of the rendering is indented by two blanks for each level, and behind the lines on
the failure itself stands the rendering of the cause, indented by four. -/
theorem render_compositional {d : Diagnostic} (h : d.IsUnbroken) :
    (∀ depth, d.renderAt depth = indent (2 * depth) d.render) ∧
    d.render = joinLines d.ownLines ++
      d.cause.elim "" fun cause => "  caused by:\n" ++ indent 4 cause.render := by
  refine ⟨h.renderAt_eq_indent, ?_⟩
  have htop (lines : List String) : indentLines 0 lines = joinLines lines := by
    rw [indentLines_eq, Nat.mul_zero, Text.map_blanks_zero]
  rw [render, renderAt_eq, htop]
  cases hc : d.cause with
  | none => rfl
  | some cause =>
    obtain ⟨-, behind⟩ := h
    rw [Option.elim_some, Option.elim_some, (behind cause hc).renderAt_eq_indent, htop]
    rfl

def chained : Diagnostic :=
  ⟨"A", "a", some "b", none, ["c", "d"],
    some ⟨"B", "e", none, none, [], some ⟨"C", "f", none, some "g", [], none⟩⟩⟩

theorem isUnbroken_chained : chained.IsUnbroken := by
  refine .intro (by decide) ?_
  intro cause hc
  obtain rfl := Option.some.inj hc
  refine .intro (by decide) ?_
  intro cause hc
  obtain rfl := Option.some.inj hc
  exact .intro (by decide) nofun

theorem render_compositional_chained :
    chained.IsUnbroken ∧ chained.renderAt 3 = indent 6 chained.render ∧
    chained.render =
      "error[A]: a\n  = b\n  note: c\n  note: d\n  caused by:\n" ++
      "    error[B]: e\n      caused by:\n" ++
      "        error[C]: f\n          help: g\n" := by
  obtain ⟨hdepth, hrender⟩ := render_compositional isUnbroken_chained
  exact ⟨isUnbroken_chained, hdepth 3, hrender.trans (by decide +kernel)⟩

/-- A line feed in a text begins a line without blanks. -/
example : renderAt 1 ⟨"A", "a\nb", none, none, [], none⟩ = "  error[A]: a\nb\n" := by
  decide +kernel

end Datum.Diagnostic
