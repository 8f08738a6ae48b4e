import Datum.Proofs.Outcome
import Datum.Proofs.Text.Lines
import Datum.Script.Block
import Mathlib.Data.List.Forall2

/-!
# Where the lines of a script belong

Whatever its commands are, a script falls into sections: lines up to a separator, the separator, and
the lines behind it up to the first blank one.  Lines without a separator may follow the last
section.  Every text has exactly one such outline (`exists_outline`, `Outline.ext_of_regular`).

Reading a script is reading its outline (`readBlocks_of_outline`): every section yields one block,
and so do the lines behind the last section, if there are any.  What `parse` accepts, which line a
command came from and why a text is refused are read off the outline.
-/

namespace Datum.Script

abbrev Line := String × Nat

def numberedLines (script : String) : List Line :=
  (Text.lines script).zipIdx 1

/-- Lines of a block, the number of the separator behind them, and the lines of output that the
separator hides. -/
structure Section where
  body : List Line
  cut : Nat
  output : List Line

namespace Section

def lines (s : Section) : List Line :=
  s.body ++ (separator, s.cut) :: s.output

end Section

/-- Sections one behind the other, and what follows the last of them. -/
inductive Outline where
  | ending (rest : List Line)
  | block (head : Section) (next : Outline)

def literalOf (body : List Line) : String :=
  Text.joinLines (body.map (·.1))

/-- Output goes up to its first blank line, or else to the end of the script. -/
def IsOutput (output following : List Line) : Prop :=
  (∃ shown last, output = shown ++ [last] ∧ (∀ l ∈ shown, ¬Text.allBlank l.1.toList) ∧
    Text.allBlank last.1.toList) ∨
  following = [] ∧ ∀ l ∈ output, ¬Text.allBlank l.1.toList

namespace Outline

def lines : Outline → List Line
  | ending rest => rest
  | block head next => head.lines ++ next.lines

def sections : Outline → List Section
  | ending _ => []
  | block head next => head :: next.sections

def rest : Outline → List Line
  | ending rest => rest
  | block _ next => next.rest

/-- No separator stands inside a block, and output ends where it has to. -/
def Regular : Outline → Prop
  | ending rest => ∀ l ∈ rest, l.1 ≠ separator
  | block head next =>
    (∀ l ∈ head.body, l.1 ≠ separator) ∧ IsOutput head.output next.lines ∧ next.Regular

end Outline

/-! ### Every text has one outline -/

theorem append_cons_inj {α : Type} {p : α → Prop} {a a' b b' : List α} {x x' : α}
    (ha : ∀ y ∈ a, ¬p y) (hx : p x) (ha' : ∀ y ∈ a', ¬p y) (hx' : p x')
    (h : a ++ x :: b = a' ++ x' :: b') : a = a' ∧ x = x' ∧ b = b' := by
  induction a generalizing a' with
  | nil =>
    cases a' with
    | nil =>
      obtain ⟨rfl, rfl⟩ := List.cons.inj h
      exact ⟨rfl, rfl, rfl⟩
    | cons y a' =>
      obtain ⟨rfl, -⟩ := List.cons.inj h
      exact absurd hx (ha' x List.mem_cons_self)
  | cons y a ih =>
    cases a' with
    | nil =>
      obtain ⟨rfl, -⟩ := List.cons.inj h
      exact absurd hx' (ha y List.mem_cons_self)
    | cons z a' =>
      obtain ⟨rfl, hrest⟩ := List.cons.inj h
      obtain ⟨rfl, he⟩ := ih (fun y hy => ha y (List.mem_cons_of_mem _ hy))
        (fun y hy => ha' y (List.mem_cons_of_mem _ hy)) hrest
      exact ⟨rfl, he⟩

theorem IsOutput.eq_of_append {a a' f f' : List Line} (h : IsOutput a f) (h' : IsOutput a' f')
    (he : a ++ f = a' ++ f') : a = a' ∧ f = f' := by
  rcases h with ⟨shown, last, rfl, hs, hl⟩ | ⟨rfl, ha⟩ <;>
    rcases h' with ⟨shown', last', rfl, hs', hl'⟩ | ⟨rfl, ha'⟩
  · rw [List.append_assoc, List.append_assoc] at he
    obtain ⟨rfl, rfl, rfl⟩ :=
      append_cons_inj (p := fun l => Text.allBlank l.1.toList = true) hs hl hs' hl' he
    exact ⟨rfl, rfl⟩
  · rw [List.append_nil] at he
    exact absurd hl (ha' last (by simp [← he]))
  · rw [List.append_nil] at he
    exact absurd hl' (ha last' (by simp [he]))
  · rw [List.append_nil, List.append_nil] at he
    exact ⟨he, rfl⟩

namespace Outline

/-- **An outline is determined by its lines.** -/
theorem ext_of_regular {o o' : Outline} (h : o.Regular) (h' : o'.Regular)
    (he : o.lines = o'.lines) : o = o' := by
  have hcut (s : Section) (f : List Line) : (separator, s.cut) ∈ s.body ++ (separator, s.cut) :: f :=
    List.mem_append_right _ List.mem_cons_self
  induction o generalizing o' with
  | ending rest =>
    cases o' with
    | ending rest' => rw [show rest = rest' from he]
    | block head' next' =>
      have hm : (separator, head'.cut) ∈ rest := by
        rw [show rest = head'.lines ++ next'.lines from he]
        exact List.mem_append_left _ (hcut head' _)
      exact absurd rfl (h _ hm)
  | block head next ih =>
    cases o' with
    | ending rest' =>
      have hm : (separator, head.cut) ∈ rest' := by
        rw [show rest' = head.lines ++ next.lines from he.symm]
        exact List.mem_append_left _ (hcut head _)
      exact absurd rfl (h' _ hm)
    | block head' next' =>
      obtain ⟨hb, ho, hn⟩ := h
      obtain ⟨hb', ho', hn'⟩ := h'
      obtain ⟨body, cut, output⟩ := head
      obtain ⟨body', cut', output'⟩ := head'
      simp only [lines, Section.lines, List.append_assoc, List.cons_append] at he
      obtain ⟨rfl, hc, he⟩ := append_cons_inj (p := fun l => l.1 = separator) hb rfl hb' rfl he
      obtain ⟨rfl, hf⟩ := ho.eq_of_append ho' he
      rw [ih hn hn' hf, (Prod.mk.inj hc).2]

end Outline

theorem split_first {α : Type} (p : α → Bool) (l : List α) :
    (∀ x ∈ l, ¬p x) ∨ ∃ a x b, l = a ++ x :: b ∧ (∀ y ∈ a, ¬p y) ∧ p x := by
  cases hf : l.find? p with
  | none => exact .inl (List.find?_eq_none.mp hf)
  | some x =>
    obtain ⟨hx, a, b, rfl, ha⟩ := List.find?_eq_some_iff_append.mp hf
    exact .inr ⟨a, x, b, rfl, fun y hy => by simpa using ha y hy, hx⟩

/-- **Every list of lines has an outline.** -/
theorem exists_outline (ls : List Line) : ∃ o : Outline, o.lines = ls ∧ o.Regular := by
  induction hn : ls.length using Nat.strong_induction_on generalizing ls with
  | _ n ih =>
    rcases split_first (fun l : Line => l.1 = separator) ls with
      hno | ⟨body, ⟨_, cut⟩, behind, rfl, hbody, hsep⟩
    · exact ⟨.ending ls, rfl, fun l hl => by simpa using hno l hl⟩
    · have hbody : ∀ l ∈ body, l.1 ≠ separator := fun l hl => by simpa using hbody l hl
      obtain rfl : _ = separator := by simpa using hsep
      rcases split_first (fun l : Line => Text.allBlank l.1.toList) behind with
        hno | ⟨shown, last, after, rfl, hshown, hlast⟩
      · refine ⟨.block ⟨body, cut, behind⟩ (.ending []), by simp [Outline.lines, Section.lines],
          hbody, .inr ⟨rfl, hno⟩, ?_⟩
        exact fun l hl => absurd hl List.not_mem_nil
      · obtain ⟨next, hl, hr⟩ := ih after.length (by subst hn; simp; omega) after rfl
        refine ⟨.block ⟨body, cut, shown ++ [last]⟩ next, ?_, hbody,
          .inl ⟨shown, last, rfl, hshown, hlast⟩, hr⟩
        simp [Outline.lines, Section.lines, hl]

/-! ### Reading an outline -/

def readCommands : List Line → Except ScriptFault (List Command)
  | [] => .ok []
  | (line, number) :: rest =>
    if isRemark line then readCommands rest
    else
      match parseCommand line number with
      | .ok command => (readCommands rest).map (command :: ·)
      | .error fault => .error (.invalidCommand number line fault)

def Outline.read : Outline → Except ScriptFault (List Block)
  | ending rest => do
    let commands ← readCommands rest
    if commands ≠ [] then .error .missingSeparator
    else if rest = [] then .ok []
    else .ok [⟨literalOf rest, []⟩]
  | block head next => do
    let commands ← readCommands head.body
    if commands = [] then .error (.separatorWithoutCommands head.cut)
    else next.read.map (⟨literalOf head.body, commands⟩ :: ·)

theorem readBlocks_append_body {body : List String} (h : ∀ line ∈ body, line ≠ separator)
    (number : Nat) (literal : String) (commands : List Command) (rest : List String) :
    readBlocks number (.block literal commands) (body ++ rest) =
      readCommands (body.zipIdx number) >>= fun more =>
        readBlocks (number + body.length)
          (.block (literal ++ Text.joinLines body) (commands ++ more)) rest := by
  induction body generalizing number literal commands with
  | nil =>
    simp only [List.zipIdx_nil, readCommands, ok_bind, List.nil_append, List.append_nil,
      Text.joinLines_nil, String.append_empty, List.length_nil, Nat.add_zero]
  | cons line body ih =>
    obtain ⟨hline, hbody⟩ := List.forall_mem_cons.mp h
    have hl : literal ++ (line ++ "\n" ++ Text.joinLines body) =
        literal ++ line ++ "\n" ++ Text.joinLines body := by simp only [String.append_assoc]
    have hn : number + (body.length + 1) = number + 1 + body.length := by omega
    rw [List.cons_append, readBlocks, if_neg hline, List.zipIdx_cons, readCommands,
      Text.joinLines_cons, List.length_cons, hl, hn]
    split
    · exact ih hbody ..
    · cases parseCommand line number with
      | error fault => rfl
      | ok command =>
        simp only
        rw [ih hbody]
        cases readCommands (body.zipIdx (number + 1)) with
        | error fault => rfl
        | ok more =>
          simp only [Except.map, ok_bind, List.append_assoc, List.cons_append, List.nil_append]

/-- Output is skipped as long as its lines are not blank. -/
theorem readBlocks_append_output {shown : List String}
    (h : ∀ line ∈ shown, ¬Text.allBlank line.toList) (number : Nat) (rest : List String) :
    readBlocks number .output (shown ++ rest) =
      readBlocks (number + shown.length) .output rest := by
  induction shown generalizing number with
  | nil => rfl
  | cons line shown ih =>
    obtain ⟨hline, hshown⟩ := List.forall_mem_cons.mp h
    rw [List.cons_append, readBlocks, if_neg hline, ih hshown, List.length_cons]
    congr 1
    omega

theorem forall_mem_numbered {p : String → Prop} {ls : List String} {number : Nat} :
    (∀ l ∈ ls.zipIdx number, p l.1) ↔ ∀ line ∈ ls, p line := by
  rw [← List.forall_mem_map (f := Prod.fst), List.zipIdx_map_fst]

theorem literalOf_numbered (ls : List String) (number : Nat) :
    literalOf (ls.zipIdx number) = Text.joinLines ls := by
  rw [literalOf, List.zipIdx_map_fst]

theorem readBlocks_output {output rest : List String} {number : Nat}
    (h : IsOutput (output.zipIdx number) (rest.zipIdx (number + output.length))) :
    readBlocks number .output (output ++ rest) =
      readBlocks (number + output.length) (.block "" []) rest := by
  rcases h with ⟨shown, last, ho, hs, hl⟩ | ⟨hr, ho⟩
  · obtain ⟨a, b, rfl, rfl, hb⟩ := List.zipIdx_eq_append_iff.mp ho
    obtain ⟨line, c, rfl, rfl, hc⟩ := List.zipIdx_eq_cons_iff.mp hb.symm
    obtain rfl : c = [] := by simpa using hc.symm
    rw [List.append_assoc, readBlocks_append_output (forall_mem_numbered.mp hs)]
    simp only [List.cons_append, List.nil_append, List.length_append, List.length_singleton]
    rw [readBlocks, if_pos hl, Nat.add_assoc]
  · obtain rfl : rest = [] := by simpa using hr
    rw [readBlocks_append_output (forall_mem_numbered.mp ho), readBlocks, readBlocks,
      if_neg (not_not.mpr rfl), if_pos rfl]

/-- **Reading lines is reading their outline.** -/
theorem readBlocks_of_outline {o : Outline} (h : o.Regular) {number : Nat} {ls : List String}
    (hl : o.lines = ls.zipIdx number) : readBlocks number (.block "" []) ls = o.read := by
  induction o generalizing number ls with
  | ending rest =>
    obtain rfl : rest = ls.zipIdx number := hl
    have hne : ls.zipIdx number = [] ↔ ls = [] := by cases ls <;> simp
    rw [← List.append_nil ls, readBlocks_append_body (forall_mem_numbered.mp h), Outline.read,
      List.append_nil, literalOf_numbered]
    cases readCommands (ls.zipIdx number) with
    | error fault => rfl
    | ok commands =>
      simp only [ok_bind, readBlocks, List.nil_append, String.empty_append, hne,
        Text.joinLines_eq_empty_iff]
  | block head next ih =>
    obtain ⟨hbody, houtput, hnext⟩ := h
    obtain ⟨body, cut, output⟩ := head
    simp only [Outline.lines, Section.lines, List.append_assoc, List.cons_append] at hl
    obtain ⟨body, behind, rfl, rfl, hcut⟩ := List.zipIdx_eq_append_iff.mp hl.symm
    obtain ⟨line, hidden, rfl, hline, hhidden⟩ := List.zipIdx_eq_cons_iff.mp hcut.symm
    obtain ⟨output, rest, rfl, rfl, hrest⟩ := List.zipIdx_eq_append_iff.mp hhidden.symm
    obtain ⟨rfl, rfl⟩ := Prod.mk.inj hline
    simp only [hrest] at houtput
    rw [readBlocks_append_body (forall_mem_numbered.mp hbody), Outline.read]
    simp only [literalOf_numbered]
    cases readCommands (body.zipIdx number) with
    | error fault => rfl
    | ok commands =>
      simp only [ok_bind, List.nil_append, String.empty_append]
      rw [readBlocks, if_pos rfl, readBlocks_output houtput, ih hnext hrest]
      rfl

theorem parse_eq_read {o : Outline} (h : o.Regular) {script : String}
    (hl : o.lines = numberedLines script) : parse script = o.read :=
  readBlocks_of_outline h hl

end Datum.Script
