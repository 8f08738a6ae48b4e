import Datum.Proofs.Text.Runs
import Datum.Text.Layout

/-!
# Lines put together and taken apart

A line without a line feed that does not end with a carriage return is read back as it was written
(`lines_joinLines`).  A text that is empty or ends with a line feed can be read apart from what
follows it (`lines_append`).  The lines of a text without carriage returns make up the text again, up
to a line feed at its end (`joinLines_lines`).

Cutting the blanks off the end of a text cuts blanks off the end of one line and drops the blank
lines behind it (`lines_trimBlankEnd`).

A text is indented by blanks in front of every character that begins a line.  On lines put together
this is the same as blanks in front of each of them (`indent_joinLines`).
-/

namespace Datum.Text

/-! ### Ends of lines -/

/-- The text is empty or its last line is ended by a line feed. -/
def EndsLine (text : List Char) : Prop :=
  text = [] ∨ text.getLast? = some '\n'

theorem EndsLine.append {a b : List Char} (ha : EndsLine a) (hb : EndsLine b) :
    EndsLine (a ++ b) := by
  rcases hb with rfl | hb
  · rwa [List.append_nil]
  · refine .inr ?_
    rw [List.getLast?_append, hb]
    rfl

theorem exists_endsLine_append (text : List Char) :
    ∃ whole line, text = whole ++ line ∧ EndsLine whole ∧ '\n' ∉ line := by
  induction text with
  | nil => exact ⟨[], [], rfl, .inl rfl, List.not_mem_nil⟩
  | cons c text ih =>
    obtain ⟨whole, line, rfl, hw | hw, hl⟩ := ih
    · subst hw
      by_cases hc : c = '\n'
      · exact ⟨['\n'], line, by rw [hc]; rfl, .inr rfl, hl⟩
      · exact ⟨[], c :: line, rfl, .inl rfl, by simp [hl, Ne.symm hc]⟩
    · refine ⟨c :: whole, line, rfl, .inr ?_, hl⟩
      rw [List.getLast?_cons, hw]
      rfl

theorem splitLines_cons (rev : List Char) (c : Char) (rest : List Char) :
    splitLines rev (c :: rest) =
      if c = '\n' then dropReturn rev.reverse :: splitLines [] rest
      else splitLines (c :: rev) rest := by
  rw [splitLines]

theorem splitLines_append {text : List Char} (h : text.getLast? = some '\n')
    (rev rest : List Char) :
    splitLines rev (text ++ rest) = splitLines rev text ++ splitLines [] rest := by
  induction text generalizing rev with
  | nil => cases h
  | cons c text ih =>
    cases text with
    | nil =>
      have hc : c = '\n' := by simpa using h
      subst hc
      simp [splitLines]
    | cons d text =>
      have ih := ih (by simpa using h)
      rw [List.cons_append, splitLines_cons, splitLines_cons]
      split
      · rw [ih, List.cons_append]
      · rw [ih]

/-- **Whole lines are read apart from what follows them.** -/
theorem lines_append {a : String} (h : EndsLine a.toList) (b : String) :
    lines (a ++ b) = lines a ++ lines b := by
  unfold lines
  rw [String.toList_append]
  rcases h with h | h
  · rw [h]; rfl
  · rw [splitLines_append h, List.map_append]

/-! ### Single lines -/

theorem dropReturn_subset (line : List Char) : dropReturn line ⊆ line := by
  unfold dropReturn
  split
  · exact List.dropLast_subset line
  · exact List.Subset.refl line

theorem allBlank_dropReturn (line : List Char) : allBlank (dropReturn line) = allBlank line := by
  unfold dropReturn
  split
  · rename_i h
    obtain ⟨init, rfl⟩ := List.getLast?_eq_some_iff.mp h
    have hr : isBlank '\r' = true := rfl
    simp [allBlank, hr]
  · rfl

theorem dropReturn_append {line : List Char} (h : line.getLast? ≠ some '\r') (pad : List Char) :
    dropReturn (line ++ pad) = line ++ dropReturn pad := by
  rcases List.eq_nil_or_concat pad with rfl | ⟨pad, c, rfl⟩
  · rw [List.append_nil, dropReturn, if_neg h]
    simp [dropReturn]
  · unfold dropReturn
    rw [List.concat_eq_append, ← List.append_assoc, List.getLast?_concat, List.getLast?_concat]
    split
    · rw [List.dropLast_concat, List.dropLast_concat]
    · rw [List.append_assoc]

theorem splitLines_of_not_mem {line : List Char} (h : '\n' ∉ line) (rev : List Char)
    (hne : rev ≠ [] ∨ line ≠ []) : splitLines rev line = [rev.reverse ++ line] := by
  induction line generalizing rev with
  | nil =>
    cases rev with
    | nil => simp at hne
    | cons c rev => simp [splitLines]
  | cons c line ih =>
    rw [List.mem_cons, not_or] at h
    rw [splitLines_cons, if_neg (Ne.symm h.1), ih h.2 _ (.inl (List.cons_ne_nil c rev))]
    simp

theorem splitLines_feed {line : List Char} (h : '\n' ∉ line) (rev : List Char) :
    splitLines rev (line ++ ['\n']) = [dropReturn (rev.reverse ++ line)] := by
  induction line generalizing rev with
  | nil => simp [splitLines]
  | cons c line ih =>
    rw [List.mem_cons, not_or] at h
    rw [List.cons_append, splitLines_cons, if_neg (Ne.symm h.1), ih h.2]
    simp

theorem mem_splitLines {line text rev : List Char} (hrev : '\n' ∉ rev)
    (h : line ∈ splitLines rev text) : '\n' ∉ line ∧ ∀ c ∈ line, c ∈ rev ∨ c ∈ text := by
  induction text generalizing rev with
  | nil =>
    cases rev with
    | nil => cases h
    | cons c rev =>
      rw [splitLines, List.mem_singleton] at h
      subst h
      exact ⟨fun hn => hrev (List.mem_reverse.mp hn), fun d hd => .inl (List.mem_reverse.mp hd)⟩
  | cons c text ih =>
    rw [splitLines_cons] at h
    split at h
    · rcases List.mem_cons.mp h with rfl | h
      · refine ⟨fun hn => hrev (List.mem_reverse.mp (dropReturn_subset _ hn)), fun d hd => .inl ?_⟩
        exact List.mem_reverse.mp (dropReturn_subset _ hd)
      · obtain ⟨hn, hm⟩ := ih List.not_mem_nil h
        refine ⟨hn, fun d hd => .inr (List.mem_cons_of_mem c ?_)⟩
        simpa using hm d hd
    · rename_i hc
      obtain ⟨hn, hm⟩ := ih (by simp [hrev, Ne.symm hc]) h
      refine ⟨hn, fun d hd => ?_⟩
      rcases hm d hd with hd | hd
      · rcases List.mem_cons.mp hd with rfl | hd
        · exact .inr List.mem_cons_self
        · exact .inl hd
      · exact .inr (List.mem_cons_of_mem c hd)

theorem mem_lines {line text : String} (h : line ∈ lines text) :
    '\n' ∉ line.toList ∧ ∀ c ∈ line.toList, c ∈ text.toList := by
  obtain ⟨l, hl, rfl⟩ := List.mem_map.mp h
  rw [String.toList_ofList]
  simpa using mem_splitLines List.not_mem_nil hl

/-! ### Lines joined -/

/-- A line that is read back as it is written: it holds no line feed and does not end with a
carriage return. -/
def IsLine (line : String) : Prop :=
  '\n' ∉ line.toList ∧ line.toList.getLast? ≠ some '\r'

def joinLines (lines : List String) : String :=
  String.join (lines.map (· ++ "\n"))

@[simp] theorem joinLines_nil : joinLines [] = "" := rfl

@[simp] theorem toList_joinLines (lines : List String) :
    (joinLines lines).toList = lines.flatMap fun line => line.toList ++ ['\n'] := by
  simp [joinLines, String.toList_join, List.flatMap_map]

theorem joinLines_append (a b : List String) : joinLines (a ++ b) = joinLines a ++ joinLines b := by
  rw [← String.toList_inj]
  simp

theorem joinLines_singleton (line : String) : joinLines [line] = line ++ "\n" := by
  rw [← String.toList_inj]
  simp

theorem joinLines_cons (line : String) (rest : List String) :
    joinLines (line :: rest) = line ++ "\n" ++ joinLines rest := by
  rw [← List.singleton_append, joinLines_append, joinLines_singleton]

theorem endsLine_joinLines (ls : List String) : EndsLine (joinLines ls).toList := by
  induction ls with
  | nil => exact .inl rfl
  | cons line ls ih =>
    rw [joinLines_cons, String.toList_append]
    exact .append (.inr (by simp)) ih

theorem joinLines_eq_empty_iff {ls : List String} : joinLines ls = "" ↔ ls = [] := by
  cases ls with
  | nil => simp
  | cons line ls =>
    rw [← String.toList_inj]
    simp

theorem lines_feed {line : String} (h : '\n' ∉ line.toList) :
    lines (line ++ "\n") = [String.ofList (dropReturn line.toList)] := by
  have hs : (line ++ "\n").toList = line.toList ++ ['\n'] := by simp
  rw [lines, hs, splitLines_feed h]
  rfl

theorem lines_of_isLine {line : String} (h : IsLine line) : lines (line ++ "\n") = [line] := by
  rw [lines_feed h.1, dropReturn, if_neg h.2, String.ofList_toList]

theorem lines_cons {line : String} (h : IsLine line) (rest : String) :
    lines (line ++ ("\n" ++ rest)) = line :: lines rest := by
  rw [← String.append_assoc, lines_append (.inr (by simp)), lines_of_isLine h]
  rfl

theorem lines_feed_cons (rest : String) : lines ("\n" ++ rest) = "" :: lines rest := by
  rw [lines_append (.inr (by decide))]
  rfl

/-- **Joined lines are read back.** -/
theorem lines_joinLines {ls : List String} (h : ∀ line ∈ ls, IsLine line) :
    lines (joinLines ls) = ls := by
  induction ls with
  | nil => rfl
  | cons line ls ih =>
    obtain ⟨hline, hrest⟩ := List.forall_mem_cons.mp h
    rw [joinLines_cons, String.append_assoc, lines_cons hline, ih hrest]

/-! ### Texts from their lines -/

/-- Lines put together make up the text again, up to a line feed at its end, if no carriage return
could belong to the end of a line. -/
theorem flatMap_splitLines {rev text : List Char} (hr : '\r' ∉ rev) (ht : '\r' ∉ text) :
    (splitLines rev text).flatMap (· ++ ['\n']) = rev.reverse ++ text ∨
    (splitLines rev text).flatMap (· ++ ['\n']) = rev.reverse ++ text ++ ['\n'] := by
  induction text generalizing rev with
  | nil =>
    cases rev with
    | nil => exact .inl rfl
    | cons c rev => exact .inr (by simp [splitLines])
  | cons c text ih =>
    rw [List.mem_cons, not_or] at ht
    rw [splitLines_cons]
    split
    · rename_i hc
      have hkeep : dropReturn rev.reverse = rev.reverse := by
        refine if_neg fun hlast => hr ?_
        exact List.mem_reverse.mp (List.mem_of_getLast? hlast)
      rw [List.flatMap_cons, hkeep, hc]
      rcases ih List.not_mem_nil ht.2 with ih | ih
      · exact .inl (by rw [ih]; simp)
      · exact .inr (by rw [ih]; simp)
    · have hr' : '\r' ∉ c :: rev := by
        rw [List.mem_cons, not_or]
        exact ⟨ht.1, hr⟩
      rcases ih hr' ht.2 with ih | ih
      · exact .inl (by rw [ih]; simp)
      · exact .inr (by rw [ih]; simp)

theorem joinLines_lines {text : String} (h : '\r' ∉ text.toList) :
    joinLines (lines text) = text ∨ joinLines (lines text) = text ++ "\n" := by
  have hsplit : (joinLines (lines text)).toList =
      (splitLines [] text.toList).flatMap (· ++ ['\n']) := by
    simp [lines, List.flatMap_map]
  rcases flatMap_splitLines List.not_mem_nil h with hs | hs
  · exact .inl (by rw [← String.toList_inj, hsplit, hs]; rfl)
  · exact .inr (by rw [← String.toList_inj, hsplit, hs]; simp)

/-! ### Blanks at the end -/

theorem trimBlankEnd_append_blank (text : String) {pad : String}
    (h : allBlank pad.toList = true) : trimBlankEnd (text ++ pad) = trimBlankEnd text := by
  rw [trimBlankEnd, trimBlankEnd, String.toList_append, trimEnd_append_of_all h]

theorem trimBlankEnd_feed (text : String) : trimBlankEnd (text ++ "\n") = trimBlankEnd text :=
  trimBlankEnd_append_blank text rfl

/-- **Texts of the same lines differ at most in blanks at the end**, if they hold no carriage
return. -/
theorem trimBlankEnd_eq_of_lines_eq {a b : String} (ha : '\r' ∉ a.toList) (hb : '\r' ∉ b.toList)
    (h : lines a = lines b) : trimBlankEnd a = trimBlankEnd b := by
  have htrim {text : String} (ht : '\r' ∉ text.toList) :
      trimBlankEnd (joinLines (lines text)) = trimBlankEnd text := by
    rcases joinLines_lines ht with hj | hj
    · rw [hj]
    · rw [hj, trimBlankEnd_feed]
  rw [← htrim ha, ← htrim hb, h]

/-- A text whose last line has no line feed gets none but that one: at most a carriage return moves
from the line to its end. -/
theorem lines_feed_of_not_endsLine {text : String} (h : ¬EndsLine text.toList) :
    ∃ before line, lines text = before ++ [String.ofList line] ∧
      lines (text ++ "\n") = before ++ [String.ofList (dropReturn line)] := by
  obtain ⟨whole, line, ht, hw, hl⟩ := exists_endsLine_append text.toList
  have hne : line ≠ [] := by
    rintro rfl
    rw [List.append_nil] at ht
    exact h (ht ▸ hw)
  have htext : text = String.ofList whole ++ String.ofList line := by
    rw [← String.toList_inj, ht]
    simp
  have hw' : EndsLine (String.ofList whole).toList := by rwa [String.toList_ofList]
  have hl' : '\n' ∉ (String.ofList line).toList := by rwa [String.toList_ofList]
  refine ⟨lines (String.ofList whole), line, ?_, ?_⟩
  · rw [htext, lines_append hw', lines.eq_1 (String.ofList line), String.toList_ofList,
      splitLines_of_not_mem hl [] (.inr hne)]
    rfl
  · rw [htext, String.append_assoc, lines_append hw', lines_feed hl', String.toList_ofList]

theorem splitLines_append_blanks {line pad : List Char} (hline : '\n' ∉ line) {c : Char}
    (hc : line.getLast? = some c) (hb : isBlank c = false) (hpad : allBlank pad = true) :
    ∃ pad' blanks, splitLines [] (line ++ pad) = (line ++ pad') :: blanks ∧
      allBlank pad' = true ∧ ∀ blank ∈ blanks, allBlank blank = true := by
  have hne : line ≠ [] := by rintro rfl; cases hc
  have hr : line.getLast? ≠ some '\r' := by
    rw [hc]
    rintro h
    cases h
    cases hb
  by_cases hfeed : '\n' ∈ pad
  · obtain ⟨before, after, rfl, hbefore⟩ := List.eq_append_cons_of_mem hfeed
    simp only [allBlank, List.all_append, List.all_cons, Bool.and_eq_true] at hpad
    have hend : (line ++ before ++ ['\n']).getLast? = some '\n' := by simp
    have hsplit : line ++ (before ++ '\n' :: after) = line ++ before ++ ['\n'] ++ after := by simp
    refine ⟨dropReturn before, splitLines [] after, ?_, ?_, ?_⟩
    · rw [hsplit, splitLines_append hend, splitLines_feed (by simp [hline, hbefore])]
      rw [List.reverse_nil, List.nil_append, dropReturn_append hr]
      rfl
    · rw [allBlank_dropReturn]
      exact hpad.1
    · intro blank hm
      refine List.all_eq_true.mpr fun d hd => ?_
      have hd := (mem_splitLines List.not_mem_nil hm).2 d hd
      exact List.all_eq_true.mp hpad.2.2 d (by simpa using hd)
  · refine ⟨pad, [], ?_, hpad, fun _ h => by cases h⟩
    rw [splitLines_of_not_mem (by simp [hline, hfeed]) [] (.inr (by simp [hne]))]
    rfl

/-- **Without the blanks at its end, a text keeps its lines up to the last one that is not blank,
and of that one what stands before the blanks.** -/
theorem lines_trimBlankEnd {text : String} (h : trimBlankEnd text ≠ "") :
    ∃ before line pad blanks c, lines text = before ++ String.ofList (line ++ pad) :: blanks ∧
      lines (trimBlankEnd text ++ "\n") = before ++ [String.ofList line] ∧
      line.getLast? = some c ∧ isBlank c = false ∧ allBlank pad = true ∧
      ∀ blank ∈ blanks, allBlank blank.toList = true := by
  obtain ⟨pad, ht, hpad⟩ := exists_append_trimEnd isBlank text.toList
  obtain ⟨whole, line, hkept, hw, hl⟩ := exists_endsLine_append (trimEnd isBlank text.toList)
  have hkept' : trimBlankEnd text = String.ofList whole ++ String.ofList line := by
    rw [trimBlankEnd, hkept, String.ofList_append]
  have hw' : EndsLine (String.ofList whole).toList := by rwa [String.toList_ofList]
  have hl' : '\n' ∉ (String.ofList line).toList := by rwa [String.toList_ofList]
  -- The last character that is kept is not blank, so it belongs to a line without a line feed.
  obtain ⟨c, hc, hb⟩ : ∃ c, line.getLast? = some c ∧ isBlank c = false := by
    cases hlast : line.getLast? with
    | some c =>
      refine ⟨c, rfl, @getLast?_trimEnd isBlank text.toList c ?_⟩
      rw [hkept, List.getLast?_append, hlast]
      rfl
    | none =>
      rw [List.getLast?_eq_none_iff] at hlast
      subst hlast
      rw [List.append_nil] at hkept
      rcases hw with rfl | hw
      · exact absurd (by rw [hkept']; rfl) h
      · rw [← hkept] at hw
        cases getLast?_trimEnd hw
  have hr : line.getLast? ≠ some '\r' := by
    rw [hc]
    rintro h
    cases h
    cases hb
  obtain ⟨pad', blanks, hsplit, hpad', hblanks⟩ := splitLines_append_blanks hl hc hb hpad
  have htext : text = String.ofList whole ++ String.ofList (line ++ pad) := by
    rw [← String.toList_inj, ht, hkept]
    simp
  refine ⟨lines (String.ofList whole), line, pad', blanks.map String.ofList, c, ?_, ?_, hc, hb,
    hpad', ?_⟩
  · rw [htext, lines_append hw', lines.eq_1 (String.ofList (line ++ pad)), String.toList_ofList,
      hsplit]
    rfl
  · rw [hkept', String.append_assoc, lines_append hw', lines_of_isLine ⟨hl', ?_⟩]
    rwa [String.toList_ofList]
  · intro blank hm
    obtain ⟨b, hb, rfl⟩ := List.mem_map.mp hm
    rw [String.toList_ofList]
    exact hblanks b hb

/-! ### Indentation -/

/-- The pad in front of every character that begins a line; `fresh` says that the first one does. -/
def padLines (pad : List Char) : Bool → List Char → List Char
  | _, [] => []
  | fresh, c :: rest => (if fresh then pad else []) ++ c :: padLines pad (c == '\n') rest

def blanks (n : Nat) : String :=
  String.ofList (List.replicate n ' ')

def indent (n : Nat) (text : String) : String :=
  String.ofList (padLines (List.replicate n ' ') true text.toList)

theorem blanks_add (m n : Nat) : blanks (m + n) = blanks m ++ blanks n := by
  rw [blanks, blanks, blanks, ← String.ofList_append, List.replicate_append_replicate]

theorem map_blanks_zero (ls : List String) : ls.map (blanks 0 ++ ·) = ls :=
  (List.map_congr_left fun _ _ => String.empty_append).trans (List.map_id ls)

theorem padLines_line (pad : List Char) {line : List Char} (h : '\n' ∉ line) (fresh : Bool)
    (rest : List Char) :
    padLines pad fresh (line ++ '\n' :: rest) =
      (if fresh then pad else []) ++ (line ++ '\n' :: padLines pad true rest) := by
  induction line generalizing fresh with
  | nil => rfl
  | cons c line ih =>
    rw [List.mem_cons, not_or] at h
    rw [List.cons_append, padLines, beq_eq_false_iff_ne.mpr (Ne.symm h.1), ih h.2]
    rfl

theorem indent_joinLines (n : Nat) {ls : List String} (h : ∀ line ∈ ls, '\n' ∉ line.toList) :
    indent n (joinLines ls) = joinLines (ls.map (blanks n ++ ·)) := by
  rw [← String.toList_inj, indent, String.toList_ofList, toList_joinLines, toList_joinLines]
  induction ls with
  | nil => rfl
  | cons line ls ih =>
    obtain ⟨hline, hrest⟩ := List.forall_mem_cons.mp h
    rw [List.flatMap_cons, List.append_assoc, List.singleton_append, padLines_line _ hline, ih hrest]
    simp [blanks]

end Datum.Text
