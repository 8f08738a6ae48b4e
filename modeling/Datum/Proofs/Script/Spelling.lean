import Datum.Proofs.Text.Runs
import Datum.Script.Grammar
import Mathlib.Data.List.Basic

/-!
# Spellings of a command

A command has many spellings.  Any spaces and tabs may stand between its parts, a value may stand in
quotes of either sort that it does not contain, and without quotes if it cannot be taken for anything
else (`Argument.IsBare`).  `Command.IsSpelledBy` says this apart from the reader.

* `readArgument?_append`, `readArguments_append`: a spelling is read as what it spells, in front of
  anything that may follow it.
* `eq_append_of_readArgument?`, `eq_append_of_readArguments`: what is read has been spelled out.
* `parseCommand_eq_ok_iff`: a line is read as a command if it is one of its spellings, and only so.
-/

namespace Datum.Script

open Text (head?_dropWhile forall_mem_takeWhile dropWhile_eq_self dropWhile_run_append
  takeWhile_run_append)

/-! ### Characters -/

theorem isBareChar_of_isSpacing {c : Char} (h : isSpacing c = true) : isBareChar c = false := by
  simp only [isSpacing, Bool.or_eq_true, beq_iff_eq] at h
  rcases h with rfl | rfl <;> rfl

theorem isSpacing_of_isBareChar {c : Char} (h : isBareChar c = true) : isSpacing c = false := by
  rw [← Bool.not_eq_true]
  intro hs
  rw [isBareChar_of_isSpacing hs] at h
  cases h

theorem isSpacing_of_isKeyChar {c : Char} (h : isKeyChar c = true) : isSpacing c = false := by
  rw [← Bool.not_eq_true]
  intro hs
  simp only [isSpacing, Bool.or_eq_true, beq_iff_eq] at hs
  rcases hs with rfl | rfl <;> exact absurd h (by decide)

theorem isKeyChar_of_isQuote {c : Char} (h : isQuote c = true) : isKeyChar c = false := by
  simp only [isQuote, Bool.or_eq_true, beq_iff_eq] at h
  rcases h with rfl | rfl <;> rfl

theorem isBareChar_of_isQuote {c : Char} (h : isQuote c = true) : isBareChar c = true := by
  simp only [isQuote, Bool.or_eq_true, beq_iff_eq] at h
  rcases h with rfl | rfl <;> rfl

/-! ### Spellings -/

def AllSpacing (text : List Char) : Prop :=
  ∀ c ∈ text, isSpacing c = true

instance (text : List Char) : Decidable (AllSpacing text) :=
  List.decidableBAll _ _

/-- Nothing, or something behind a space or a tab. -/
def StartsSpaced (text : List Char) : Prop :=
  ∀ c ∈ text.head?, isSpacing c = true

structure IsKey (key : List Char) : Prop where
  ne_nil : key ≠ []
  isKeyChar : ∀ c ∈ key, isKeyChar c = true

instance (key : List Char) : Decidable (IsKey key) :=
  decidable_of_iff (key ≠ [] ∧ key.all Script.isKeyChar = true)
    ⟨fun h => ⟨h.1, List.all_eq_true.mp h.2⟩, fun h => ⟨h.1, List.all_eq_true.mpr h.2⟩⟩

def BeginsWithKey (text : List Char) : Prop :=
  ∃ key rest, IsKey key ∧ text = key ++ '=' :: rest

/-- A name without blanks, which does not begin with an exclamation mark unless one stands before
it. -/
structure IsName (marked : Bool) (name : List Char) : Prop where
  ne_nil : name ≠ []
  isBareChar : ∀ c ∈ name, isBareChar c = true
  no_mark : marked = false → name.head? ≠ some '!'

instance (marked : Bool) (name : List Char) : Decidable (IsName marked name) :=
  decidable_of_iff
    (name ≠ [] ∧ name.all Script.isBareChar = true ∧ (marked = false → name.head? ≠ some '!'))
    ⟨fun h => ⟨h.1, List.all_eq_true.mp h.2.1, h.2.2⟩,
      fun h => ⟨h.1, List.all_eq_true.mpr h.2, h.3⟩⟩

namespace Argument

def keyChars (arg : Argument) : List Char :=
  match arg.key with
  | some key => key.toList ++ ['=']
  | none => []

/-- The value needs no quotes: it is not empty, has no blanks and does not begin with a quote.  A value
without a key does not begin with what would be one. -/
structure IsBare (arg : Argument) : Prop where
  ne_nil : arg.value.toList ≠ []
  isBareChar : ∀ c ∈ arg.value.toList, isBareChar c = true
  no_quote : ∀ c ∈ arg.value.toList.head?, isQuote c = false
  no_key : arg.key = none → ¬BeginsWithKey arg.value.toList

/-- The key is one, if the argument has any. -/
def HasKey (arg : Argument) : Prop :=
  ∀ key ∈ arg.key, IsKey key.toList

instance (arg : Argument) : Decidable arg.HasKey :=
  inferInstanceAs (Decidable (∀ key ∈ arg.key, IsKey key.toList))

/-- The spellings of an argument: its value between quotes that it does not contain, or without any. -/
inductive IsSpelledBy (arg : Argument) : List Char → Prop
  | quoted {quote : Char} : arg.HasKey → isQuote quote = true → quote ∉ arg.value.toList →
      IsSpelledBy arg (arg.keyChars ++ quote :: (arg.value.toList ++ [quote]))
  | bare : arg.HasKey → arg.IsBare → IsSpelledBy arg (arg.keyChars ++ arg.value.toList)

end Argument

/-- The spellings of some arguments, each behind at least one space or tab. -/
inductive AreSpelledBy : List Argument → List Char → Prop
  | nil : AreSpelledBy [] []
  | cons {arg : Argument} {args : List Argument} {gap text rest : List Char} : gap ≠ [] →
      AllSpacing gap → arg.IsSpelledBy text → AreSpelledBy args rest →
      AreSpelledBy (arg :: args) (gap ++ (text ++ rest))

def markChars (fail : Bool) : List Char :=
  if fail then ['!'] else []

/-- The spellings of a command: its mark, its name and its arguments, with spaces and tabs around. -/
def Command.IsSpelledBy (command : Command) (line : List Char) : Prop :=
  ∃ indent args trailing,
    line = indent ++ (markChars command.fail ++ (command.name.toList ++ (args ++ trailing))) ∧
    AllSpacing indent ∧ AllSpacing trailing ∧ IsName command.fail command.name.toList ∧
    AreSpelledBy command.args args

/-! ### Keys -/

theorem readKey_append {key : List Char} (h : IsKey key) (rest : List Char) :
    readKey (key ++ '=' :: rest) = (some key, rest) := by
  have hstop : ∀ c ∈ ('=' :: rest).head?, isKeyChar c = false := by
    rintro _ ⟨⟩
    rfl
  obtain ⟨c, tail, rfl⟩ := List.exists_cons_of_ne_nil h.ne_nil
  rw [readKey, takeWhile_run_append h.isKeyChar hstop, dropWhile_run_append h.isKeyChar hstop]
  rfl

theorem readKey_of_not {text : List Char} (h : ¬BeginsWithKey text) : readKey text = (none, text) := by
  unfold readKey
  split
  · rename_i c key rest htake hdrop
    have htext : text = (c :: key) ++ '=' :: rest := by
      rw [← htake, ← hdrop, List.takeWhile_append_dropWhile]
    have hkey : IsKey (c :: key) := ⟨List.cons_ne_nil _ _, htake ▸ forall_mem_takeWhile _ _⟩
    exact absurd ⟨_, _, hkey, htext⟩ h
  · rfl

theorem beginsWithKey_iff {text : List Char} : BeginsWithKey text ↔ (readKey text).1 ≠ none := by
  constructor
  · rintro ⟨key, rest, hkey, rfl⟩
    rw [readKey_append hkey]
    exact Option.some_ne_none _
  · intro h
    by_contra hno
    exact h (by rw [readKey_of_not hno])

instance (text : List Char) : Decidable (BeginsWithKey text) :=
  decidable_of_iff _ beginsWithKey_iff.symm

instance (arg : Argument) : Decidable arg.IsBare :=
  decidable_of_iff
    (arg.value.toList ≠ [] ∧ arg.value.toList.all Script.isBareChar = true ∧
      arg.value.toList.head?.any isQuote = false ∧
      (arg.key = none → ¬BeginsWithKey arg.value.toList))
    ⟨fun h => ⟨h.1, List.all_eq_true.mp h.2.1, (Option.any_eq_false _ _).mp h.2.2.1, h.2.2.2⟩,
      fun h => ⟨h.1, List.all_eq_true.mpr h.2, (Option.any_eq_false _ _).mpr h.3, h.4⟩⟩

/-- What follows a key does not keep it from being one. -/
theorem BeginsWithKey.append {text : List Char} (h : BeginsWithKey text) (rest : List Char) :
    BeginsWithKey (text ++ rest) := by
  obtain ⟨key, behind, hkey, rfl⟩ := h
  exact ⟨key, behind ++ rest, hkey, by rw [List.append_assoc, List.cons_append]⟩

/-- What follows an argument does not make a key of it. -/
theorem BeginsWithKey.of_append {text rest : List Char} (hr : StartsSpaced rest)
    (h : BeginsWithKey (text ++ rest)) : BeginsWithKey text := by
  obtain ⟨key, behind, hkey, he⟩ := h
  have hno : ∀ c ∈ key ++ ['='], isSpacing c = false := by
    intro c hc
    rcases List.mem_append.mp hc with hc | hc
    · exact isSpacing_of_isKeyChar (hkey.isKeyChar c hc)
    · rw [List.mem_singleton.mp hc]
      rfl
  rw [List.append_cons] at he
  rcases List.append_eq_append_iff.mp he with ⟨extra, hsign, rfl⟩ | ⟨extra, rfl, -⟩
  · cases extra with
    | nil => exact ⟨key, [], hkey, by rw [hsign, List.append_nil]⟩
    | cons c extra =>
      -- the key or its sign would have a space in it
      have hspacing := hr c rfl
      rw [hno c (hsign ▸ List.mem_append_right _ List.mem_cons_self)] at hspacing
      cases hspacing
  · exact ⟨key, extra, hkey, (List.append_cons _ _ _).symm⟩

theorem not_beginsWithKey_of_isQuote {quote : Char} (h : isQuote quote = true) (text : List Char) :
    ¬BeginsWithKey (quote :: text) := by
  rintro ⟨key, rest, hkey, he⟩
  obtain ⟨c, tail, rfl⟩ := List.exists_cons_of_ne_nil hkey.ne_nil
  obtain ⟨rfl, -⟩ := List.cons.inj he
  have hchar := hkey.isKeyChar quote List.mem_cons_self
  rw [isKeyChar_of_isQuote h] at hchar
  cases hchar

/-! ### Values -/

theorem readValue?_quoted {quote : Char} {value : List Char} (hq : isQuote quote = true)
    (h : quote ∉ value) (rest : List Char) :
    readValue? (quote :: (value ++ quote :: rest)) = some (value, rest) := by
  have hall : ∀ c ∈ value, (c != quote) = true := fun c hc => bne_iff_ne.mpr fun he => h (he ▸ hc)
  have hstop : ∀ c ∈ (quote :: rest).head?, (c != quote) = false := by
    rintro _ ⟨⟩
    simp
  rw [readValue?, if_pos hq, readQuoted?, dropWhile_run_append hall hstop]
  simp only [takeWhile_run_append hall hstop]

theorem readValue?_bare {value rest : List Char} (hne : value ≠ [])
    (hb : ∀ c ∈ value, isBareChar c = true) (hq : ∀ c ∈ value.head?, isQuote c = false)
    (hr : StartsSpaced rest) : readValue? (value ++ rest) = some (value, rest) := by
  obtain ⟨c, tail, rfl⟩ := List.exists_cons_of_ne_nil hne
  obtain ⟨hc, htail⟩ := List.forall_mem_cons.mp hb
  have hquote : ¬isQuote c = true := by simp [hq c rfl]
  have hstop : ∀ c ∈ rest.head?, isBareChar c = false := fun c hc => isBareChar_of_isSpacing (hr c hc)
  rw [List.cons_append, readValue?, if_neg hquote, if_pos hc, takeWhile_run_append htail hstop,
    dropWhile_run_append htail hstop]

theorem readValue?_cases {text value rest : List Char} (h : readValue? text = some (value, rest)) :
    (∃ quote, isQuote quote = true ∧ quote ∉ value ∧ text = quote :: (value ++ quote :: rest)) ∨
    (value ≠ [] ∧ (∀ c ∈ value, isBareChar c = true) ∧ (∀ c ∈ value.head?, isQuote c = false) ∧
      text = value ++ rest) := by
  cases text with
  | nil => cases h
  | cons c tail =>
    rw [readValue?] at h
    split at h
    · rename_i hq
      rw [readQuoted?] at h
      split at h
      · cases h
      · rename_i d behind hdrop
        obtain ⟨rfl, rfl⟩ := Prod.mk.inj (Option.some.inj h)
        have hd := head?_dropWhile (· != c) tail d (by rw [hdrop]; rfl)
        obtain rfl : d = c := by simpa using hd
        refine .inl ⟨d, hq, fun hm => ?_, ?_⟩
        · simpa using forall_mem_takeWhile _ _ d hm
        · rw [← hdrop, List.takeWhile_append_dropWhile]
    · rename_i hq
      split at h
      · rename_i hb
        obtain ⟨rfl, rfl⟩ := Prod.mk.inj (Option.some.inj h)
        refine .inr ⟨List.cons_ne_nil _ _, ?_, ?_, ?_⟩
        · exact List.forall_mem_cons.mpr ⟨hb, forall_mem_takeWhile _ _⟩
        · rintro _ ⟨⟩
          simpa using hq
        · rw [List.cons_append, List.takeWhile_append_dropWhile]
      · cases h

/-! ### Arguments -/

namespace Argument

variable {arg : Argument} {text rest : List Char}

theorem keyChars_of_none (h : arg.key = none) : arg.keyChars = [] := by
  rw [keyChars, h]

theorem keyChars_of_some {key : String} (h : arg.key = some key) :
    arg.keyChars = key.toList ++ ['='] := by
  rw [keyChars, h]

/-- An argument is read in two steps. -/
theorem readArgument?_of_readKey {key? : Option (List Char)} {behind : List Char}
    (h : readKey text = (key?, behind)) :
    readArgument? text = some (arg, rest) ↔
      key?.map String.ofList = arg.key ∧ readValue? behind = some (arg.value.toList, rest) := by
  simp only [readArgument?, h, bind, Option.bind_eq_some_iff, pure, Option.some.injEq,
    Prod.mk.injEq, Prod.exists]
  constructor
  · rintro ⟨value, after, hvalue, rfl, rfl⟩
    exact ⟨rfl, by rw [hvalue, String.toList_ofList]⟩
  · rintro ⟨hkey, hvalue⟩
    exact ⟨_, _, hvalue, by rw [hkey, String.ofList_toList], rfl⟩

theorem readArgument?_eq_some_iff :
    readArgument? text = some (arg, rest) ↔
      ∃ behind, text = arg.keyChars ++ behind ∧ arg.HasKey ∧
        (arg.key = none → ¬BeginsWithKey behind) ∧
        readValue? behind = some (arg.value.toList, rest) := by
  constructor
  · intro h
    by_cases hk : BeginsWithKey text
    · obtain ⟨key, behind, hkey, rfl⟩ := hk
      obtain ⟨harg, hvalue⟩ := (readArgument?_of_readKey (readKey_append hkey behind)).mp h
      have hsome : arg.key = some (String.ofList key) := harg.symm
      refine ⟨behind, ?_, ?_, ?_, hvalue⟩
      · rw [keyChars_of_some hsome, String.toList_ofList, List.append_assoc, List.singleton_append]
      · intro k hm
        obtain rfl := Option.some.inj (hsome.symm.trans hm)
        rwa [String.toList_ofList]
      · rw [hsome]
        rintro ⟨⟩
    · obtain ⟨harg, hvalue⟩ := (readArgument?_of_readKey (readKey_of_not hk)).mp h
      have hnone : arg.key = none := harg.symm
      refine ⟨text, by rw [keyChars_of_none hnone, List.nil_append], ?_, fun _ => hk, hvalue⟩
      intro k hm
      rw [hnone] at hm
      cases hm
  · rintro ⟨behind, htext, hkey, hno, hvalue⟩
    cases harg : arg.key with
    | none =>
      rw [keyChars_of_none harg, List.nil_append] at htext
      have hnone := readKey_of_not (htext ▸ hno harg)
      exact (readArgument?_of_readKey hnone).mpr ⟨harg.symm, htext ▸ hvalue⟩
    | some key =>
      rw [keyChars_of_some harg, List.append_assoc, List.singleton_append] at htext
      have hsome := readKey_append (hkey key harg) behind
      rw [← htext] at hsome
      refine (readArgument?_of_readKey hsome).mpr ⟨?_, hvalue⟩
      rw [harg, Option.map_some, String.ofList_toList]

/-- **A spelling of an argument is read as the argument**, in front of nothing or a space or tab. -/
theorem readArgument?_append (h : arg.IsSpelledBy text) (hr : StartsSpaced rest) :
    readArgument? (text ++ rest) = some (arg, rest) := by
  rw [readArgument?_eq_some_iff]
  cases h with
  | quoted hkey hq hno =>
    refine ⟨_, List.append_assoc _ _ _, hkey, fun _ => ?_, ?_⟩
    · exact not_beginsWithKey_of_isQuote hq _
    · rw [List.cons_append, List.append_assoc]
      exact readValue?_quoted hq hno rest
  | bare hkey hb =>
    refine ⟨_, List.append_assoc _ _ _, hkey, fun hnone hk => ?_, ?_⟩
    · exact hb.no_key hnone (hk.of_append hr)
    · exact readValue?_bare hb.ne_nil hb.isBareChar hb.no_quote hr

theorem eq_append_of_readArgument? (h : readArgument? text = some (arg, rest)) :
    ∃ written, arg.IsSpelledBy written ∧ text = written ++ rest := by
  obtain ⟨behind, rfl, hkey, hno, hvalue⟩ := readArgument?_eq_some_iff.mp h
  rcases readValue?_cases hvalue with ⟨quote, hq, hm, rfl⟩ | ⟨hne, hb, hq, rfl⟩
  · exact ⟨_, .quoted hkey hq hm, by simp⟩
  · have hbare : arg.IsBare := ⟨hne, hb, hq, fun hnone hk => hno hnone (hk.append rest)⟩
    exact ⟨_, .bare hkey hbare, by simp⟩

theorem IsSpelledBy.hasKey (h : arg.IsSpelledBy text) : arg.HasKey := by
  cases h with
  | quoted hkey => exact hkey
  | bare hkey => exact hkey

theorem IsSpelledBy.eq_append (h : arg.IsSpelledBy text) : ∃ value, text = arg.keyChars ++ value := by
  cases h with
  | quoted => exact ⟨_, rfl⟩
  | bare => exact ⟨_, rfl⟩

theorem IsSpelledBy.eq_cons (h : arg.IsSpelledBy text) :
    ∃ c tail, text = c :: tail ∧ isSpacing c = false := by
  cases hkey : arg.key with
  | some key =>
    have hk := h.hasKey key hkey
    obtain ⟨c, tail, hc⟩ := List.exists_cons_of_ne_nil hk.ne_nil
    have hspacing : isSpacing c = false :=
      isSpacing_of_isKeyChar (hk.isKeyChar c (by rw [hc]; exact List.mem_cons_self))
    obtain ⟨value, rfl⟩ := h.eq_append
    rw [keyChars_of_some hkey, hc]
    exact ⟨c, _, rfl, hspacing⟩
  | none =>
    cases h with
    | quoted _ hq =>
      rw [keyChars_of_none hkey]
      exact ⟨_, _, rfl, isSpacing_of_isBareChar (isBareChar_of_isQuote hq)⟩
    | bare _ hb =>
      obtain ⟨c, tail, hc⟩ := List.exists_cons_of_ne_nil hb.ne_nil
      rw [keyChars_of_none hkey, hc]
      refine ⟨c, tail, rfl, isSpacing_of_isBareChar (hb.isBareChar c ?_)⟩
      rw [hc]
      exact List.mem_cons_self

end Argument

/-! ### Lists of arguments -/

theorem readArguments_of_allSpacing {text : List Char} (h : AllSpacing text) :
    readArguments text = ([], text) := by
  cases text with
  | nil => rw [readArguments]
  | cons c rest =>
    have hnil : rest.dropWhile isSpacing = [] :=
      List.dropWhile_eq_nil_iff.mpr fun c hc => h c (List.mem_cons_of_mem _ hc)
    rw [readArguments, if_pos (h c List.mem_cons_self)]
    split
    · rfl
    · rename_i hread
      rw [hnil] at hread
      cases hread

theorem readArguments_gap_append {gap text rest : List Char} {arg : Argument} (hne : gap ≠ [])
    (hgap : AllSpacing gap) (hhead : ∀ c ∈ text.head?, isSpacing c = false)
    (h : readArgument? text = some (arg, rest)) :
    readArguments (gap ++ text) = (arg :: (readArguments rest).1, (readArguments rest).2) := by
  obtain ⟨c, gap, rfl⟩ := List.exists_cons_of_ne_nil hne
  obtain ⟨hc, hgap⟩ := List.forall_mem_cons.mp hgap
  have hdrop : (gap ++ text).dropWhile isSpacing = text := dropWhile_run_append hgap hhead
  rw [List.cons_append, readArguments, if_pos hc]
  split
  · rename_i hread
    rw [hdrop, h] at hread
    cases hread
  · rename_i arg' after hread
    rw [hdrop, h] at hread
    obtain ⟨rfl, rfl⟩ := Prod.mk.inj (Option.some.inj hread)
    rfl

theorem AreSpelledBy.startsSpaced {args : List Argument} {written trailing : List Char}
    (h : AreSpelledBy args written) (ht : AllSpacing trailing) :
    StartsSpaced (written ++ trailing) := by
  intro c hc
  cases h with
  | nil => exact ht c (List.mem_of_mem_head? hc)
  | cons hne hgap =>
    rw [List.append_assoc, List.head?_append_of_ne_nil _ hne] at hc
    exact hgap c (List.mem_of_mem_head? hc)

/-- **Arguments are read from their spellings.** -/
theorem readArguments_append {args : List Argument} {written trailing : List Char}
    (h : AreSpelledBy args written) (ht : AllSpacing trailing) :
    readArguments (written ++ trailing) = (args, trailing) := by
  induction h with
  | nil => exact readArguments_of_allSpacing ht
  | cons hne hgap harg hargs ih =>
    have hread := Argument.readArgument?_append harg (hargs.startsSpaced ht)
    obtain ⟨c, tail, rfl, hc⟩ := harg.eq_cons
    rw [List.append_assoc, List.append_assoc,
      readArguments_gap_append hne hgap (by rintro _ ⟨⟩; exact hc) hread, ih]

theorem eq_append_of_readArguments (text : List Char) :
    ∃ written, AreSpelledBy (readArguments text).1 written ∧
      text = written ++ (readArguments text).2 := by
  fun_induction readArguments text with
  | case1 => exact ⟨[], .nil, rfl⟩
  | case2 c rest hc hread => exact ⟨[], .nil, rfl⟩
  | case3 c rest hc arg after hread _ _ args left hargs ih =>
    obtain ⟨written, hwritten, hafter⟩ := ih
    obtain ⟨spelling, hspelling, htext⟩ := Argument.eq_append_of_readArgument? hread
    rw [hargs] at hwritten hafter
    refine ⟨(c :: rest.takeWhile isSpacing) ++ (spelling ++ written), ?_, ?_⟩
    · refine .cons (List.cons_ne_nil _ _) ?_ hspelling hwritten
      exact List.forall_mem_cons.mpr ⟨hc, forall_mem_takeWhile _ _⟩
    · calc c :: rest
          = c :: (rest.takeWhile isSpacing ++ rest.dropWhile isSpacing) := by
            rw [List.takeWhile_append_dropWhile]
        _ = c :: (rest.takeWhile isSpacing ++ (spelling ++ (written ++ left))) := by
            rw [htext, hafter]
        _ = (c :: rest.takeWhile isSpacing) ++ (spelling ++ written) ++ left := by simp
  | case4 c rest hc => exact ⟨[], .nil, rfl⟩

/-! ### Lines -/

theorem eq_markChars_append_readMark (text : List Char) :
    text = markChars (readMark text).1 ++ (readMark text).2 := by
  unfold readMark
  split <;> rfl

theorem head?_of_readMark {text : List Char} (h : (readMark text).1 = false) :
    (readMark text).2.head? ≠ some '!' := by
  unfold readMark at h ⊢
  split at h
  · cases h
  · rename_i hno
    intro hhead
    obtain ⟨rest, rfl⟩ := List.head?_eq_some_iff.mp hhead
    exact hno rest rfl

theorem readMark_append {fail : Bool} {text : List Char}
    (h : fail = false → text.head? ≠ some '!') : readMark (markChars fail ++ text) = (fail, text) := by
  cases fail with
  | true => rfl
  | false =>
    show readMark text = (false, text)
    unfold readMark
    split
    · exact absurd rfl (h rfl)
    · rfl

theorem IsName.head? {fail : Bool} {name : List Char} (h : IsName fail name) (tail : List Char) :
    (name ++ tail).head? = name.head? :=
  List.head?_append_of_ne_nil _ h.ne_nil

theorem IsName.not_isSpacing {fail : Bool} {name : List Char} (h : IsName fail name)
    (tail : List Char) :
    ∀ c ∈ (markChars fail ++ (name ++ tail)).head?, isSpacing c = false := by
  cases fail with
  | true =>
    rintro _ ⟨⟩
    rfl
  | false =>
    intro c hc
    rw [markChars, if_neg Bool.false_ne_true, List.nil_append, h.head?] at hc
    exact isSpacing_of_isBareChar (h.isBareChar c (List.mem_of_mem_head? hc))

theorem parseCommand_of_name {line : String} {indent name tail : List Char} {fail : Bool}
    (hline : line.toList = indent ++ (markChars fail ++ (name ++ tail)))
    (hindent : AllSpacing indent) (hname : IsName fail name) (htail : StartsSpaced tail)
    (number : Nat) :
    parseCommand line number =
      if (readArguments tail).2.dropWhile isSpacing = [] then
        .ok ⟨String.ofList name, (readArguments tail).1, fail, number⟩
      else .error (.leftOver (String.ofList ((readArguments tail).2.dropWhile isSpacing))) := by
  have hstop : ∀ c ∈ tail.head?, isBareChar c = false :=
    fun c hc => isBareChar_of_isSpacing (htail c hc)
  have hmark : readMark (line.toList.dropWhile isSpacing) = (fail, name ++ tail) := by
    rw [hline, dropWhile_run_append hindent (hname.not_isSpacing tail), readMark_append]
    rw [hname.head?]
    exact hname.no_mark
  simp only [parseCommand, hmark, takeWhile_run_append hname.isBareChar hstop,
    dropWhile_run_append hname.isBareChar hstop, if_neg hname.ne_nil]

/-- **A command is read from each of its spellings.** -/
theorem parseCommand_of_isSpelledBy {line : String} {command : Command}
    (h : command.IsSpelledBy line.toList) : parseCommand line command.line = .ok command := by
  obtain ⟨indent, args, trailing, hline, hindent, htrailing, hname, hargs⟩ := h
  rw [parseCommand_of_name hline hindent hname (hargs.startsSpaced htrailing),
    readArguments_append hargs htrailing, if_pos (List.dropWhile_eq_nil_iff.mpr htrailing),
    String.ofList_toList]

theorem line_of_parseCommand {line : String} {number : Nat} {command : Command}
    (h : parseCommand line number = .ok command) : command.line = number := by
  unfold parseCommand at h
  simp only at h
  split at h
  · cases h
  · split at h
    · rw [← Except.ok.inj h]
    · cases h

theorem isSpelledBy_of_parseCommand {line : String} {number : Nat} {command : Command}
    (h : parseCommand line number = .ok command) : command.IsSpelledBy line.toList := by
  have hmark := eq_markChars_append_readMark (line.toList.dropWhile isSpacing)
  have hnoMark := @head?_of_readMark (line.toList.dropWhile isSpacing)
  unfold parseCommand at h
  generalize readMark (line.toList.dropWhile isSpacing) = marked at h hmark hnoMark
  obtain ⟨fail, unmarked⟩ := marked
  obtain ⟨written, hwritten, htail⟩ := eq_append_of_readArguments (unmarked.dropWhile isBareChar)
  simp only at h hmark hnoMark
  split at h
  · cases h
  rename_i hne
  split at h
  · rename_i hrest
    obtain rfl := Except.ok.inj h
    have hname : IsName fail (unmarked.takeWhile isBareChar) := by
      refine ⟨hne, forall_mem_takeWhile _ _, fun hfail hhead => hnoMark hfail ?_⟩
      rw [← hhead, ← List.head?_append_of_ne_nil _ hne, List.takeWhile_append_dropWhile]
    refine ⟨line.toList.takeWhile isSpacing, written, _, ?_, forall_mem_takeWhile _ _,
      List.dropWhile_eq_nil_iff.mp hrest, ?_, hwritten⟩
    · simp only [String.toList_ofList]
      rw [← htail, List.takeWhile_append_dropWhile, ← hmark, List.takeWhile_append_dropWhile]
    · simpa only [String.toList_ofList] using hname
  · cases h

/-- **A line is read as a command if it is one of its spellings, and only so.**  Spaces and tabs around
the parts do not matter, and nor does the sort of quotes, or whether there are any. -/
theorem parseCommand_eq_ok_iff (line : String) (number : Nat) (command : Command) :
    parseCommand line number = .ok command ↔
      command.line = number ∧ command.IsSpelledBy line.toList := by
  constructor
  · intro h
    exact ⟨line_of_parseCommand h, isSpelledBy_of_parseCommand h⟩
  · rintro ⟨rfl, h⟩
    exact parseCommand_of_isSpelledBy h

/-- A marked command with a value in quotes of either sort, an empty one, and one without quotes that
is not taken for another key. -/
theorem parseCommand_mixedLine :
    parseCommand "\t !cast  text=\"it's\" 'a=b c'\t''\tk=k=x " 7 =
      .ok ⟨"cast", [⟨some "text", "it's"⟩, ⟨none, "a=b c"⟩, ⟨none, ""⟩, ⟨some "k", "k=x"⟩], true, 7⟩ := by
  have hquoted (key : Option String) (value : String) (quote : Char)
      (h : (Argument.mk key value).HasKey ∧ isQuote quote = true ∧ quote ∉ value.toList) :
      (Argument.mk key value).IsSpelledBy _ := .quoted h.1 h.2.1 h.2.2
  have hbare : Argument.IsSpelledBy ⟨some "k", "k=x"⟩ _ := .bare (by decide) (by decide)
  have hargs := @AreSpelledBy.cons _ _ "  ".toList _ _ (by decide) (by decide)
    (hquoted (some "text") "it's" '"' (by decide)) <|
    @AreSpelledBy.cons _ _ " ".toList _ _ (by decide) (by decide)
      (hquoted none "a=b c" '\'' (by decide)) <|
    @AreSpelledBy.cons _ _ "\t".toList _ _ (by decide) (by decide)
      (hquoted none "" '\'' (by decide)) <|
    @AreSpelledBy.cons _ _ "\t".toList _ _ (by decide) (by decide) hbare .nil
  exact (parseCommand_eq_ok_iff _ _ _).mpr
    ⟨rfl, "\t ".toList, _, " ".toList, rfl, by decide, by decide, by decide, hargs⟩

end Datum.Script
