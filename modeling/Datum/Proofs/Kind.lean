import Datum.Kind
import Mathlib.Data.List.Infix

/-!
# Names of kinds

A text calls a kind if it is one of its names, up to the case of the letters.  The upper case of a few
characters outside ASCII is in ASCII, too, and some of these can stand in a name for the letters they
are upper-cased to (`letters`).  The others would double a letter in a way no name does
(`IsPlainName`).

So a text in ASCII is recognised as it should be, and any other text has a dotless i, a long s or a
ligature in the place of letters of the name (`Kind.parse_accepts_names`).
-/

namespace Datum

namespace Text

/-- The letters that a character stands for in a name. -/
def letters (c : Char) : List Char :=
  match c with
  | 'ı' => ['i']
  | 'ſ' => ['s']
  | 'ﬂ' => ['f', 'l']
  | 'ﬅ' => ['s', 't']
  | 'ﬆ' => ['s', 't']
  | c => [c]

def EqualUpToCase (a b : List Char) : Prop :=
  a.map Char.toUpper = b.map Char.toUpper

instance (a b : List Char) : Decidable (EqualUpToCase a b) :=
  inferInstanceAs (Decidable (_ = _))

/-- The characters that stand for other letters in a name. -/
def standIns : List Char :=
  ['ı', 'ſ', 'ﬂ', 'ﬅ', 'ﬆ']

/-- The characters with an upper case of ASCII letters that are in no name. -/
def strays : List Char :=
  ['ß', 'ﬀ', 'ﬁ', 'ﬃ', 'ﬄ']

/-- A name in ASCII without the letters that a stray is upper-cased to. -/
def IsPlainName (name : List Char) : Prop :=
  (∀ c ∈ name, c.toNat < 128) ∧ ∀ c ∈ strays, ¬upperChar c <:+: name

instance (name : List Char) : Decidable (IsPlainName name) :=
  @instDecidableAnd _ _ (List.decidableBAll _ _) (List.decidableBAll _ _)

theorem forall_mem_standIns {p : Char → Prop} :
    (∀ c ∈ standIns, p c) ↔ p 'ı' ∧ p 'ſ' ∧ p 'ﬂ' ∧ p 'ﬅ' ∧ p 'ﬆ' := by
  simp [standIns]

theorem toUpper_of_not_ascii {c : Char} (h : 128 ≤ c.toNat) : c.toUpper = c := by
  refine dif_neg ?_
  rintro ⟨-, hz⟩
  have hle : c.toNat ≤ 122 := hz
  omega

theorem letters_of_not_mem {c : Char} (h : c ∉ standIns) : letters c = [c] := by
  unfold letters
  split
  case h_6 => rfl
  all_goals exact absurd (by decide) h

theorem letters_of_ascii {c : Char} (h : c.toNat < 128) : letters c = [c] := by
  refine letters_of_not_mem fun hc => ?_
  have hforeign : ∀ d ∈ standIns, 128 ≤ d.toNat := forall_mem_standIns.mpr (by decide)
  exact absurd (hforeign c hc) (by omega)

/-- Upper case is that of the letters, but for strays. -/
theorem upperChar_eq {c : Char} (h : c ∉ strays) : upperChar c = (letters c).map Char.toUpper := by
  by_cases hc : c ∈ standIns
  · have heach : ∀ d ∈ standIns, upperChar d = (letters d).map Char.toUpper :=
      forall_mem_standIns.mpr (by decide)
    exact heach c hc
  · rw [letters_of_not_mem hc]
    unfold upperChar
    split
    case h_11 => rfl
    all_goals first | exact absurd (by decide) h | exact absurd (by decide) hc

theorem infix_flatMap {α β : Type} (f : α → List β) {a : α} {l : List α} (h : a ∈ l) :
    f a <:+: l.flatMap f := by
  rw [List.flatMap_def]
  exact List.infix_of_mem_flatten (List.mem_map_of_mem h)

/-- **The upper case of a text is a plain name if the text spells it in letters of either case.** -/
theorem flatMap_upperChar_eq_iff {name : List Char} (hn : IsPlainName name) (text : List Char) :
    text.flatMap upperChar = name ↔ (text.flatMap letters).map Char.toUpper = name := by
  by_cases hs : ∃ c ∈ text, c ∈ strays
  · obtain ⟨c, hc, hstray⟩ := hs
    refine iff_of_false ?_ ?_
    · rintro rfl
      exact hn.2 c hstray (infix_flatMap upperChar hc)
    · rintro rfl
      have hforeign : ∀ d ∈ strays, 128 ≤ d.toNat ∧ d ∉ standIns := by simp [strays, standIns]
      obtain ⟨hge, hnot⟩ := hforeign c hstray
      have hmem : c ∈ (text.flatMap letters).map Char.toUpper := by
        refine List.mem_map.mpr ⟨c, ?_, toUpper_of_not_ascii hge⟩
        rw [List.mem_flatMap]
        exact ⟨c, hc, by rw [letters_of_not_mem hnot]; exact List.mem_singleton_self c⟩
      exact absurd (hn.1 c hmem) (by omega)
  · have heach : ∀ c ∈ text, upperChar c = (letters c).map Char.toUpper :=
      fun c hc => upperChar_eq fun hstray => hs ⟨c, hc, hstray⟩
    rw [List.map_flatMap, List.flatMap_congr heach]

end Text

namespace Kind

open Text (EqualUpToCase letters standIns)

/-- The characters outside ASCII that can stand for letters in a name of the kind. -/
def foreignLetters : Kind → List Char
  | integer => ['ı']
  | float => ['ﬂ']
  | charString => ['ı', 'ſ', 'ﬅ', 'ﬆ']
  | _ => []

theorem isPlainName_of_mem {k : Kind} {name : String} (h : name ∈ k.queryNames) :
    Text.IsPlainName name.toList := by
  revert name
  cases k <;> decide

theorem toUpper_of_mem {k : Kind} {name : String} (h : name ∈ k.queryNames) :
    name.toList.map Char.toUpper = name.toList := by
  revert name
  cases k <;> decide

/-- No name calls two kinds. -/
theorem eq_of_mem_queryNames {k k' : Kind} {name : String} (h : name ∈ k.queryNames)
    (h' : name ∈ k'.queryNames) : k = k' := by
  revert name
  cases k <;> cases k' <;> decide

theorem parse?_eq_some_iff {text : String} {k : Kind} :
    parse? text = some k ↔ Text.upper text ∈ k.queryNames := by
  constructor
  · intro h
    simpa using List.find?_some h
  · intro h
    cases hfind : parse? text with
    | none =>
      have hnone := List.find?_eq_none.mp hfind k (mem_all k)
      exact absurd h (by simpa using hnone)
    | some k' =>
      have h' : Text.upper text ∈ k'.queryNames := by simpa using List.find?_some hfind
      rw [eq_of_mem_queryNames h' h]

theorem parse?_eq_some_iff_exists {text : String} {k : Kind} :
    parse? text = some k ↔
      ∃ name ∈ k.queryNames, EqualUpToCase (text.toList.flatMap letters) name.toList := by
  rw [parse?_eq_some_iff]
  have hname {name : String} (hn : name ∈ k.queryNames) :
      Text.upper text = name ↔ EqualUpToCase (text.toList.flatMap letters) name.toList := by
    rw [EqualUpToCase, toUpper_of_mem hn,
      ← Text.flatMap_upperChar_eq_iff (isPlainName_of_mem hn), Text.upper, ← String.toList_inj,
      String.toList_ofList]
  constructor
  · exact fun h => ⟨_, h, (hname h).mp rfl⟩
  · rintro ⟨name, hn, heq⟩
    rwa [(hname hn).mpr heq]

/-- What a character stands for is in the name, so that only certain kinds can be called with it. -/
theorem mem_foreignLetters {text : String} {k : Kind} (h : parse? text = some k) {c : Char}
    (hc : c ∈ text.toList) : c.toNat < 128 ∨ c ∈ k.foreignLetters := by
  obtain ⟨name, hn, heq⟩ := parse?_eq_some_iff_exists.mp h
  rw [EqualUpToCase, toUpper_of_mem hn, List.map_flatMap] at heq
  have hinfix : (letters c).map Char.toUpper <:+: name.toList :=
    heq ▸ Text.infix_flatMap (fun c => (letters c).map Char.toUpper) hc
  by_cases hs : c ∈ standIns
  · have hkind : ∀ c ∈ standIns, ∀ name ∈ k.queryNames,
        (letters c).map Char.toUpper <:+: name.toList → c ∈ k.foreignLetters :=
      Text.forall_mem_standIns.mpr (by cases k <;> decide)
    exact .inr (hkind c hs name hn hinfix)
  · left
    rw [Text.letters_of_not_mem hs] at hinfix
    by_contra hge
    have hmem : c.toUpper ∈ name.toList := hinfix.subset List.mem_cons_self
    rw [Text.toUpper_of_not_ascii (by omega)] at hmem
    exact absurd ((isPlainName_of_mem hn).1 c hmem) hge

/-- **A kind is called by its names, up to the case of the letters.**  This is all for texts in ASCII.
Any other text has a dotless i, a long s or a ligature in the place of the letters that it stands for,
and only integers, floats and character strings have such letters in their names. -/
theorem parse_accepts_names (text : String) (k : Kind) :
    (parse? text = some k ↔
      ∃ name ∈ k.queryNames, EqualUpToCase (text.toList.flatMap letters) name.toList) ∧
    ((∀ c ∈ text.toList, c.toNat < 128) →
      (parse? text = some k ↔ ∃ name ∈ k.queryNames, EqualUpToCase text.toList name.toList)) ∧
    (parse? text = some k → ∀ c ∈ text.toList, c.toNat < 128 ∨ c ∈ k.foreignLetters) := by
  refine ⟨parse?_eq_some_iff_exists, fun hascii => ?_, fun h c hc => mem_foreignLetters h hc⟩
  have hletters : text.toList.flatMap letters = text.toList := by
    rw [List.flatMap_congr fun c hc => Text.letters_of_ascii (hascii c hc), List.flatMap_singleton']
  rw [parse?_eq_some_iff_exists, hletters]

/-- A name in mixed case, and one with a ligature. -/
theorem parse_accepts_names_with_ligature :
    parse? "iNTeger" = some .integer ∧ parse? "ﬆrIng" = some .charString ∧
    ('ﬆ'.toNat < 128 ∨ 'ﬆ' ∈ foreignLetters .charString) := by
  obtain ⟨-, hascii, -⟩ := parse_accepts_names "iNTeger" .integer
  obtain ⟨haccepts, -, hforeign⟩ := parse_accepts_names "ﬆrIng" .charString
  have hstring := haccepts.mpr ⟨"STRING", by decide, by decide⟩
  exact ⟨(hascii (by simp)).mpr ⟨"INTEGER", by decide, by decide⟩, hstring,
    hforeign hstring 'ﬆ' (by decide)⟩

/-- A text with a ligature calls a kind and is not one of its names in any case. -/
theorem ligature_in_name :
    parse? "ﬂoat" = some .float ∧
    ¬∃ name ∈ queryNames .float, EqualUpToCase "ﬂoat".toList name.toList := by
  decide

end Kind

end Datum
