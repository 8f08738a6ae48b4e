import Datum.Json.Parser
import Datum.Proofs.Json.Tokens

/-!
# A document is read from its compact text

The parser is followed through the text of a value with any open containers around it and any text
behind it: it comes out waiting for a separator, with the value in its hand (`run_chars`).  So a
well-formed document is parsed from its own text (`parse?_compact`), and no two have the same text.
-/

namespace Datum.Json

inductive WellFormed : Json → Prop
  | null : WellFormed .null
  | bool (b : Bool) : WellFormed (.bool b)
  | number {n : Number} (hn : n.WellFormed) : WellFormed (.number n)
  | string {s : List Piece} (hs : ∀ p ∈ s, p.WellFormed) : WellFormed (.string s)
  | array {elements : List Json} (he : ∀ j ∈ elements, WellFormed j) : WellFormed (.array elements)
  | object {members : List (List Piece × Json)} (hnames : ∀ m ∈ members, ∀ p ∈ m.1, p.WellFormed)
      (hvalues : ∀ m ∈ members, WellFormed m.2) : WellFormed (.object members)

/-! ### The parser on a text -/

def run (stack : List Frame) (awaiting : Awaiting) (text : List Char) : Option Json :=
  (tokens text).bind (build stack awaiting)

variable {stack stack' : List Frame} {awaiting awaiting' : Awaiting} {rest : List Char}

theorem run_of_token {text : List Char} (token : Token)
    (ht : tokens text = (tokens rest).map (token :: ·))
    (hstep : step stack awaiting token = some (stack', awaiting')) :
    run stack awaiting text = run stack' awaiting' rest := by
  rw [run, run, ht, Option.bind_map]
  congr 1
  funext after
  rw [Function.comp, build, hstep]

/-- Where a value may start. -/
def Starts (awaiting : Awaiting) : Prop :=
  awaiting = .value ∨ awaiting = .element

theorem Starts.step_eq (ha : Starts awaiting) {token : Token} (ht : token ≠ .closeBracket) :
    step stack awaiting token = startValue stack token := by
  rcases ha with rfl | rfl
  · rfl
  · cases token <;> first | rfl | contradiction

theorem run_scalar (token : Token) (ha : Starts awaiting) {text : List Char} {j : Json}
    (hscalar : token.scalar? = some j) (ht : tokens text = (tokens rest).map (token :: ·)) :
    run stack awaiting text = run stack (.separator j) rest := by
  refine run_of_token token ht ?_
  rw [ha.step_eq (by rintro rfl; cases hscalar), startValue]
  · rw [hscalar]
    rfl
  all_goals (rintro rfl; cases hscalar)

/-- What stands behind a value in a document. -/
def EndsValue (text : List Char) : Prop :=
  ∀ c ∈ text.head?, c = ',' ∨ c = ']' ∨ c = '\x7d'

theorem EndsValue.endsNumber (h : EndsValue rest) : EndsNumber rest := by
  intro c hc
  rcases h c hc with rfl | rfl | rfl <;> decide

theorem endsValue_cons {c : Char} (hc : c = ',' ∨ c = ']' ∨ c = '\x7d') (text : List Char) :
    EndsValue (c :: text) := by
  intro d hd
  cases hd
  exact hc

/-! ### Containers -/

/-- The text of a value is read wherever one may start. -/
def ReadsBack (j : Json) : Prop :=
  ∀ (stack : List Frame) (awaiting : Awaiting) (rest : List Char), Starts awaiting →
    EndsValue rest → run stack awaiting (j.chars ++ rest) = run stack (.separator j) rest

theorem joinCommas_cons_cons (first second : List Char) (rest : List (List Char)) :
    joinCommas (first :: second :: rest) = first ++ ',' :: joinCommas (second :: rest) := by
  rw [joinCommas]
  exact List.cons_ne_nil _ _

theorem run_elements {first : Json} {others : List Json} (h : ∀ j ∈ first :: others, ReadsBack j)
    (ha : Starts awaiting) (done : List Json) :
    run (.array done :: stack) awaiting
        (joinCommas (elementChars (first :: others)) ++ ']' :: rest) =
      run stack (.separator (.array (done.reverse ++ first :: others))) rest := by
  induction others generalizing first done awaiting with
  | nil =>
    have hfirst := h first List.mem_cons_self
    rw [elementChars, elementChars, joinCommas,
      hfirst _ _ _ ha (endsValue_cons (.inr (.inl rfl)) _)]
    refine run_of_token .closeBracket (by rw [tokens]) ?_
    rw [step, List.reverse_cons]
  | cons second others ih =>
    obtain ⟨hfirst, hothers⟩ := List.forall_mem_cons.mp h
    have hcomma (text : List Char) : run (.array done :: stack) (.separator first) (',' :: text) =
        run (.array (first :: done) :: stack) .value text :=
      run_of_token .comma (by rw [tokens]) rfl
    have htail := ih hothers (.inl rfl) (first :: done)
    rw [List.reverse_cons, List.append_assoc] at htail
    rw [elementChars, elementChars, joinCommas_cons_cons, List.append_assoc, List.cons_append,
      hfirst _ _ _ ha (endsValue_cons (.inl rfl) _), hcomma]
    exact htail

/-- **The text of an array of values is read if those of the values are.** -/
theorem readsBack_array {elements : List Json} (h : ∀ j ∈ elements, ReadsBack j) :
    ReadsBack (.array elements) := by
  intro stack awaiting rest ha hr
  have hopen (text : List Char) : run stack awaiting ('[' :: text) =
      run (.array [] :: stack) .element text :=
    run_of_token .openBracket (by rw [tokens]) (ha.step_eq (by decide))
  have hchars : (array elements).chars ++ rest =
      '[' :: (joinCommas (elementChars elements) ++ ']' :: rest) := by
    simp [chars]
  rw [hchars, hopen]
  cases elements with
  | nil =>
    rw [elementChars, joinCommas, List.nil_append]
    exact run_of_token .closeBracket (by rw [tokens]) rfl
  | cons first others => exact run_elements h (.inr rfl) []

theorem run_name {name : List Piece} (hname : ∀ p ∈ name, p.WellFormed)
    {done : List (List Piece × Json)} (ha : awaiting = .member ∧ done = [] ∨ awaiting = .name done)
    (text : List Char) :
    run stack awaiting (stringChars name ++ ':' :: text) =
      run (.object done name :: stack) .value text := by
  have hstring : run stack awaiting (stringChars name ++ ':' :: text) =
      run stack (.colon done name) (':' :: text) := by
    refine run_of_token (.string name) (tokens_stringChars hname _) ?_
    rcases ha with ⟨rfl, rfl⟩ | rfl <;> rfl
  rw [hstring]
  exact run_of_token .colon (by rw [tokens]) rfl

theorem run_members {first : List Piece × Json} {others : List (List Piece × Json)}
    (hnames : ∀ m ∈ first :: others, ∀ p ∈ m.1, p.WellFormed)
    (hvalues : ∀ m ∈ first :: others, ReadsBack m.2) (done : List (List Piece × Json))
    (ha : awaiting = .member ∧ done = [] ∨ awaiting = .name done) :
    run stack awaiting (joinCommas (memberChars (first :: others)) ++ '\x7d' :: rest) =
      run stack (.separator (.object (done.reverse ++ first :: others))) rest := by
  induction others generalizing first done awaiting with
  | nil =>
    have hname := hnames first List.mem_cons_self
    have hvalue := hvalues first List.mem_cons_self
    rw [memberChars, memberChars, joinCommas, List.append_assoc, List.cons_append,
      run_name hname ha, hvalue _ _ _ (.inl rfl) (endsValue_cons (.inr (.inr rfl)) _)]
    refine run_of_token .closeBrace (by rw [tokens]) ?_
    rw [step, List.reverse_cons]
  | cons second others ih =>
    obtain ⟨hname, hnames⟩ := List.forall_mem_cons.mp hnames
    obtain ⟨hvalue, hvalues⟩ := List.forall_mem_cons.mp hvalues
    have hcomma (text : List Char) :
        run (.object done first.1 :: stack) (.separator first.2) (',' :: text) =
          run stack (.name (first :: done)) text :=
      run_of_token .comma (by rw [tokens]) rfl
    have htail := ih hnames hvalues (first :: done) (.inr rfl)
    rw [List.reverse_cons, List.append_assoc] at htail
    rw [memberChars, memberChars, joinCommas_cons_cons, List.append_assoc, List.append_assoc,
      List.cons_append, List.cons_append, run_name hname ha,
      hvalue _ _ _ (.inl rfl) (endsValue_cons (.inl rfl) _), hcomma]
    exact htail

/-- **The text of an object is read if those of its values are.** -/
theorem readsBack_object {members : List (List Piece × Json)}
    (hnames : ∀ m ∈ members, ∀ p ∈ m.1, p.WellFormed) (hvalues : ∀ m ∈ members, ReadsBack m.2) :
    ReadsBack (.object members) := by
  intro stack awaiting rest ha hr
  have hopen (text : List Char) : run stack awaiting ('\x7b' :: text) = run stack .member text :=
    run_of_token .openBrace (by rw [tokens]) (ha.step_eq (by decide))
  have hchars : (object members).chars ++ rest =
      '\x7b' :: (joinCommas (memberChars members) ++ '\x7d' :: rest) := by
    simp [chars]
  rw [hchars, hopen]
  cases members with
  | nil =>
    rw [memberChars, joinCommas, List.nil_append]
    exact run_of_token .closeBrace (by rw [tokens]) rfl
  | cons first others => exact run_members hnames hvalues [] (.inl ⟨rfl, rfl⟩)

/-! ### Documents -/

/-- **The text of a well-formed document is read wherever a value may start.** -/
theorem WellFormed.readsBack {j : Json} (h : j.WellFormed) : ReadsBack j := by
  induction h with
  | null =>
    intro stack awaiting rest ha hr
    exact run_scalar .null ha rfl (by rw [chars]; simp [tokens])
  | bool b =>
    intro stack awaiting rest ha hr
    refine run_scalar (.bool b) ha rfl ?_
    cases b <;> rw [chars] <;> simp [tokens]
  | number hn =>
    intro stack awaiting rest ha hr
    exact run_scalar (.number _) ha rfl (by rw [chars, tokens_numberChars hn hr.endsNumber])
  | string hs =>
    intro stack awaiting rest ha hr
    exact run_scalar (.string _) ha rfl (by rw [chars, tokens_stringChars hs])
  | array _ ih => exact readsBack_array ih
  | object hnames _ ih => exact readsBack_object hnames ih

/-- **A well-formed document is parsed from its compact text.** -/
theorem parse?_compact {j : Json} (h : j.WellFormed) : parse? j.compact = some j := by
  have hnil : EndsValue [] := by
    intro c hc
    cases hc
  have hread := h.readsBack [] .value [] (.inl rfl) hnil
  rw [List.append_nil] at hread
  have hend : run [] (.separator j) [] = some j := by
    rw [run, tokens]
    rfl
  rw [parse?, compact, String.toList_ofList]
  exact hread.trans hend

end Datum.Json
