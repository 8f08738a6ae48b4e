import Datum.Diagnostic

/-!
# Chains of causes

A failed coercion nests what failed in the cast, and that may be a failed coercion again.  The chain
can be followed on the failures (`TypeError.cause?`) and on their diagnostics (`Diagnostic.cause`).
One step of the one is one step of the other (`TypeError.cause_diagnostic`), so both visit the same
links and end together (`Visits.map`), and the text on one line tells the links in their order
(`TypeError.summary_eq_of_visits`).
-/

namespace Datum

/-- Going on from `a` by `next` visits exactly these, one after the other, and then ends. -/
inductive Visits {α : Type} (next : α → Option α) : α → List α → Prop
  | ended {a : α} (h : next a = none) : Visits next a []
  | step {a b : α} {rest : List α} (h : next a = some b) (hr : Visits next b rest) :
      Visits next a (b :: rest)

namespace Visits

variable {α β : Type} {next : α → Option α} {a : α} {l : List α}

/-- **Walks whose steps correspond visit what corresponds.** -/
theorem map {next' : β → Option β} {f : α → β} (hf : ∀ a, next' (f a) = (next a).map f)
    (h : Visits next a l) : Visits next' (f a) (l.map f) := by
  induction h with
  | ended h => exact .ended (by rw [hf, h, Option.map_none])
  | step h _ ih => exact .step (by rw [hf, h, Option.map_some]) ih

theorem next_eq (h : Visits next a l) {i : Nat} {b : α} (hi : (a :: l)[i]? = some b) :
    next b = (a :: l)[i + 1]? := by
  induction h generalizing i with
  | ended h =>
    cases i with
    | zero =>
      obtain rfl := Option.some.inj hi
      exact h
    | succ i => cases hi
  | step h _ ih =>
    cases i with
    | zero =>
      obtain rfl := Option.some.inj hi
      exact h
    | succ i => exact ih hi

end Visits

theorem Diagnostic.summary_eq (d : Diagnostic) :
    d.summary = d.code ++ ": " ++ d.message ++
      d.cause.elim "" fun cause => " (cause: " ++ cause.summary ++ ")" := by
  obtain ⟨code, message, _, _, _, _ | cause⟩ := d
  · rw [summary, Option.elim_none, String.append_empty]
  · rw [summary, Option.elim_some]
    simp only [String.append_assoc]

namespace TypeError

/-! ### One link -/

theorem code_diagnostic (e : TypeError) : e.diagnostic.code = e.code := by
  cases e <;> rfl

theorem message_diagnostic (e : TypeError) : e.diagnostic.message = e.message := by
  cases e <;> rfl

/-- **The cause of a diagnostic is the diagnostic of the cause.** -/
theorem cause_diagnostic (e : TypeError) : e.diagnostic.cause = e.cause?.map diagnostic := by
  cases e <;> rfl

/-- The text of a failure on one line, without its cause. -/
def headline (e : TypeError) : String :=
  e.code ++ ": " ++ e.message

theorem summary_eq (e : TypeError) :
    e.summary = e.headline ++ e.cause?.elim "" fun cause => " (cause: " ++ cause.summary ++ ")" := by
  rw [summary, Diagnostic.summary_eq, code_diagnostic, message_diagnostic, cause_diagnostic, headline]
  cases e.cause? <;> rfl

/-! ### Whole chains -/

/-- The failure nests this many failed coercions over a last failure that is none. -/
inductive Nests : TypeError → Nat → TypeError → Prop
  | leaf {e : TypeError}
      (h : ∀ operand source target cause, e ≠ coercionFailed operand source target cause) :
      Nests e 0 e
  | layer {operand : Operand} {source target : Kind} {cause leaf : TypeError} {n : Nat}
      (h : Nests cause n leaf) : Nests (coercionFailed operand source target cause) (n + 1) leaf

theorem exists_nests (e : TypeError) : ∃ n leaf, e.Nests n leaf := by
  induction e with
  | coercionFailed operand source target cause ih =>
    obtain ⟨n, leaf, h⟩ := ih
    exact ⟨n + 1, leaf, .layer h⟩
  | _ => exact ⟨0, _, .leaf nofun⟩

theorem cause?_eq_none {e : TypeError}
    (h : ∀ operand source target cause, e ≠ coercionFailed operand source target cause) :
    e.cause? = none := by
  cases e with
  | coercionFailed operand source target cause => exact absurd rfl (h operand source target cause)
  | _ => rfl

/-- A failure has as many causes as failed coercions, and all but the last are failed coercions. -/
theorem Nests.exists_visits {e leaf : TypeError} {n : Nat} (h : e.Nests n leaf) :
    ∃ causes, causes.length = n ∧ Visits cause? e causes ∧ (e :: causes)[n]? = some leaf ∧
      ∀ i link, (e :: causes)[i]? = some link → i < n → link.code = "TYPE_002" := by
  induction h with
  | leaf h =>
    refine ⟨[], rfl, .ended (cause?_eq_none h), rfl, ?_⟩
    intro i link _ hlt
    exact absurd hlt (Nat.not_lt_zero i)
  | @layer operand source target cause leaf n _ ih =>
    obtain ⟨causes, hlen, hv, hleaf, hcode⟩ := ih
    refine ⟨cause :: causes, congrArg (· + 1) hlen, .step rfl hv, hleaf, ?_⟩
    intro i link hi hlt
    cases i with
    | zero =>
      obtain rfl := Option.some.inj hi
      rfl
    | succ i => exact hcode i link hi (Nat.lt_of_succ_lt_succ hlt)

/-- **The text on one line tells all links in their order**, and closes a bracket for each cause. -/
theorem summary_eq_of_visits {e : TypeError} {causes : List TypeError} (h : Visits cause? e causes) :
    e.summary = e.headline ++ String.join (causes.map fun cause => " (cause: " ++ cause.headline) ++
      String.ofList (List.replicate causes.length ')') := by
  induction h with
  | ended h =>
    rw [summary_eq, h, ← String.toList_inj]
    simp
  | step h _ ih =>
    rw [summary_eq, h, Option.elim_some, ih, ← String.toList_inj]
    simp [String.toList_join, List.replicate_succ']

/-- **The causes of a failure, of its diagnostic and of its text agree at every depth.**  A failure
that nests `n` failed coercions has `n` causes, and following them ends at the failure that is none.
Its diagnostic has the diagnostics of these causes, each with the code and the message of its failure,
and the text of each link holds the text of the next. -/
theorem causes_agree {e leaf : TypeError} {n : Nat} (h : e.Nests n leaf) :
    ∃ causes : List TypeError, causes.length = n ∧ (e :: causes)[n]? = some leaf ∧
      Visits cause? e causes ∧ Visits Diagnostic.cause e.diagnostic (causes.map diagnostic) ∧
      (∀ i link, (e :: causes)[i]? = some link →
        link.diagnostic.code = (if i < n then "TYPE_002" else leaf.code) ∧
        link.diagnostic.message = link.message ∧
        link.summary = link.code ++ ": " ++ link.message ++
          (e :: causes)[i + 1]?.elim "" fun cause => " (cause: " ++ cause.summary ++ ")") ∧
      e.summary = e.headline ++ String.join (causes.map fun cause => " (cause: " ++ cause.headline) ++
        String.ofList (List.replicate n ')') := by
  obtain ⟨causes, hlen, hv, hleaf, hcode⟩ := h.exists_visits
  refine ⟨causes, hlen, hleaf, hv, hv.map cause_diagnostic, ?_, ?_⟩
  · intro i link hi
    refine ⟨?_, message_diagnostic link, ?_⟩
    · rw [code_diagnostic]
      split
      · rename_i hlt
        exact hcode i link hi hlt
      · -- no link comes behind the last one
        have hlt := (List.getElem?_eq_some_iff.mp hi).1
        obtain rfl : i = n := by
          rw [List.length_cons] at hlt
          omega
        rw [Option.some.inj (hi.symm.trans hleaf)]
    · rw [summary_eq, hv.next_eq hi, headline]
  · rw [summary_eq_of_visits hv, hlen]

def nestedFailure : TypeError :=
  coercionFailed .left .text .float
    (coercionFailed .right .integer .float (incomparableTypes .date .float))

theorem causes_agree_nestedFailure :
    nestedFailure.Nests 2 (incomparableTypes .date .float) ∧
    (∃ causes : List TypeError, causes.length = 2 ∧ Visits cause? nestedFailure causes ∧
      Visits Diagnostic.cause nestedFailure.diagnostic (causes.map diagnostic)) ∧
    nestedFailure.summary =
      "TYPE_002: failed to coerce left operand from Text to Float " ++
        "(cause: TYPE_002: failed to coerce right operand from Integer to Float " ++
        "(cause: TYPE_001: cannot compare Date with Float))" := by
  have h : nestedFailure.Nests 2 (incomparableTypes .date .float) := .layer (.layer (.leaf nofun))
  obtain ⟨causes, hlen, -, hv, hd, -, -⟩ := causes_agree h
  exact ⟨h, ⟨causes, hlen, hv, hd⟩, by decide +kernel⟩

end TypeError

end Datum
