/-!
# Sequencing fallible steps

What a sequence of steps does after a step that succeeded and after one that failed, and what a
mapped step yields.  `Alike` compares the outcomes of two runs: both fail or both succeed, and their
failures and results are related.
-/

namespace Datum

variable {ε α β : Type}

@[simp] theorem ok_bind (a : α) (f : α → Except ε β) : (Except.ok a >>= f) = f a := rfl

@[simp] theorem error_bind (e : ε) (f : α → Except ε β) :
    ((Except.error e : Except ε α) >>= f) = .error e := rfl

theorem eq_error_of_map {x : Except ε α} {f : α → β} {e : ε} (h : x.map f = .error e) :
    x = .error e := by
  cases x with
  | error e' => exact congrArg Except.error (Except.error.inj h)
  | ok a => cases h

theorem map_mapError_eq_ok_iff {ε' : Type} {x : Except ε α} {f : ε → ε'} {g : α → β}
    (hg : ∀ a b, g a = g b → a = b) {a : α} : (x.mapError f).map g = .ok (g a) ↔ x = .ok a := by
  cases x with
  | error e => exact iff_of_false (by rintro ⟨⟩) (by rintro ⟨⟩)
  | ok b =>
    constructor
    · intro h
      rw [hg b a (Except.ok.inj h)]
    · rintro ⟨⟩
      rfl

theorem map_mapError_eq_error_iff {ε' : Type} {x : Except ε α} {f : ε → ε'} {g : α → β} {e' : ε'} :
    (x.mapError f).map g = .error e' ↔ ∃ e, x = .error e ∧ e' = f e := by
  cases x with
  | error e =>
    constructor
    · intro h
      exact ⟨e, rfl, (Except.error.inj h).symm⟩
    · rintro ⟨_, ⟨⟩, rfl⟩
      rfl
  | ok a => exact iff_of_false (by rintro ⟨⟩) (by rintro ⟨_, ⟨⟩, _⟩)

theorem eq_of_map_eq_ok {x : Except ε α} {f : α → β} {b : β} (h : x.map f = .ok b) :
    ∃ a, b = f a := by
  cases x with
  | error e => cases h
  | ok a => exact ⟨a, (Except.ok.inj h).symm⟩

theorem mapError_eq_ok_iff {ε' : Type} {x : Except ε α} {f : ε → ε'} {a : α} :
    x.mapError f = .ok a ↔ x = .ok a := by
  cases x with
  | error e => exact iff_of_false nofun nofun
  | ok b =>
    show (Except.ok b : Except ε' α) = .ok a ↔ _
    rw [Except.ok.injEq, Except.ok.injEq]

theorem toOption_eq_some_iff {x : Except ε α} {a : α} : x.toOption = some a ↔ x = .ok a := by
  cases x with
  | error e => exact iff_of_false nofun nofun
  | ok b =>
    show some b = some a ↔ _
    rw [Option.some_inj, Except.ok.injEq]

theorem map_eq_ok_iff {x : Except ε α} {f : α → β} {b : β} :
    x.map f = .ok b ↔ ∃ a, x = .ok a ∧ f a = b := by
  cases x with
  | error e => simp [Except.map]
  | ok a => simp [Except.map]

theorem bind_eq_ok_iff {x : Except ε α} {f : α → Except ε β} {b : β} :
    (x >>= f) = .ok b ↔ ∃ a, x = .ok a ∧ f a = .ok b := by
  cases x with
  | error e => simp
  | ok a => simp

theorem fails_iff {x : Except ε α} : (∃ e, x = .error e) ↔ ¬∃ a, x = .ok a := by
  cases x with
  | error e => simp
  | ok a => simp

/-- Two outcomes of one sort: related failures or related results. -/
inductive Alike (errors : ε → ε → Prop) (results : α → α → Prop) :
    Except ε α → Except ε α → Prop
  | ok {a b : α} (h : results a b) : Alike errors results (.ok a) (.ok b)
  | error {e f : ε} (h : errors e f) : Alike errors results (.error e) (.error f)

namespace Alike

variable {errors : ε → ε → Prop} {results : α → α → Prop} {x y : Except ε α}

theorem refl (he : ∀ e, errors e e) (hr : ∀ a, results a a) (x : Except ε α) :
    Alike errors results x x := by
  cases x with
  | error e => exact .error (he e)
  | ok a => exact .ok (hr a)

theorem mono {results' : α → α → Prop} (h : Alike errors results x y)
    (hr : ∀ a b, results a b → results' a b) : Alike errors results' x y := by
  cases h with
  | ok h => exact .ok (hr _ _ h)
  | error h => exact .error h

theorem map {results' : β → β → Prop} {f g : α → β} (h : Alike errors results x y)
    (hf : ∀ a b, results a b → results' (f a) (g b)) :
    Alike errors results' (x.map f) (y.map g) := by
  cases h with
  | ok h => exact .ok (hf _ _ h)
  | error h => exact .error h

theorem mapError {ε' : Type} {errors' : ε' → ε' → Prop} {f g : ε → ε'}
    (h : Alike errors results x y) (hf : ∀ e e', errors e e' → errors' (f e) (g e')) :
    Alike errors' results (x.mapError f) (y.mapError g) := by
  cases h with
  | ok h => exact .ok h
  | error h => exact .error (hf _ _ h)

theorem eq {x y : Except ε α} (h : Alike Eq Eq x y) : x = y := by
  cases h with
  | ok h => rw [h]
  | error h => rw [h]

end Alike

end Datum
