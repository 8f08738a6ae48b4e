import Datum.Proofs.Coercion.CommonKind

/-!
# The smallest and the largest value of a column

A column of a kind holds values of the kind and nulls, which may be of any kind (`Value.Fits`).
Folding a choice over it from the left never fails.  `Extremum.Keeps v w` says that `v` is chosen
when it stands left of `w`; this is a total preorder on a column, with the nulls before everything
else.

`Extremum.IsChoice` describes the value that is chosen from a whole list: it is kept before all that
come after it, and nothing that comes earlier is kept before it.  One step of the fold preserves
this (`Extremum.IsChoice.concat`), and so the fold ends with such a value
(`Extremum.foldlM_isChoice`).
-/

namespace Datum

namespace Value

/-- A null of any kind or a value of the kind. -/
def Fits (v : Value) (kind : Kind) : Prop :=
  v.isNull = true ∨ v.IsPayload kind

theorem Fits.isPayload {v : Value} {kind : Kind} (h : v.Fits kind) (hn : v.isNull = false) :
    v.IsPayload kind := by
  rcases h with h | h
  · rw [hn] at h
    cases h
  · exact h

end Value

namespace Extremum

variable (x : Extremum) {kind : Kind} {u v w : Value}

/-! ### The left one of two values -/

/-- The first place is at least as good as the second. -/
def Le (p q : Place) : Prop :=
  match x with
  | least => p ≤ q
  | greatest => q ≤ p

variable {x} in
theorem Le.trans {p q r : Place} (h : x.Le p q) (h' : x.Le q r) : x.Le p r := by
  cases x with
  | least => exact le_trans h h'
  | greatest => exact le_trans h' h

variable {x} in
theorem Le.antisymm {p q : Place} (h : x.Le p q) (h' : x.Le q p) : p = q := by
  cases x with
  | least => exact le_antisymm h h'
  | greatest => exact le_antisymm h' h

theorem le_or_le (p q : Place) : x.Le p q ∨ x.Le q p := by
  cases x with
  | least => exact le_total p q
  | greatest => exact le_total q p

theorem order?_ne_yields_iff (hv : v.IsPayload kind) (hw : w.IsPayload kind) :
    v.order? w ≠ some x.yields ↔ x.Le v.place w.place := by
  rw [Value.order?_eq_cmp hv hw, ne_eq, Option.some_inj]
  cases x with
  | least => exact (not_congr (cmp_eq_gt_iff _ _)).trans not_lt
  | greatest => exact (not_congr (cmp_eq_lt_iff _ _)).trans not_lt

/-- The value is chosen when it stands left of the other. -/
def Keeps (v w : Value) : Prop :=
  v.isNull = true ∨ (w.isNull = false ∧ v.order? w ≠ some x.yields)

instance (v w : Value) : Decidable (x.Keeps v w) :=
  inferInstanceAs (Decidable (_ ∨ _))

def pick (v w : Value) : Value :=
  if x.Keeps v w then v else w

theorem keeps_iff_of_isPayload (hv : v.IsPayload kind) (hw : w.IsPayload kind) :
    x.Keeps v w ↔ x.Le v.place w.place := by
  rw [← x.order?_ne_yields_iff hv hw, Keeps, hv.1, hw.1]
  simp

theorem keeps_cases (hv : v.Fits kind) (hw : w.Fits kind) :
    x.Keeps v w ↔ v.isNull = true ∨
      (v.IsPayload kind ∧ w.IsPayload kind ∧ x.Le v.place w.place) := by
  rcases hv with hv | hv
  · exact iff_of_true (.inl hv) (.inl hv)
  · rcases hw with hw | hw
    · simp [Keeps, Value.IsPayload, hv.1, hw]
    · rw [x.keeps_iff_of_isPayload hv hw, hv.1]
      simp [hv, hw]

theorem keeps_or_keeps (hv : v.Fits kind) (hw : w.Fits kind) : x.Keeps v w ∨ x.Keeps w v := by
  rw [x.keeps_cases hv hw, x.keeps_cases hw hv]
  rcases hv with hv | hv
  · exact .inl (.inl hv)
  · rcases hw with hw | hw
    · exact .inr (.inl hw)
    · exact (x.le_or_le v.place w.place).imp (fun h => .inr ⟨hv, hw, h⟩) fun h => .inr ⟨hw, hv, h⟩

theorem keeps_trans (hu : u.Fits kind) (hv : v.Fits kind) (hw : w.Fits kind) (h : x.Keeps u v)
    (h' : x.Keeps v w) : x.Keeps u w := by
  rw [x.keeps_cases hu hv] at h
  rw [x.keeps_cases hv hw] at h'
  rw [x.keeps_cases hu hw]
  rcases h with h | ⟨hup, hvp, hle⟩
  · exact .inl h
  · rcases h' with h' | ⟨-, hwp, hle'⟩
    · rw [hvp.1] at h'
      cases h'
    · exact .inr ⟨hup, hwp, hle.trans hle'⟩

theorem ofValues_of_fits (hv : v.Fits kind) (hw : w.Fits kind) :
    x.ofValues v w = .ok (x.pick v w) := by
  rcases hv with hv | hv
  · rw [x.ofValues_of_isNull (.inl hv), Behavior.nullOperand, pick, if_pos hv, if_pos (.inl hv)]
  · rcases hw with hw | hw
    · have hk : ¬ x.Keeps v w := by simp [Keeps, hv.1, hw]
      rw [x.ofValues_of_isNull (.inr hw), Behavior.nullOperand, pick, hv.1, if_neg hk]
      rfl
    · rw [x.ofValues_of_coerce hv.1 hw.1 (Value.coerce_of_isPayload hv hw), choose, pick]
      by_cases ho : v.order? w = some x.yields
      · have hk : ¬ x.Keeps v w := by simp [Keeps, hv.1, ho]
        rw [if_pos ho, if_neg hk]
      · rw [if_neg ho, if_pos (.inr ⟨hw.1, ho⟩)]

theorem pick_fits (hv : v.Fits kind) (hw : w.Fits kind) : (x.pick v w).Fits kind := by
  unfold pick
  split
  · exact hv
  · exact hw

theorem pick_assoc (hu : u.Fits kind) (hv : v.Fits kind) (hw : w.Fits kind) :
    x.pick (x.pick u v) w = x.pick u (x.pick v w) := by
  by_cases huv : x.Keeps u v
  · by_cases hvw : x.Keeps v w
    · have huw := x.keeps_trans hu hv hw huv hvw
      simp only [pick, huv, hvw, huw, if_true]
    · simp only [pick, huv, hvw, if_true, if_false]
  · by_cases hvw : x.Keeps v w
    · simp only [pick, huv, hvw, if_true, if_false]
    · have huw : ¬ x.Keeps u w := by
        intro huw
        have hwv := (x.keeps_or_keeps hv hw).resolve_left hvw
        exact huv (x.keeps_trans hu hw hv huw hwv)
      simp only [pick, huv, hvw, huw, if_false]

theorem equals_of_keeps (hv : v.IsPayload kind) (hw : w.IsPayload kind) (h : x.Keeps v w)
    (h' : x.Keeps w v) : v.equals w = true := by
  rw [x.keeps_iff_of_isPayload hv hw] at h
  rw [x.keeps_iff_of_isPayload hw hv] at h'
  rw [Value.equals_iff_order? hv hw, Value.order?_eq_cmp hv hw, h.antisymm h', cmp_self_eq_eq]

/-! ### The choice from a list -/

/-- The value is in the list, is kept before all that come after it, and nothing that comes earlier
is kept before it. -/
def IsChoice (values : List Value) (m : Value) : Prop :=
  ∃ before after, values = before ++ m :: after ∧ (∀ v ∈ before, ¬ x.Keeps v m) ∧
    ∀ v ∈ after, x.Keeps m v

variable {x} {values : List Value} {m : Value}

theorem IsChoice.mem (h : x.IsChoice values m) : m ∈ values := by
  obtain ⟨before, after, rfl, -, -⟩ := h
  simp

/-- One step of the fold: choosing between the choice from a list and one more value. -/
theorem IsChoice.concat (h : x.IsChoice values m) (hf : ∀ v ∈ values, v.Fits kind)
    (hw : w.Fits kind) : x.IsChoice (values ++ [w]) (x.pick m w) := by
  obtain ⟨before, after, rfl, hbefore, hafter⟩ := h
  have hm : m.Fits kind := hf m (by simp)
  unfold pick
  by_cases hk : x.Keeps m w
  · refine ⟨before, after ++ [w], by simp [hk], ?_, ?_⟩
    · rw [if_pos hk]
      exact hbefore
    · intro v hv
      rw [if_pos hk]
      rcases List.mem_append.mp hv with hv | hv
      · exact hafter v hv
      · exact List.mem_singleton.mp hv ▸ hk
  · refine ⟨before ++ m :: after, [], by simp [hk], ?_, nofun⟩
    rw [if_neg hk]
    -- A value that is kept before `w` would be kept before `m`, which `w` goes before, or it comes
    -- after `m`, and then `m` would be kept before `w`.
    intro v hv hvw
    have hvf := hf v hv
    rcases List.mem_append.mp hv with hv | hv
    · have hwm := (x.keeps_or_keeps hm hw).resolve_left hk
      exact hbefore v hv (x.keeps_trans hvf hw hm hvw hwm)
    · rcases List.mem_cons.mp hv with rfl | hv
      · exact hk hvw
      · exact hk (x.keeps_trans hm hvf hw (hafter v hv) hvw)

/-- **The fold from the left ends with the choice from the whole list**, and does not fail. -/
theorem foldlM_isChoice {seen : List Value} (h : x.IsChoice seen m) {rest : List Value}
    (hf : ∀ v ∈ seen ++ rest, v.Fits kind) :
    ∃ m', rest.foldlM x.ofValues m = .ok m' ∧ x.IsChoice (seen ++ rest) m' := by
  -- On what is left of the list, for any part of it that the fold has seen.
  induction rest generalizing seen m with
  | nil => exact ⟨m, rfl, by rwa [List.append_nil]⟩
  | cons w rest ih =>
    have hseen : ∀ v ∈ seen, v.Fits kind := fun v hv => hf v (List.mem_append_left _ hv)
    have hw : w.Fits kind := hf w (by simp)
    have hm : m.Fits kind := hseen m h.mem
    have hstep := h.concat hseen hw
    obtain ⟨m', hfold, hchoice⟩ := ih hstep (by simpa using hf)
    refine ⟨m', ?_, by simpa using hchoice⟩
    rw [List.foldlM_cons, x.ofValues_of_fits hm hw]
    exact hfold

theorem IsChoice.keeps (h : x.IsChoice values m) (hf : ∀ v ∈ values, v.Fits kind)
    (hw : w ∈ values) : x.Keeps m w := by
  have hm := hf m h.mem
  obtain ⟨before, after, rfl, hbefore, hafter⟩ := h
  rcases List.mem_append.mp hw with hb | ha
  · exact (x.keeps_or_keeps (hf w hw) hm).resolve_left (hbefore w hb)
  · rcases List.mem_cons.mp ha with rfl | ha
    · exact (x.keeps_or_keeps hm hm).elim id id
    · exact hafter w ha

theorem IsChoice.forall_isNull_eq_false (h : x.IsChoice values m)
    (hf : ∀ v ∈ values, v.Fits kind) (hn : m.isNull = false) :
    ∀ v ∈ values, v.isNull = false := by
  intro v hv
  rcases h.keeps hf hv with h | ⟨h, -⟩
  · rw [hn] at h
    cases h
  · exact h

theorem IsChoice.find?_isNull (h : x.IsChoice values m) (hn : m.isNull = true) :
    values.find? Value.isNull = some m := by
  obtain ⟨before, after, rfl, hbefore, -⟩ := h
  refine List.find?_eq_some_iff_append.mpr ⟨hn, before, after, rfl, fun v hv => ?_⟩
  cases hvn : v.isNull with
  | true => exact absurd (.inl hvn) (hbefore v hv)
  | false => rfl

/-- The value compares with none of the list in the order in which it would give way. -/
def isBest (x : Extremum) (values : List Value) (v : Value) : Bool :=
  values.all fun w => decide (v.compare w ≠ .ok (some x.yields))

theorem compare_ne_yields_iff (hv : v.IsPayload kind) (hw : w.IsPayload kind) :
    v.compare w ≠ .ok (some x.yields) ↔ x.Keeps v w := by
  rw [Value.compare_of_coerce hv.1 hw.1 (Value.coerce_of_isPayload hv hw), Keeps, hv.1, hw.1]
  simp

theorem IsChoice.find?_isBest (h : x.IsChoice values m) (hf : ∀ v ∈ values, v.Fits kind)
    (hn : m.isNull = false) : values.find? (x.isBest values) = some m := by
  have hpayload : ∀ v ∈ values, v.IsPayload kind := fun v hv =>
    (hf v hv).isPayload (h.forall_isNull_eq_false hf hn v hv)
  have hm := hpayload m h.mem
  have hbest : x.isBest values m = true := by
    refine List.all_eq_true.mpr fun w hw => decide_eq_true ?_
    exact (compare_ne_yields_iff hm (hpayload w hw)).mpr (h.keeps hf hw)
  have hmem := h.mem
  obtain ⟨before, after, hsplit, hbefore, -⟩ := h
  refine List.find?_eq_some_iff_append.mpr ⟨hbest, before, after, hsplit, fun v hv => ?_⟩
  have hv' := hpayload v (by rw [hsplit]; exact List.mem_append_left _ hv)
  cases hb : x.isBest values v with
  | false => rfl
  | true =>
    have hc := of_decide_eq_true (List.all_eq_true.mp hb m hmem)
    exact absurd ((compare_ne_yields_iff hv' hm).mp hc) (hbefore v hv)

/-- **The smallest and the largest value of a column are well defined.**  Folding a choice from the
left yields the first null if there is one, and otherwise the first value that would give way to
none.  Choosing is associative, and without nulls the values that two arrangements of one column
yield are equal. -/
theorem fold_of_column (x : Extremum) {kind : Kind} {first : Value} {rest : List Value}
    (h : ∀ v ∈ first :: rest, v.Fits kind) :
    (∃ m, rest.foldlM x.ofValues first = .ok m ∧
      ((first :: rest).find? Value.isNull).or ((first :: rest).find? fun v =>
        (first :: rest).all fun w => decide (v.compare w ≠ .ok (some x.yields))) = some m) ∧
    (∀ a b c : Value, a.Fits kind → b.Fits kind → c.Fits kind →
      ∃ m, (do x.ofValues (← x.ofValues a b) c) = .ok m ∧
        (do x.ofValues a (← x.ofValues b c)) = .ok m) ∧
    (∀ first' rest', (first :: rest).Perm (first' :: rest') →
      (∀ v ∈ first :: rest, v.isNull = false) →
        ∃ m m', rest.foldlM x.ofValues first = .ok m ∧ rest'.foldlM x.ofValues first' = .ok m' ∧
          m.equals m' = true) := by
  have run : ∀ first rest, (∀ v ∈ first :: rest, v.Fits kind) →
      ∃ m, rest.foldlM x.ofValues first = .ok m ∧ x.IsChoice (first :: rest) m := by
    intro first rest h
    have hone : x.IsChoice [first] first := ⟨[], [], rfl, nofun, nofun⟩
    exact foldlM_isChoice hone h
  refine ⟨?_, ?_, ?_⟩
  · obtain ⟨m, hfold, hchoice⟩ := run first rest h
    refine ⟨m, hfold, ?_⟩
    cases hn : m.isNull with
    | true => rw [hchoice.find?_isNull hn, Option.some_or]
    | false =>
      have hnone : (first :: rest).find? Value.isNull = none :=
        List.find?_eq_none.mpr fun v hv => by
          simp [hchoice.forall_isNull_eq_false h hn v hv]
      rw [hnone, Option.none_or]
      exact hchoice.find?_isBest h hn
  · intro a b c ha hb hc
    refine ⟨x.pick (x.pick a b) c, ?_, ?_⟩
    · rw [x.ofValues_of_fits ha hb]
      exact x.ofValues_of_fits (x.pick_fits ha hb) hc
    · rw [x.ofValues_of_fits hb hc, x.pick_assoc ha hb hc]
      exact x.ofValues_of_fits ha (x.pick_fits hb hc)
  · intro first' rest' hperm hnull
    have h' : ∀ v ∈ first' :: rest', v.Fits kind := fun v hv => h v (hperm.mem_iff.mpr hv)
    obtain ⟨m, hfold, hchoice⟩ := run first rest h
    obtain ⟨m', hfold', hchoice'⟩ := run first' rest' h'
    have hmem : m ∈ first' :: rest' := hperm.mem_iff.mp hchoice.mem
    have hmem' : m' ∈ first :: rest := hperm.mem_iff.mpr hchoice'.mem
    have hm := (h m hchoice.mem).isPayload (hnull m hchoice.mem)
    have hm' := (h m' hmem').isPayload (hnull m' hmem')
    exact ⟨m, m', hfold, hfold', x.equals_of_keeps hm hm' (hchoice.keeps h hmem')
      (hchoice'.keeps h' hmem)⟩

/-- The first of two NaNs is the largest float, the first null of any kind hides all values, and two
arrangements of the zeros yield zeros. -/
theorem fold_of_column_at_edges :
    ((∀ v ∈ [Value.float ⟨0x80000000⟩, .float ⟨0x7fc00000⟩, .float ⟨0xffc00001⟩], v.Fits .float) ∧
      [Value.float ⟨0x7fc00000⟩, .float ⟨0xffc00001⟩].foldlM Value.max (.float ⟨0x80000000⟩) =
        .ok (.float ⟨0x7fc00000⟩)) ∧
    ((∀ v ∈ [Value.float ⟨0⟩, .null .text, .null .float], v.Fits .float) ∧
      [Value.null .text, .null .float].foldlM Value.min (.float ⟨0⟩) = .ok (.null .text)) ∧
    ((∀ v ∈ [Value.float ⟨0x80000000⟩, .float ⟨0⟩], v.Fits .float) ∧
      ∃ m m', [Value.float ⟨0⟩].foldlM Value.min (.float ⟨0x80000000⟩) = .ok m ∧
        [Value.float ⟨0x80000000⟩].foldlM Value.min (.float ⟨0⟩) = .ok m' ∧
        m.equals m' = true) := by
  have hfloat : ∀ y, (Value.float y).Fits .float := fun y => .inr ⟨rfl, rfl⟩
  have hnull : ∀ k, (Value.null k).Fits .float := fun k => .inl rfl
  have h₁ : ∀ v ∈ [Value.float ⟨0x80000000⟩, .float ⟨0x7fc00000⟩, .float ⟨0xffc00001⟩],
      v.Fits .float := by simp [hfloat]
  have h₂ : ∀ v ∈ [Value.float ⟨0⟩, .null .text, .null .float], v.Fits .float := by
    simp [hfloat, hnull]
  have h₃ : ∀ v ∈ [Value.float ⟨0x80000000⟩, .float ⟨0⟩], v.Fits .float := by simp [hfloat]
  obtain ⟨m₁, hfold₁, hfind₁⟩ := (fold_of_column .greatest h₁).1
  obtain ⟨m₂, hfold₂, hfind₂⟩ := (fold_of_column .least h₂).1
  have hm₁ : m₁ = .float ⟨0x7fc00000⟩ := Option.some.inj (hfind₁.symm.trans (by decide))
  have hm₂ : m₂ = .null .text := Option.some.inj (hfind₂.symm.trans (by decide))
  refine ⟨⟨h₁, hm₁ ▸ hfold₁⟩, ⟨h₂, hm₂ ▸ hfold₂⟩, h₃, ?_⟩
  exact (fold_of_column .least h₃).2.2 _ _ (List.Perm.swap ..) (by decide)

end Extremum

end Datum
