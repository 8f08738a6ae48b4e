import Datum.Comparison
import Datum.Proofs.Coercion.Aggregate

/-!
# The smaller and the larger value as bounds

The smaller and the larger of two values are in the common kind, and a caller who compares them
with the operands starts from the kinds that these had.  This second coercion has to agree with the
first one.  `Value.ActsAs v u kind` says that it does: beside any value of the kind, `v` is compared
as `u` would be.  Each operand acts as what coercion made of it (`Value.actsAs_of_coerce`), since an
operand that is cast on one side of a value is cast on both (`resolve_left_of_right`).  So the
bounds hold because they hold in the common kind (`Extremum.choose_le`).
-/

namespace Datum

/-- The operand that is cast when it stands on the right is cast on the left, too. -/
theorem resolve_left_of_right {k l : Kind} (hne : k ≠ l) (h : resolve k l = .ok (.right k)) :
    resolve l k = .ok (.left k) := by
  unfold resolve at h ⊢
  rw [if_neg hne] at h
  rw [if_neg hne.symm]
  dsimp only at h ⊢
  split at h
  · cases h
  · rename_i hreach
    split at h
    · cases h
    · rename_i hgt
      -- The cast to the left is the cheaper one, so it is chosen on this side without a tie.
      have hgt := Nat.compare_eq_gt.mp (Classical.not_not.mp hgt)
      have hlt : (castCost l k).compare (castCost k l) = .lt := Nat.compare_eq_lt.mpr hgt
      rw [if_neg fun h => hreach h.symm, if_pos (by rw [hlt]; nofun)]

namespace Value

/-- Beside every value of the kind, `v` is compared as `u` is, which is a value of the kind. -/
structure ActsAs (v u : Value) (kind : Kind) : Prop where
  isPayload : u.IsPayload kind
  compare_eq : ∀ m : Value, m.IsPayload kind → v.compare m = .ok (u.order? m)

variable {a b u v m : Value} {kind : Kind}

theorem actsAs_self (h : v.IsPayload kind) : v.ActsAs v kind :=
  ⟨h, fun _ hm => compare_of_coerce h.1 hm.1 (coerce_of_isPayload h hm)⟩

theorem actsAs_of_cast {target : Kind} (hv : v.isNull = false)
    (hr : resolve v.kind target = .ok (.left target))
    (hc : castOperand .left v target = .ok u) : v.ActsAs u target := by
  refine ⟨isPayload_castOperand hv hc, fun m hm => ?_⟩
  rw [← hm.2] at hr hc
  have hcoerce : v.coerce m = .ok (⟨u, true⟩, ⟨m, false⟩) := by
    rw [coerce_of_left hr, hc]
    rfl
  exact compare_of_coerce hv hm.1 hcoerce

/-- **Each operand acts as what coercion has made of it**, beside all values of the common kind. -/
theorem actsAs_of_coerce {l r : Coerced} (ha : a.isNull = false) (hb : b.isNull = false)
    (h : a.coerce b = .ok (l, r)) :
    ∃ c, resolve a.kind b.kind = .ok c ∧ a.ActsAs l.value c.target ∧ b.ActsAs r.value c.target := by
  rcases resolve_cases a.kind b.kind with ⟨hk, hr⟩ | ⟨-, hr⟩ | ⟨hk, hr⟩ | ⟨-, hr⟩
  · rw [coerce_of_same hr] at h
    cases h
    exact ⟨_, hr, actsAs_self ⟨ha, rfl⟩, actsAs_self ⟨hb, hk.symm⟩⟩
  · rw [coerce_of_left hr] at h
    cases hc : castOperand .left a b.kind with
    | error e => rw [hc] at h; cases h
    | ok w =>
      rw [hc] at h
      cases h
      exact ⟨_, hr, actsAs_of_cast ha hr hc, actsAs_self ⟨hb, rfl⟩⟩
  · rw [coerce_of_right hr] at h
    cases hc : castOperand .right b a.kind with
    | error e => rw [hc] at h; cases h
    | ok w =>
      rw [hc] at h
      cases h
      have hleft : castOperand .left b a.kind = .ok w := by
        rw [castOperand_left, hc]
        rfl
      exact ⟨_, hr, actsAs_self ⟨ha, rfl⟩, actsAs_of_cast hb (resolve_left_of_right hk hr) hleft⟩
  · rw [coerce_of_error hr] at h
    cases h

theorem ActsAs.compare_right (h : v.ActsAs u kind) (hm : m.IsPayload kind) :
    m.compare v = .ok (m.order? u) := by
  rw [compare_mirror v m, h.compare_eq m hm, ← order?_swap u m]
  rfl

/-! ### Bounds in the common kind -/

theorem holds_lessThanEqual_cmp {p q : Place} (h : p ≤ q) :
    Comparison.lessThanEqual.holds (cmp p q) = true := by
  have hne : cmp p q ≠ .gt := fun hgt => absurd ((cmp_eq_gt_iff _ _).mp hgt) (not_lt.mpr h)
  cases hc : cmp p q with
  | gt => exact absurd hc hne
  | lt | eq => rfl

theorem ActsAs.evaluate_right (h : v.ActsAs u kind) (hm : m.IsPayload kind)
    (hle : m.place ≤ u.place) : Comparison.lessThanEqual.evaluate m v = .ok (some true) := by
  rw [Comparison.evaluate, h.compare_right hm, order?_eq_cmp hm h.isPayload, ok_bind,
    Option.map_some, holds_lessThanEqual_cmp hle]
  rfl

theorem ActsAs.evaluate_left (h : v.ActsAs u kind) (hm : m.IsPayload kind)
    (hle : u.place ≤ m.place) : Comparison.lessThanEqual.evaluate v m = .ok (some true) := by
  rw [Comparison.evaluate, h.compare_eq m hm, order?_eq_cmp h.isPayload hm, ok_bind,
    Option.map_some, holds_lessThanEqual_cmp hle]
  rfl

/-- A value that the resolver finds between two others. -/
def Between (low high v : Value) : Prop :=
  Comparison.lessThanEqual.evaluate low v = .ok (some true) ∧
    Comparison.lessThanEqual.evaluate v high = .ok (some true)

theorem ActsAs.between {low high : Value} (h : v.ActsAs u kind) (hlow : low.IsPayload kind)
    (hhigh : high.IsPayload kind) (hle : low.place ≤ u.place ∧ u.place ≤ high.place) :
    Between low high v :=
  ⟨h.evaluate_right hlow hle.1, h.evaluate_left hhigh hle.2⟩

end Value

namespace Extremum

variable (x : Extremum) {v w : Value} {kind : Kind}

theorem isPayload_choose (hv : v.IsPayload kind) (hw : w.IsPayload kind) :
    (x.choose v w).IsPayload kind := by
  unfold choose
  split
  · exact hw
  · exact hv

theorem choose_le (hv : v.IsPayload kind) (hw : w.IsPayload kind) :
    x.Le (x.choose v w).place v.place ∧ x.Le (x.choose v w).place w.place := by
  have hrefl : ∀ p, x.Le p p := fun p => (x.le_or_le p p).elim id id
  have hiff := x.order?_ne_yields_iff hv hw
  unfold choose
  split
  · rename_i ho
    have hnle : ¬ x.Le v.place w.place := fun hle => hiff.mpr hle ho
    exact ⟨(x.le_or_le _ _).resolve_left hnle, hrefl _⟩
  · rename_i ho
    exact ⟨hrefl _, hiff.mp ho⟩

/-- Of two equal values both choices are the left one, and of two others each is chosen once. -/
theorem choose_both (hv : v.IsPayload kind) (hw : w.IsPayload kind) :
    (v.order? w = some .eq → least.choose v w = v ∧ greatest.choose v w = v) ∧
    (v.order? w ≠ some .eq →
      least.choose v w = v ∧ greatest.choose v w = w ∨
        least.choose v w = w ∧ greatest.choose v w = v) := by
  rw [choose, choose, Value.order?_eq_cmp hv hw]
  cases cmp v.place w.place with
  | lt =>
    refine ⟨fun heq => ?_, fun _ => .inl ⟨rfl, rfl⟩⟩
    cases heq
  | eq => exact ⟨fun _ => ⟨rfl, rfl⟩, fun hne => absurd rfl hne⟩
  | gt =>
    refine ⟨fun heq => ?_, fun _ => .inr ⟨rfl, rfl⟩⟩
    cases heq

end Extremum

namespace Value

/-- **The smaller and the larger of two values are bounds of the operands.**  Where two values can
be compared, both exist and are in the common kind, and comparing them with the operands as these
were finds the operands between them.  For operands that compare as equal both are what the left one
has become, and otherwise one is what the left one has become and the other what the right one
has. -/
theorem extremes_bound_operands {o : Option Ordering} (ha : a.isNull = false)
    (hb : b.isNull = false) (h : a.compare b = .ok o) :
    ∃ (c : Coercion) (l r : Coerced) (low high : Value),
      resolve a.kind b.kind = .ok c ∧ a.coerce b = .ok (l, r) ∧
      a.min b = .ok low ∧ a.max b = .ok high ∧ low.kind = c.target ∧ high.kind = c.target ∧
      Between low high a ∧ Between low high b ∧
      (o = some .eq → low = l.value ∧ high = l.value) ∧
      (o ≠ some .eq → low = l.value ∧ high = r.value ∨ low = r.value ∧ high = l.value) := by
  cases hlr : a.coerce b with
  | error e =>
    rw [compare_of_coerce_error ha hb hlr] at h
    cases h
  | ok lr =>
    obtain ⟨l, r⟩ := lr
    obtain ⟨c, hc, hal, hbr⟩ := actsAs_of_coerce ha hb hlr
    have hl := hal.isPayload
    have hr := hbr.isPayload
    obtain ⟨hlowl, hlowr⟩ := Extremum.least.choose_le hl hr
    obtain ⟨hhighl, hhighr⟩ := Extremum.greatest.choose_le hl hr
    have hlow := Extremum.least.isPayload_choose hl hr
    have hhigh := Extremum.greatest.isPayload_choose hl hr
    rw [compare_of_coerce ha hb hlr] at h
    obtain rfl := Except.ok.inj h
    exact ⟨c, l, r, _, _, hc, rfl, Extremum.least.ofValues_of_coerce ha hb hlr,
      Extremum.greatest.ofValues_of_coerce ha hb hlr, hlow.2, hhigh.2,
      hal.between hlow hhigh ⟨hlowl, hhighl⟩, hbr.between hlow hhigh ⟨hlowr, hhighr⟩,
      Extremum.choose_both hl hr⟩

/-- A literal with blanks and zeros in front, and two strings of which each would be cast to the
kind of the other. -/
theorem extremes_bound_operands_at_edges :
    ((ofText " 007 ").isNull = false ∧ (integer 7).isNull = false ∧
      (ofText " 007 ").compare (integer 7) = .ok (some .eq) ∧
      ∃ low high, (ofText " 007 ").min (integer 7) = .ok low ∧
        (ofText " 007 ").max (integer 7) = .ok high ∧
        Between low high (ofText " 007 ") ∧ Between low high (integer 7)) ∧
    ((charString [0xff]).isNull = false ∧ (text [0xfe]).isNull = false ∧
      (charString [0xff]).compare (text [0xfe]) = .ok (some .gt) ∧
      ∃ low high, (charString [0xff]).min (text [0xfe]) = .ok low ∧
        (charString [0xff]).max (text [0xfe]) = .ok high ∧
        Between low high (charString [0xff]) ∧ Between low high (text [0xfe])) := by
  have hliteral : (ofText " 007 ").compare (integer 7) = .ok (some .eq) := by decide +kernel
  have hstrings : (charString [0xff]).compare (text [0xfe]) = .ok (some .gt) := by decide
  constructor
  · obtain ⟨-, -, -, low, high, -, -, hmin, hmax, -, -, ha, hb, -⟩ :=
      extremes_bound_operands rfl rfl hliteral
    exact ⟨rfl, rfl, hliteral, low, high, hmin, hmax, ha, hb⟩
  · obtain ⟨-, -, -, low, high, -, -, hmin, hmax, -, -, ha, hb, -⟩ :=
      extremes_bound_operands rfl rfl hstrings
    exact ⟨rfl, rfl, hstrings, low, high, hmin, hmax, ha, hb⟩

end Value

end Datum
