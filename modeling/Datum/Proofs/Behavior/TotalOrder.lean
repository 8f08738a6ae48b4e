import Datum.Proofs.Behavior.Payload
import Datum.Proofs.Single.Number
import Datum.Value.Equality
import Mathlib.Data.List.Lex
import Mathlib.Data.Sum.Order

/-!
# The order of the values of one kind

Each value that is not null has a place in one linear order (`Value.place`): numbers, truth values
and dates stand at a number, strings at their bytes.  Comparing two values of one kind compares
their places (`Value.order?_eq_cmp`), and the values with one place are those that are structurally
equal (`Value.equals_iff_order?`).  So what is known of linear orders holds of every kind, floats
with their zeros and NaNs included.

`compareBytes_eq_lt_iff` spells out what it means for one string to come before another.
-/

namespace Datum

/-! ### Strings of bytes -/

/-- `bs` comes before `cs`: it is a proper beginning of `cs`, or it has the smaller byte where the
two differ first. -/
def BytesBefore (bs cs : List UInt8) : Prop :=
  (∃ c rest, cs = bs ++ c :: rest) ∨
    ∃ shared b c bs' cs', bs = shared ++ b :: bs' ∧ cs = shared ++ c :: cs' ∧ b.toNat < c.toNat

theorem BytesBefore.cons {b : UInt8} {bs cs : List UInt8} (h : BytesBefore bs cs) :
    BytesBefore (b :: bs) (b :: cs) := by
  rcases h with ⟨c, rest, rfl⟩ | ⟨shared, x, y, bs', cs', rfl, rfl, hlt⟩
  · exact .inl ⟨c, rest, rfl⟩
  · exact .inr ⟨b :: shared, x, y, bs', cs', rfl, rfl, hlt⟩

theorem not_bytesBefore_nil (bs : List UInt8) : ¬ BytesBefore bs [] := by
  rintro (⟨c, rest, h⟩ | ⟨shared, b, c, bs', cs', -, h, -⟩)
  · simp at h
  · simp at h

theorem bytesBefore_cons_cons_iff {b c : UInt8} {bs cs : List UInt8} :
    BytesBefore (b :: bs) (c :: cs) ↔ b.toNat < c.toNat ∨ b = c ∧ BytesBefore bs cs := by
  constructor
  · rintro (⟨x, rest, h⟩ | ⟨shared, x, y, bs', cs', hb, hc, hlt⟩)
    · obtain ⟨rfl, rfl⟩ := List.cons.inj h
      exact .inr ⟨rfl, .inl ⟨x, rest, rfl⟩⟩
    · cases shared with
      | nil =>
        obtain ⟨rfl, -⟩ := List.cons.inj hb
        obtain ⟨rfl, -⟩ := List.cons.inj hc
        exact .inl hlt
      | cons s shared =>
        obtain ⟨rfl, rfl⟩ := List.cons.inj hb
        obtain ⟨rfl, rfl⟩ := List.cons.inj hc
        exact .inr ⟨rfl, .inr ⟨shared, x, y, bs', cs', rfl, rfl, hlt⟩⟩
  · rintro (hlt | ⟨rfl, h⟩)
    · exact .inr ⟨[], b, c, bs, cs, rfl, rfl, hlt⟩
    · exact h.cons

theorem compareBytes_eq_lt_iff {bs cs : List UInt8} :
    compareBytes bs cs = .lt ↔ BytesBefore bs cs := by
  induction bs generalizing cs with
  | nil =>
    cases cs with
    | nil => simp [compareBytes, not_bytesBefore_nil]
    | cons c cs =>
      refine iff_of_true rfl ?_
      exact .inl ⟨c, cs, rfl⟩
  | cons b bs ih =>
    cases cs with
    | nil => simp [compareBytes, not_bytesBefore_nil]
    | cons c cs =>
      rw [bytesBefore_cons_cons_iff, compareBytes, ← ih, ← UInt8.toNat_inj]
      cases h : compare b.toNat c.toNat with
      | lt => simp [Nat.compare_eq_lt.mp h]
      | eq => simp [Nat.compare_eq_eq.mp h]
      | gt =>
        have hgt := Nat.compare_eq_gt.mp h
        simp
        omega

/-- Byte strings are compared as the lists of their numbers, lexicographically. -/
theorem compares_compareBytes (bs cs : List UInt8) :
    (compareBytes bs cs).Compares (bs.map UInt8.toNat) (cs.map UInt8.toNat) := by
  induction bs generalizing cs with
  | nil =>
    cases cs with
    | nil => exact rfl
    | cons c cs => exact List.nil_lt_cons ..
  | cons b bs ih =>
    cases cs with
    | nil => exact List.nil_lt_cons ..
    | cons c cs =>
      rw [compareBytes]
      cases h : compare b.toNat c.toNat with
      | lt => exact List.cons_lt_cons_iff.mpr (.inl (Nat.compare_eq_lt.mp h))
      | gt => exact List.cons_lt_cons_iff.mpr (.inl (Nat.compare_eq_gt.mp h))
      | eq =>
        have hcons : StrictMono (b.toNat :: ·) := fun _ _ hlt =>
          List.cons_lt_cons_iff.mpr (.inr ⟨rfl, hlt⟩)
        obtain rfl := UInt8.toNat_inj.mp (Nat.compare_eq_eq.mp h)
        exact hcons.compares.mpr (ih cs)

/-! ### Places -/

/-- The linear order in which all values have their place: the numbers, and behind them the
strings. -/
abbrev Place := Number ⊕ₗ List ℕ

theorem place_ofInt_lt (m n : ℤ) (h : m < n) :
    (Sum.inlₗ (Number.ofRat m) : Place) < Sum.inlₗ (Number.ofRat n) :=
  Sum.Lex.inl_lt_inl_iff.mpr (Number.ofRat_lt_ofRat.mpr (Int.cast_lt.mpr h))

theorem place_ofNat_lt (m n : ℕ) (h : m < n) :
    (Sum.inlₗ (Number.ofRat m) : Place) < Sum.inlₗ (Number.ofRat n) :=
  Sum.Lex.inl_lt_inl_iff.mpr (Number.ofRat_lt_ofRat.mpr (Nat.cast_lt.mpr h))

theorem compare_eq_cmp_place {α : Type} [LinearOrder α] {f : α → Place}
    (hf : ∀ a b, a < b → f a < f b) (a b : α) : compare a b = cmp (f a) (f b) := by
  have hmono : StrictMono f := fun _ _ => hf _ _
  have hc : (compare a b).Compares a b := (compare_iff a b).mp rfl
  exact (hmono.compares.mpr hc).cmp_eq.symm

namespace Value

/-- Where a value stands among those of its kind.  Nulls are not ordered and share one place. -/
def place : Value → Place
  | integer n => .inlₗ (.ofRat n.toInt)
  | float x => .inlₗ x.number
  | date d => .inlₗ (.ofRat d.packed)
  | boolean b => .inlₗ (.ofRat b.toNat)
  | charString bytes | text bytes => .inrₗ (bytes.map UInt8.toNat)
  | null _ => .inlₗ .negInfinity

theorem form_of_isPayload {v : Value} {kind : Kind} (h : v.IsPayload kind) :
    match kind with
    | .integer => ∃ n, v = integer n
    | .float => ∃ x, v = float x
    | .charString => ∃ bytes, v = charString bytes
    | .text => ∃ bytes, v = text bytes
    | .date => ∃ d, v = date d
    | .boolean => ∃ b, v = boolean b
    | .null => False := by
  obtain ⟨hn, rfl⟩ := h
  cases v with
  | null kind => cases hn
  | integer n => exact ⟨n, rfl⟩
  | float x => exact ⟨x, rfl⟩
  | charString bytes => exact ⟨bytes, rfl⟩
  | text bytes => exact ⟨bytes, rfl⟩
  | date d => exact ⟨d, rfl⟩
  | boolean b => exact ⟨b, rfl⟩

variable {kind : Kind} {v w : Value}

/-- **Two values of a kind are in the order of their places.** -/
theorem order?_eq_cmp (hv : v.IsPayload kind) (hw : w.IsPayload kind) :
    v.order? w = some (cmp v.place w.place) := by
  have hv := form_of_isPayload hv
  have hw := form_of_isPayload hw
  cases kind with
  | null => exact hv.elim
  | integer =>
    obtain ⟨m, rfl⟩ := hv
    obtain ⟨n, rfl⟩ := hw
    exact congrArg some (compare_eq_cmp_place place_ofInt_lt m.toInt n.toInt)
  | float =>
    obtain ⟨x, rfl⟩ := hv
    obtain ⟨y, rfl⟩ := hw
    have hc := Sum.Lex.inl_strictMono (β := List ℕ) |>.cmp_map_eq x.number y.number
    exact congrArg some ((x.compare_eq_cmp y).trans hc.symm)
  | charString | text =>
    obtain ⟨bs, rfl⟩ := hv
    obtain ⟨cs, rfl⟩ := hw
    have hc := Sum.Lex.inr_strictMono (α := Number) |>.compares.mpr (compares_compareBytes bs cs)
    exact congrArg some hc.cmp_eq.symm
  | date =>
    obtain ⟨d, rfl⟩ := hv
    obtain ⟨e, rfl⟩ := hw
    exact congrArg some (compare_eq_cmp_place place_ofNat_lt d.packed e.packed)
  | boolean =>
    obtain ⟨a, rfl⟩ := hv
    obtain ⟨b, rfl⟩ := hw
    exact congrArg some (compare_eq_cmp_place place_ofNat_lt a.toNat b.toNat)

theorem equals_iff_order? (hv : v.IsPayload kind) (hw : w.IsPayload kind) :
    v.equals w = true ↔ v.order? w = some .eq := by
  have hv := form_of_isPayload hv
  have hw := form_of_isPayload hw
  cases kind with
  | null => exact hv.elim
  | integer =>
    obtain ⟨m, rfl⟩ := hv
    obtain ⟨n, rfl⟩ := hw
    simp [equals, order?, Int32.toInt_inj]
  | float =>
    obtain ⟨x, rfl⟩ := hv
    obtain ⟨y, rfl⟩ := hw
    simp [equals, order?]
  | charString | text =>
    obtain ⟨bs, rfl⟩ := hv
    obtain ⟨cs, rfl⟩ := hw
    simp [equals, order?, compareBytes_eq_iff]
  | date =>
    obtain ⟨d, rfl⟩ := hv
    obtain ⟨e, rfl⟩ := hw
    rw [equals, order?, Date.compare, Option.some_inj, Nat.compare_eq_eq, decide_eq_true_iff]
    exact ⟨congrArg Date.packed, Date.packed_injective⟩
  | boolean =>
    obtain ⟨a, rfl⟩ := hv
    obtain ⟨b, rfl⟩ := hw
    cases a <;> cases b <;> simp [equals, order?]

theorem order?_of_bytes? {bs cs : List UInt8} (hk : v.kind = w.kind) (hv : v.bytes? = some bs)
    (hw : w.bytes? = some cs) : v.order? w = some (compareBytes bs cs) := by
  cases v with
  | charString bytes =>
    obtain rfl := Option.some.inj hv
    cases w with
    | charString bytes => exact congrArg (some <| compareBytes _ ·) (Option.some.inj hw)
    | text bytes => cases hk
    | _ => cases hw
  | text bytes =>
    obtain rfl := Option.some.inj hv
    cases w with
    | text bytes => exact congrArg (some <| compareBytes _ ·) (Option.some.inj hw)
    | charString bytes => cases hk
    | _ => cases hw
  | _ => cases hv

end Value

namespace Behavior

theorem compare_ne_gt_iff {kind : Kind} {v w : Value} (hv : v.IsPayload kind)
    (hw : w.IsPayload kind) : compare kind v w ≠ .ok (some .gt) ↔ v.place ≤ w.place := by
  rw [compare_of_isPayload hv hw, Value.order?_eq_cmp hv hw, ne_eq, Except.ok.injEq,
    Option.some_inj, cmp_eq_gt_iff, not_lt]

/-- **The values of a kind are totally ordered, and two of them compare as equal if and only if
they are structurally equal.**  Comparing never fails and never leaves the order open.  Strings
come in the order of their bytes. -/
theorem compare_total_order {kind : Kind} {a b c : Value} (ha : a.IsPayload kind)
    (hb : b.IsPayload kind) (hc : c.IsPayload kind) :
    (∃ o, compare kind a b = .ok (some o) ∧ compare kind b a = .ok (some o.swap) ∧
      (o = .eq ↔ a.equals b = true)) ∧
    (compare kind a b ≠ .ok (some .gt) → compare kind b c ≠ .ok (some .gt) →
      compare kind a c ≠ .ok (some .gt)) ∧
    (∀ bs cs, a.bytes? = some bs → b.bytes? = some cs →
      (compare kind a b = .ok (some .lt) ↔ BytesBefore bs cs)) := by
  have hab := Value.order?_eq_cmp ha hb
  refine ⟨⟨cmp a.place b.place, ?_, ?_, ?_⟩, ?_, ?_⟩
  · rw [compare_of_isPayload ha hb, hab]
  · rw [compare_of_isPayload hb ha, ← Value.order?_swap a b, hab]
    rfl
  · rw [Value.equals_iff_order? ha hb, hab, Option.some_inj]
  · rw [compare_ne_gt_iff ha hb, compare_ne_gt_iff hb hc, compare_ne_gt_iff ha hc]
    exact le_trans
  · intro bs cs hbs hcs
    rw [compare_of_isPayload ha hb, Value.order?_of_bytes? (ha.2.trans hb.2.symm) hbs hcs,
      Except.ok.injEq, Option.some_inj, compareBytes_eq_lt_iff]

/-- Zeros of both signs and a NaN with its sign set, and a text before its continuation by a zero
byte. -/
theorem compare_total_order_at_edges :
    ((Value.float ⟨0x80000000⟩).IsPayload .float ∧ (Value.float ⟨0⟩).IsPayload .float ∧
      (Value.float ⟨0xffc00001⟩).IsPayload .float ∧
      compare .float (.float ⟨0x80000000⟩) (.float ⟨0⟩) ≠ .ok (some .gt) ∧
      compare .float (.float ⟨0⟩) (.float ⟨0xffc00001⟩) ≠ .ok (some .gt) ∧
      compare .float (.float ⟨0x80000000⟩) (.float ⟨0xffc00001⟩) ≠ .ok (some .gt)) ∧
    ((Value.text [0xff]).IsPayload .text ∧ (Value.text [0xff, 0]).IsPayload .text ∧
      BytesBefore [0xff] [0xff, 0] ∧
      compare .text (.text [0xff]) (.text [0xff, 0]) = .ok (some .lt)) := by
  constructor
  · have ha : (Value.float ⟨0x80000000⟩).IsPayload .float := ⟨rfl, rfl⟩
    have hb : (Value.float ⟨0⟩).IsPayload .float := ⟨rfl, rfl⟩
    have hc : (Value.float ⟨0xffc00001⟩).IsPayload .float := ⟨rfl, rfl⟩
    have h₁ : compare .float (.float ⟨0x80000000⟩) (.float ⟨0⟩) ≠ .ok (some .gt) := by decide
    have h₂ : compare .float (.float ⟨0⟩) (.float ⟨0xffc00001⟩) ≠ .ok (some .gt) := by decide
    exact ⟨ha, hb, hc, h₁, h₂, (compare_total_order ha hb hc).2.1 h₁ h₂⟩
  · have ha : (Value.text [0xff]).IsPayload .text := ⟨rfl, rfl⟩
    have hb : (Value.text [0xff, 0]).IsPayload .text := ⟨rfl, rfl⟩
    have hbefore : BytesBefore [0xff] [0xff, 0] := .inl ⟨0, [], rfl⟩
    exact ⟨ha, hb, hbefore, ((compare_total_order ha hb hb).2.2 _ _ rfl rfl).mpr hbefore⟩

end Behavior

end Datum
