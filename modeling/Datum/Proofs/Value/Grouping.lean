import Datum.Value.Equality
import Mathlib.Data.List.Forall2

/-!
# Values as keys of a table

What a value feeds to a hasher determines it up to structural equality, and is the same for equal
values (`Value.equals_iff_hashFeed`).  So structural equality is an equivalence, and a table that
looks at both takes two values as one key exactly if they are equal.

Grouping a list puts the keys met so far in a table.  The table keeps its keys apart and only grows
(`Value.placeKey_spec`, `Value.groupFrom_spec`), and a number in it stands for all values that are
equal to one of its keys.  The numbers of two values therefore agree if and only if the values are
equal (`Value.labels_eq_iff`), in whichever order they came.
-/

namespace Datum

/-! ### Canonical bits of floats -/

namespace Single

theorem isNaN_canonicalBits (x : Single) : (Single.mk x.canonicalBits).isNaN = x.isNaN := by
  unfold canonicalBits
  cases hn : x.isNaN with
  | true => rfl
  | false =>
    rw [if_neg Bool.false_ne_true]
    split
    · rfl
    · exact hn

theorem rank_canonicalBits {x : Single} (h : x.isNaN = false) :
    (Single.mk x.canonicalBits).rank = x.rank := by
  rw [canonicalBits, h, if_neg Bool.false_ne_true]
  by_cases hz : x.magnitude = 0
  · rw [if_pos hz, rank, rank, hz]
    cases x.isNegative <;> rfl
  · rw [if_neg hz]

theorem zeros_or_eq_of_rank_eq {x y : Single} (h : x.rank = y.rank) :
    (x.magnitude = 0 ∧ y.magnitude = 0) ∨ x.bits = y.bits := by
  have hx := x.bits.toNat_lt
  have hy := y.bits.toNat_lt
  rw [← UInt32.toNat_inj]
  -- The sign and the magnitude can be read off a rank that is not zero.
  simp only [rank, isNegative, magnitude, decide_eq_true_iff] at h ⊢
  split at h <;> split at h <;> omega

/-- **Two floats have one canonical pattern if and only if they compare as equal.** -/
theorem canonicalBits_eq_iff (x y : Single) :
    x.canonicalBits = y.canonicalBits ↔ x.compare y = .eq := by
  constructor
  · intro h
    have hn : x.isNaN = y.isNaN := by rw [← isNaN_canonicalBits x, h, isNaN_canonicalBits]
    unfold compare
    rw [hn]
    cases hy : y.isNaN with
    | true => rfl
    | false =>
      have hr : x.rank = y.rank := by
        rw [← rank_canonicalBits (hn.trans hy), h, rank_canonicalBits hy]
      exact Int.compare_eq_eq.mpr hr
  · intro h
    unfold compare at h
    cases hx : x.isNaN <;> cases hy : y.isNaN <;> rw [hx, hy] at h
    · simp only [canonicalBits, hx, hy, Bool.false_eq_true, if_false]
      rcases zeros_or_eq_of_rank_eq (Int.compare_eq_eq.mp h) with ⟨hzx, hzy⟩ | hb
      · rw [hzx, hzy, if_pos rfl, if_pos rfl]
      · rw [magnitude, magnitude, hb]
    · cases h
    · cases h
    · simp only [canonicalBits, hx, hy, if_true]

end Single

/-! ### Equality and what is hashed -/

theorem Date.packed_toUInt32_injective {d e : Date} (h : d.packed.toUInt32 = e.packed.toUInt32) :
    d = e := by
  have hd := d.packed_lt
  have he := e.packed_lt
  apply Date.packed_injective
  simp only [Nat.toUInt32_eq, ← UInt32.toNat_inj, UInt32.toNat_ofNat'] at h
  omega

theorem Kind.index_toUInt8_injective {k l : Kind} (h : k.index.toUInt8 = l.index.toUInt8) :
    k = l := by
  revert h
  cases k <;> cases l <;> decide

namespace Value

/-- **Two values are equal if and only if they feed a hasher the same.** -/
theorem equals_iff_hashFeed (v w : Value) : v.equals w = true ↔ v.hashFeed = w.hashFeed := by
  -- Values of different forms differ in the first component, and are never equal.
  cases v with
  | null k =>
    cases w with
    | null l =>
      simp only [equals, hashFeed, decide_eq_true_iff, Prod.mk.injEq, List.cons.injEq, and_true,
        true_and]
      exact ⟨fun h => h ▸ rfl, Kind.index_toUInt8_injective⟩
    | _ => simp [equals, hashFeed]
  | integer m =>
    cases w with
    | integer n =>
      simp only [equals, hashFeed, decide_eq_true_iff, Prod.mk.injEq, true_and]
      exact ⟨fun h => h ▸ rfl, fun h => congrArg UInt32.toInt32 (wordBytes_injective h)⟩
    | _ => simp [equals, hashFeed]
  | float x =>
    cases w with
    | float y =>
      simp only [equals, hashFeed, decide_eq_true_iff, Prod.mk.injEq, true_and]
      rw [← Single.canonicalBits_eq_iff]
      exact ⟨congrArg wordBytes, wordBytes_injective⟩
    | _ => simp [equals, hashFeed]
  | charString bs =>
    cases w with
    | charString cs => simp [equals, hashFeed]
    | _ => simp [equals, hashFeed]
  | text bs =>
    cases w with
    | text cs => simp [equals, hashFeed]
    | _ => simp [equals, hashFeed]
  | date d =>
    cases w with
    | date e =>
      simp only [equals, hashFeed, decide_eq_true_iff, Prod.mk.injEq, true_and]
      exact ⟨fun h => h ▸ rfl, fun h => Date.packed_toUInt32_injective (wordBytes_injective h)⟩
    | _ => simp [equals, hashFeed]
  | boolean a =>
    cases w with
    | boolean b => cases a <;> cases b <;> simp [equals, hashFeed]
    | _ => simp [equals, hashFeed]

theorem equals_refl (v : Value) : v.equals v = true := (equals_iff_hashFeed v v).mpr rfl

theorem equals_symm {v w : Value} (h : v.equals w = true) : w.equals v = true :=
  (equals_iff_hashFeed w v).mpr ((equals_iff_hashFeed v w).mp h).symm

theorem equals_trans {u v w : Value} (h : u.equals v = true) (h' : v.equals w = true) :
    u.equals w = true :=
  (equals_iff_hashFeed u w).mpr
    (((equals_iff_hashFeed u v).mp h).trans ((equals_iff_hashFeed v w).mp h'))

theorem sameKey_iff {v w : Value} : v.sameKey w = true ↔ v.equals w = true := by
  rw [sameKey, Bool.and_eq_true, decide_eq_true_iff, ← equals_iff_hashFeed, and_self]

/-! ### Keys -/

def Apart (keys : List Value) : Prop := keys.Pairwise fun v w => ¬ v.equals w = true

/-- The number stands for the value: the key with this number is equal to it. -/
def Labels (keys : List Value) (label : Nat) (v : Value) : Prop :=
  ∃ key, keys[label]? = some key ∧ key.equals v = true

theorem Labels.of_prefix {keys keys' : List Value} {label : Nat} {v : Value}
    (h : Labels keys label v) (hp : keys <+: keys') : Labels keys' label v := by
  obtain ⟨key, hkey, he⟩ := h
  obtain ⟨hlt, rfl⟩ := List.getElem?_eq_some_iff.mp hkey
  exact ⟨_, List.prefix_iff_getElem?.mp hp label hlt, he⟩

/-- **Two values have one number if and only if they are equal.** -/
theorem labels_eq_iff {keys : List Value} {i j : Nat} {v w : Value} (h : Apart keys)
    (hv : Labels keys i v) (hw : Labels keys j w) : i = j ↔ v.equals w = true := by
  obtain ⟨key, hkey, hev⟩ := hv
  obtain ⟨key', hkey', hew⟩ := hw
  constructor
  · rintro rfl
    obtain rfl : key = key' := Option.some.inj (hkey.symm.trans hkey')
    exact equals_trans (equals_symm hev) hew
  · intro he
    have hkeys : key.equals key' = true := equals_trans hev (equals_trans he (equals_symm hew))
    obtain ⟨hi, rfl⟩ := List.getElem?_eq_some_iff.mp hkey
    obtain ⟨hj, rfl⟩ := List.getElem?_eq_some_iff.mp hkey'
    have hapart := List.pairwise_iff_getElem.mp h
    rcases Nat.lt_trichotomy i j with hlt | heq | hgt
    · exact absurd hkeys (hapart i j hi hj hlt)
    · exact heq
    · exact absurd (equals_symm hkeys) (hapart j i hj hi hgt)

/-- A step keeps the keys apart, drops none, and numbers the value. -/
theorem placeKey_spec {keys : List Value} (h : Apart keys) (v : Value) :
    Apart (placeKey keys v).2 ∧ keys <+: (placeKey keys v).2 ∧
      Labels (placeKey keys v).2 (placeKey keys v).1 v := by
  unfold placeKey
  cases hf : keys.findIdx? fun key => key.sameKey v with
  | some i =>
    obtain ⟨hi, hkey, -⟩ := List.findIdx?_eq_some_iff_getElem.mp hf
    refine ⟨h, List.prefix_rfl, keys[i], List.getElem?_eq_getElem hi, sameKey_iff.mp hkey⟩
  | none =>
    have hnew := List.findIdx?_eq_none_iff.mp hf
    refine ⟨?_, List.prefix_append _ _, v, List.getElem?_concat_length, equals_refl v⟩
    rw [Apart, List.pairwise_append]
    refine ⟨h, List.pairwise_singleton _ _, ?_⟩
    intro key hkey w hw he
    obtain rfl := List.mem_singleton.mp hw
    rw [← sameKey_iff, hnew key hkey] at he
    cases he

theorem groupFrom_spec {keys : List Value} (h : Apart keys) (values : List Value) :
    Apart (groupFrom keys values).2 ∧ keys <+: (groupFrom keys values).2 ∧
      List.Forall₂ (Labels (groupFrom keys values).2) (groupFrom keys values).1 values := by
  induction values generalizing keys with
  | nil => exact ⟨h, List.prefix_rfl, .nil⟩
  | cons v rest ih =>
    obtain ⟨hapart, hprefix, hlabel⟩ := placeKey_spec h v
    obtain ⟨hapart', hprefix', hlabels⟩ := ih hapart
    exact ⟨hapart', hprefix.trans hprefix', .cons (hlabel.of_prefix hprefix') hlabels⟩

/-- **Values can be keys of a hash table.**  Structural equality is an equivalence, equal values and
no others feed a hasher the same, and grouping a list gives two of its positions one number if and
only if the values there are equal, in whichever order the list has them. -/
theorem equality_groups_values :
    Equivalence (fun v w : Value => v.equals w = true) ∧
    (∀ v w : Value, v.equals w = true ↔ v.hashFeed = w.hashFeed) ∧
    (∀ k l : Kind, (null k).equals (null l) = true ↔ k = l) ∧
    (∀ x y : Single, (float x).equals (float y) = true ↔ x.canonicalBits = y.canonicalBits) ∧
    (∀ values : List Value, (group values).1.length = values.length ∧
      ∀ i j : Fin values.length, (group values).1[i.val]? = (group values).1[j.val]? ↔
        (values.get i).equals (values.get j) = true) := by
  refine ⟨⟨equals_refl, equals_symm, equals_trans⟩, equals_iff_hashFeed, ?_, ?_, ?_⟩
  · intro k l
    exact decide_eq_true_iff
  · intro x y
    rw [Single.canonicalBits_eq_iff]
    exact decide_eq_true_iff
  · intro values
    have hempty : Apart [] := List.Pairwise.nil
    obtain ⟨hapart, -, hlabels⟩ := groupFrom_spec hempty values
    obtain ⟨hlen, hget⟩ := List.forall₂_iff_get.mp hlabels
    refine ⟨hlen, fun i j => ?_⟩
    have hi : i.val < (groupFrom [] values).1.length := by rw [hlen]; exact i.isLt
    have hj : j.val < (groupFrom [] values).1.length := by rw [hlen]; exact j.isLt
    show (groupFrom [] values).1[i.val]? = (groupFrom [] values).1[j.val]? ↔ _
    rw [List.getElem?_eq_getElem hi, List.getElem?_eq_getElem hj, Option.some_inj]
    exact labels_eq_iff hapart (hget i.val hi i.isLt) (hget j.val hj j.isLt)

/-- The NaNs are one key and the zeros another. -/
example : group [float ⟨0x7fc00000⟩, float ⟨0⟩, null .text, float ⟨0xffc00001⟩, float ⟨0x80000000⟩] =
    ([0, 1, 2, 0, 1], 3) := by decide

end Value

end Datum
