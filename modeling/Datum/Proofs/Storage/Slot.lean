import Datum.Proofs.Storage.Layout

/-!
# Writing into a slot

`Storage.write` changes a slot in place, in up to two steps.  `run_write` says that it leaves there
what `encodeInto` describes, and that it has changed nothing if it fails: every test comes before the
first byte is copied.  With `encodeInto_cases`, which tells apart the values and slots that fail, this
says all that a write does to a slot.
-/

namespace Datum.Storage

/-! ### Copying -/

variable (first second slot : List UInt8)

theorem run_copyAt (start : Nat) (bytes : List UInt8) :
    (copyAt start bytes).run slot =
      .ok () (slot.take start ++ bytes ++ slot.drop (start + bytes.length)) := rfl

@[simp] theorem run_copyAt_zero :
    (copyAt 0 first).run slot = .ok () (first ++ slot.drop first.length) := by
  rw [run_copyAt, List.take_zero, List.nil_append, Nat.zero_add]

@[simp] theorem run_copyAt_append :
    (copyAt first.length second).run (first ++ slot.drop first.length) =
      .ok () (first ++ second ++ slot.drop (first.length + second.length)) := by
  rw [run_copyAt, List.take_left, ← List.drop_drop, List.drop_left, List.drop_drop]

/-! ### Writing -/

theorem length_layout_of_encodedLength {v : Value} {needed : Nat}
    (h : encodedLength v = .ok needed) : (layout v).length = needed := by
  cases v with
  | null kind =>
    cases kind with
    | null => exact Except.ok.inj h
    | integer | float | charString | text | date | boolean => cases h
  | charString bytes =>
    simp only [encodedLength] at h
    split at h
    · cases h
    · exact Except.ok.inj h
  | text bytes =>
    obtain rfl := Except.ok.inj h
    exact List.length_append
  | integer n | float x | date d | boolean b => exact Except.ok.inj h

/-- **A write does to the slot what `encodeInto` describes, and nothing at all if it fails.** -/
theorem run_write (v : Value) :
    (write v).run slot =
      match encodeInto v slot with
      | .ok (count, after) => .ok count after
      | .error e => .error e slot := by
  unfold write encodeInto
  cases hl : encodedLength v with
  | error e => rfl
  | ok needed =>
    have hlen := length_layout_of_encodedLength hl
    by_cases hs : slot.length < needed
    · simp [MonadExcept.ofExcept, hs]
    cases v with
    | charString bytes =>
      -- the padding goes to the end of the slot, so that nothing of what it held is left
      obtain rfl : bytes.length = needed := hlen
      have hend : bytes.length + (slot.length - bytes.length) = slot.length := by omega
      simp [MonadExcept.ofExcept, hs, hend, -bind_pure_comp]
    | text bytes =>
      obtain rfl : textPrefixSize + bytes.length = needed := Except.ok.inj hl
      by_cases hb : UInt32.size ≤ bytes.length
      · simp [MonadExcept.ofExcept, hs, hb]
      · have hpayload : (copyAt textPrefixSize bytes).run
            (wordBytes (.ofNat bytes.length) ++ slot.drop 4) =
            .ok () (wordBytes (.ofNat bytes.length) ++ bytes ++
              slot.drop (textPrefixSize + bytes.length)) :=
          run_copyAt_append (wordBytes (.ofNat bytes.length)) bytes slot
        simp [MonadExcept.ofExcept, hs, hb, hpayload, layout, -bind_pure_comp]
    | null _ | integer _ | float _ | date _ | boolean _ =>
      simp [MonadExcept.ofExcept, hs, hlen, -bind_pure_comp]

/-! ### What can be written where -/

/-- A value has its layout and fits the slot, or writing it fails with a fault in the encoding of its
kind. -/
theorem encodeInto_cases (v : Value) :
    (Encodable v ∧ (layout v).length ≤ slot.length) ∨
      ¬ (Encodable v ∧ ∃ needed, encodedLength v = .ok needed ∧ needed ≤ slot.length) ∧
        ∃ fault : Fault, encodeInto v slot = .error (fault.toError v.kind) := by
  by_cases he : Encodable v
  · have hl := encodedLength_of_encodable he
    rcases Nat.lt_or_ge slot.length (layout v).length with hs | hs
    · refine .inr ⟨?_, .slotTooSmall (layout v).length slot.length, ?_⟩
      · rintro ⟨-, needed, hn, hle⟩
        obtain rfl := Except.ok.inj (hl.symm.trans hn)
        omega
      · rw [encodeInto, hl]
        exact if_pos hs
    · exact .inl ⟨he, hs⟩
  · refine .inr ⟨fun h => he h.1, ?_⟩
    cases v with
    | null kind =>
      cases kind with
      | null => exact absurd rfl he
      | integer | float | charString | text | date | boolean => exact ⟨.typedNull, rfl⟩
    | charString bytes =>
      cases hf : bytes.findIdx? (· == 0) with
      | some offset => exact ⟨.zeroByte offset, by simp only [encodeInto, encodedLength, hf]; rfl⟩
      | none =>
        refine absurd (fun hz => ?_) he
        exact absurd (List.findIdx?_eq_none_iff.mp hf 0 hz) (by decide)
    | text bytes =>
      have hb : UInt32.size ≤ bytes.length := Nat.not_lt.mp he
      simp only [encodeInto, encodedLength, if_pos hb]
      split
      · exact ⟨.slotTooSmall _ _, rfl⟩
      · exact ⟨.payloadTooLong, rfl⟩
    | integer n | float x | date d | boolean b => exact absurd trivial he

theorem length_slotRest {v : Value} (h : (layout v).length ≤ slot.length) :
    (layout v).length + (slotRest v slot).length = slot.length := by
  unfold slotRest
  split
  · rw [List.length_replicate]
    omega
  · rw [List.length_drop]
    omega

theorem delimited_slotRest (v : Value) : Delimited v.kind (slotRest v slot) := by
  intro hk
  rw [slotRest, if_pos hk]
  exact Delimited.replicate _ _ rfl

/-- **A write does everything or nothing, and stays within the slot.**  It succeeds for the values
that have a layout, in the slots that are long enough.  Then the slot holds the bytes of the value
and is read back as the value; behind them a character string leaves zero bytes to the end of the
slot, and every other value what was there before.  Otherwise the encoding of the kind is at fault,
and the slot is as it was. -/
theorem write_all_or_nothing (v : Value) :
    ((∃ count after, (write v).run slot = .ok count after) ↔
      Encodable v ∧ ∃ needed, encodedLength v = .ok needed ∧ needed ≤ slot.length) ∧
    (∀ count after, (write v).run slot = .ok count after →
      ∃ p, encode v = .ok p ∧ encodedLength v = .ok p.length ∧
        count = (if v.kind = .charString then slot.length else p.length) ∧
        after.length = slot.length ∧ after.take p.length = p ∧
        (v.kind = .charString → ∀ b ∈ after.drop p.length, b = 0) ∧
        (v.kind ≠ .charString → after.drop count = slot.drop count) ∧
        decode v.kind after = .ok v) ∧
    (∀ e after, (write v).run slot = .error e after →
      (∃ reason, e = .encoding v.kind reason) ∧ after = slot) := by
  rw [run_write]
  rcases encodeInto_cases slot v with ⟨he, hs⟩ | ⟨hn, fault, hf⟩
  · have hl := encodedLength_of_encodable he
    have hlen := length_slotRest slot hs
    rw [encodeInto_of_encodable he hs]
    refine ⟨iff_of_true ⟨_, _, rfl⟩ ⟨he, _, hl, hs⟩, ?_, ?_⟩
    · rintro count after ⟨⟩
      refine ⟨layout v, encode_eq_ok_iff.mpr ⟨he, rfl⟩, hl, rfl, ?_, List.take_left, ?_, ?_, ?_⟩
      · rw [List.length_append, hlen]
      · intro hk b hb
        rw [List.drop_left, slotRest, if_pos hk] at hb
        exact List.eq_of_mem_replicate hb
      · intro hk
        rw [slotCount, if_neg hk, slotRest, if_neg hk, List.drop_left]
      · exact decode_layout_append he (delimited_slotRest slot v)
    · rintro e after ⟨⟩
  · rw [hf]
    refine ⟨iff_of_false ?_ hn, ?_, ?_⟩
    · rintro ⟨count, after, ⟨⟩⟩
    · rintro count after ⟨⟩
    · rintro e after ⟨⟩
      exact ⟨⟨fault.message, rfl⟩, rfl⟩

/-- One byte of text in a slot of six: the length, the byte, and what was at the end. -/
example : (write (.text [98])).run [7, 7, 7, 7, 7, 7] = .ok 5 [1, 0, 0, 0, 98, 7] := rfl

end Datum.Storage
