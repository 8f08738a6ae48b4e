import Datum.Proofs.Outcome
import Datum.Storage

/-!
# Layouts and the values they are read back to

`Storage.encode` writes the layout of a value and `Storage.decode` reads one from the front of some
bytes.  This file shows that the two agree exactly: what is read is what some value was written as,
and whatever a value is written as is read as that value, also in front of other bytes.

`Encodable` says which values have a layout at all, and `encode_eq_ok_iff` that these are the ones
that can be written.  Reading goes the two ways separately: `decode_layout_append` reads a layout
back, and `decode_cases` finds the layout in front of any bytes that are read.  Only a
character string does not know where it ends, so that what follows it has to be nothing or a zero
byte (`Delimited`); every other layout is read back in front of anything.
-/

namespace Datum

theorem Date.packed_of_ofPacked? {n : Int} {d : Date} (h : ofPacked? n = some d) :
    n = d.packed := by
  unfold ofPacked? ofParts? at h
  split at h
  · cases h
  · split at h
    · obtain rfl := Option.some.inj h
      simp only [packed]
      omega
    · cases h

theorem wordOfBytes_wordBytes (w : UInt32) :
    ∃ a b c d, wordBytes w = [a, b, c, d] ∧ wordOfBytes a b c d = w := by
  refine ⟨_, _, _, _, rfl, wordBytes_injective ?_⟩
  rw [wordBytes_wordOfBytes]
  rfl

theorem Date.toInt_packed_toUInt32 (d : Date) : d.packed.toUInt32.toInt32.toInt = d.packed := by
  have hd := d.packed_lt
  exact Int32.toInt_ofNat_of_lt (show d.packed < 2 ^ 31 by omega)

theorem Date.packed_toUInt32_of_ofPacked? {w : UInt32} {d : Date}
    (h : ofPacked? w.toInt32.toInt = some d) : d.packed.toUInt32 = w := by
  have hw : d.packed.toUInt32.toInt32 = w.toInt32 := by
    rw [← Int32.toInt_inj, d.toInt_packed_toUInt32, packed_of_ofPacked? h]
  rw [← UInt32.toUInt32_toInt32 w, ← hw, UInt32.toUInt32_toInt32]

namespace Storage

/-! ### Values with a layout -/

/-- The values that have a layout: no null of a proper kind, no zero byte in a character string, and
no text so long that four bytes cannot hold its length. -/
def Encodable : Value → Prop
  | .null kind => kind = .null
  | .charString bytes => 0 ∉ bytes
  | .text bytes => bytes.length < UInt32.size
  | _ => True

instance : DecidablePred Encodable := fun v => by
  cases v <;> unfold Encodable <;> infer_instance

theorem encodedLength_of_encodable {v : Value} (h : Encodable v) :
    encodedLength v = .ok (layout v).length := by
  cases v with
  | null kind =>
    obtain rfl : kind = .null := h
    rfl
  | charString bytes =>
    have hz : bytes.findIdx? (· == 0) = none := by
      rw [List.findIdx?_eq_none_iff]
      intro b hb
      exact beq_false_of_ne (fun he => h (he ▸ hb))
    simp only [encodedLength, hz, layout]
  | text bytes => simp [encodedLength, layout, textPrefixSize]
  | integer n | float x | date d | boolean b => rfl

/-- What follows the layout of a value in a slot: the zero padding of a character string, and for
every other value what the slot held there before. -/
def slotRest (v : Value) (slot : List UInt8) : List UInt8 :=
  if v.kind = .charString then List.replicate (slot.length - (layout v).length) 0
  else slot.drop (layout v).length

def slotCount (v : Value) (slot : List UInt8) : Nat :=
  if v.kind = .charString then slot.length else (layout v).length

/-- **A value with a layout is written into every slot that is long enough.** -/
theorem encodeInto_of_encodable {v : Value} {slot : List UInt8} (h : Encodable v)
    (hs : (layout v).length ≤ slot.length) :
    encodeInto v slot = .ok (slotCount v slot, layout v ++ slotRest v slot) := by
  unfold encodeInto
  rw [encodedLength_of_encodable h]
  simp only [if_neg (Nat.not_lt.mpr hs)]
  cases v with
  | null kind =>
    obtain rfl : kind = .null := h
    rfl
  | text bytes => exact if_neg (Nat.not_le.mpr h)
  | integer n | float x | charString bytes | date d | boolean b => rfl

theorem encodable_of_encodeInto {v : Value} {slot : List UInt8} {r : Nat × List UInt8}
    (h : encodeInto v slot = .ok r) : Encodable v := by
  unfold encodeInto at h
  cases v with
  | null kind =>
    cases kind with
    | null => rfl
    | integer | float | charString | text | date | boolean => simp [encodedLength] at h
  | charString bytes =>
    intro hz
    cases hf : bytes.findIdx? (· == 0) with
    | none => exact absurd (List.findIdx?_eq_none_iff.mp hf 0 hz) (by decide)
    | some offset => simp [encodedLength, hf] at h
  | text bytes =>
    rcases Nat.lt_or_ge bytes.length UInt32.size with hl | hl
    · exact hl
    · simp only [encodedLength, if_pos hl] at h
      split at h <;> cases h
  | integer n | float x | date d | boolean b => trivial

/-- **The values that can be written are the encodable ones, and they are written as their
layout.** -/
theorem encode_eq_ok_iff {v : Value} {p : List UInt8} :
    encode v = .ok p ↔ Encodable v ∧ p = layout v := by
  have hok : Encodable v → encode v = .ok (layout v) := by
    intro h
    have hl : (layout v).length ≤ (List.replicate (layout v).length (0 : UInt8)).length := by simp
    unfold encode
    rw [encodedLength_of_encodable h]
    simp only [encodeInto_of_encodable h hl, Except.map, slotRest]
    simp
  constructor
  · intro h
    have he : Encodable v := by
      unfold encode at h
      split at h
      · cases h
      · rename_i needed hn
        cases hi : encodeInto v (List.replicate needed 0) with
        | error e => rw [hi] at h; cases h
        | ok r => exact encodable_of_encodeInto hi
    exact ⟨he, by rw [hok he] at h; exact (Except.ok.inj h).symm⟩
  · rintro ⟨h, rfl⟩
    exact hok h

/-! ### Reading -/

@[simp] theorem readWord_wordBytes_append (kind : Kind) (w : UInt32) (rest : List UInt8) :
    readWord kind (wordBytes w ++ rest) = .ok (w, rest) := by
  obtain ⟨a, b, c, d, hb, hw⟩ := wordOfBytes_wordBytes w
  rw [hb]
  simp only [List.cons_append, List.nil_append, readWord, hw]

theorem readWord_cases (kind : Kind) (bytes : List UInt8) :
    (∃ w rest, bytes = wordBytes w ++ rest) ∨
      readWord kind bytes = .error ((Fault.tooFewBytes 4 bytes.length).toError kind) := by
  unfold readWord
  split
  · rename_i a b c d rest
    exact .inl ⟨wordOfBytes a b c d, rest, by rw [wordBytes_wordOfBytes]; rfl⟩
  · exact .inr rfl

/-- Whether the layout of a value can be told from the bytes after it: a character string ends at a
zero byte or with the bytes, and every other value knows its own end. -/
def Delimited (kind : Kind) (rest : List UInt8) : Prop :=
  kind = .charString → rest = [] ∨ rest.head? = some 0

theorem Delimited.replicate (kind : Kind) (n : Nat) : Delimited kind (List.replicate n 0) := by
  intro _
  cases n with
  | zero => exact .inl rfl
  | succ n => exact .inr rfl

theorem takeWhile_append_of_delimited {bytes rest : List UInt8} (h : 0 ∉ bytes)
    (hr : Delimited .charString rest) : (bytes ++ rest).takeWhile (· != 0) = bytes := by
  have hall : ∀ b ∈ bytes, (b != 0) = true := by
    intro b hb
    exact bne_iff_ne.mpr (fun he => h (he ▸ hb))
  rw [List.takeWhile_append_of_pos hall]
  rcases hr rfl with rfl | hz
  · exact List.append_nil bytes
  · cases rest with
    | nil => exact List.append_nil bytes
    | cons b rest =>
      obtain rfl : b = 0 := Option.some.inj hz
      exact List.append_nil bytes

theorem Delimited.dropWhile (bytes : List UInt8) :
    Delimited .charString (bytes.dropWhile (· != 0)) := by
  intro _
  induction bytes with
  | nil => exact .inl rfl
  | cons b bytes ih =>
    by_cases hb : b = 0
    · subst hb
      exact .inr rfl
    · have hd : (b :: bytes).dropWhile (· != 0) = bytes.dropWhile (· != 0) :=
        List.dropWhile_cons_of_pos (bne_iff_ne.mpr hb)
      rw [hd]
      exact ih

/-- **A layout is read back**, whatever stands behind it, but for a character string. -/
theorem decode_layout_append {v : Value} {rest : List UInt8} (h : Encodable v)
    (hr : Delimited v.kind rest) : decode v.kind (layout v ++ rest) = .ok v := by
  cases v with
  | null kind =>
    obtain rfl : kind = .null := h
    rfl
  | integer n =>
    simp only [Value.kind, layout, decode, readWord_wordBytes_append]
    exact congrArg (Except.ok ∘ Value.integer) n.toInt32_toUInt32
  | float x =>
    simp only [Value.kind, layout, decode, readWord_wordBytes_append]
    rfl
  | charString bytes =>
    simp only [Value.kind, layout, decode, takeWhile_append_of_delimited h hr]
  | text bytes =>
    have hb : bytes.length < UInt32.size := h
    have hl : bytes.length.toUInt32.toNat = bytes.length := UInt32.toNat_ofNat_of_lt' hb
    simp only [Value.kind, layout, decode, List.append_assoc, readWord_wordBytes_append, ok_bind,
      hl]
    rw [if_neg (by simp), List.take_left]
    rfl
  | date d =>
    simp only [Value.kind, layout, decode, readWord_wordBytes_append, ok_bind,
      Date.toInt_packed_toUInt32, Date.ofPacked?_packed]
    rfl
  | boolean b => cases b <;> rfl

/-- **Reading finds a layout in front of the bytes, or fails with a fault in the encoding of the
kind that was asked for.** -/
theorem decode_cases (kind : Kind) (bytes : List UInt8) :
    (∃ v rest, v.kind = kind ∧ Encodable v ∧ Delimited kind rest ∧ bytes = layout v ++ rest ∧
      decode kind bytes = .ok v) ∨
    ∃ fault : Fault, decode kind bytes = .error (fault.toError kind) := by
  cases kind with
  | integer =>
    rcases readWord_cases .integer bytes with ⟨w, rest, rfl⟩ | hf
    · refine .inl ⟨.integer w.toInt32, rest, rfl, trivial, nofun, by simp [layout], ?_⟩
      simp only [decode, readWord_wordBytes_append]
      rfl
    · exact .inr ⟨_, by rw [decode, hf, error_bind]⟩
  | float =>
    rcases readWord_cases .float bytes with ⟨w, rest, rfl⟩ | hf
    · refine .inl ⟨.float ⟨w⟩, rest, rfl, trivial, nofun, rfl, ?_⟩
      simp only [decode, readWord_wordBytes_append]
      rfl
    · exact .inr ⟨_, by rw [decode, hf, error_bind]⟩
  | date =>
    rcases readWord_cases .date bytes with ⟨w, rest, rfl⟩ | hf
    · simp only [decode, readWord_wordBytes_append, ok_bind]
      cases hd : Date.ofPacked? w.toInt32.toInt with
      | none => exact .inr ⟨_, rfl⟩
      | some d =>
        have hw := Date.packed_toUInt32_of_ofPacked? hd
        exact .inl ⟨.date d, rest, rfl, trivial, nofun, by rw [layout, hw], rfl⟩
    · exact .inr ⟨_, by rw [decode, hf, error_bind]⟩
  | boolean =>
    cases bytes with
    | nil => exact .inr ⟨_, rfl⟩
    | cons b rest =>
      by_cases h0 : b = 0
      · subst h0
        exact .inl ⟨.boolean false, rest, rfl, trivial, nofun, rfl, rfl⟩
      · by_cases h1 : b = 1
        · subst h1
          exact .inl ⟨.boolean true, rest, rfl, trivial, nofun, rfl, rfl⟩
        · exact .inr ⟨_, by rw [decode, if_neg h0, if_neg h1]⟩
  | charString =>
    refine .inl ⟨.charString (bytes.takeWhile (· != 0)), bytes.dropWhile (· != 0), rfl, ?_,
      Delimited.dropWhile bytes, List.takeWhile_append_dropWhile.symm, rfl⟩
    intro hz
    have := List.all_eq_true.mp List.all_takeWhile 0 hz
    exact absurd this (by decide)
  | text =>
    rcases readWord_cases .text bytes with ⟨w, rest, rfl⟩ | hf
    · simp only [decode, readWord_wordBytes_append, ok_bind]
      by_cases hl : rest.length < w.toNat
      · exact .inr ⟨_, by rw [if_pos hl]; rfl⟩
      · have hlen : (rest.take w.toNat).length = w.toNat := by
          rw [List.length_take]
          omega
        have hw : w.toNat.toUInt32 = w := UInt32.ofNat_toNat
        refine .inl ⟨.text (rest.take w.toNat), rest.drop w.toNat, rfl, ?_, nofun, ?_, ?_⟩
        · show (rest.take w.toNat).length < UInt32.size
          rw [hlen]
          exact w.toNat_lt
        · rw [layout, hlen, hw, List.append_assoc, List.take_append_drop]
        · rw [if_neg hl]
          rfl
    · exact .inr ⟨_, by rw [decode, hf, error_bind]⟩
  | null => exact .inl ⟨.null .null, bytes, rfl, rfl, nofun, rfl, rfl⟩

/-- Whatever is read is the layout of a value of the kind that was asked for. -/
theorem layout_of_decode {kind : Kind} {bytes : List UInt8} {v : Value}
    (h : decode kind bytes = .ok v) :
    v.kind = kind ∧ Encodable v ∧ ∃ rest, bytes = layout v ++ rest ∧ Delimited kind rest := by
  rcases decode_cases kind bytes with ⟨u, rest, hk, he, hr, hb, hd⟩ | ⟨fault, hd⟩
  · rw [hd] at h
    obtain rfl := Except.ok.inj h
    exact ⟨hk, he, rest, hb, hr⟩
  · rw [hd] at h
    cases h

/-! ### Reading is the inverse of writing -/

/-- Some bytes hold a value of a kind: they begin with what the value is written as, and a character
string ends there, at a zero byte or with the bytes. -/
def Holds (kind : Kind) (bytes : List UInt8) (v : Value) : Prop :=
  v.kind = kind ∧ ∃ p rest, encode v = .ok p ∧ bytes = p ++ rest ∧
    Delimited kind rest

theorem decode_eq_ok_iff {kind : Kind} {bytes : List UInt8} {v : Value} :
    decode kind bytes = .ok v ↔ Holds kind bytes v := by
  constructor
  · intro h
    obtain ⟨hk, he, rest, hb, hr⟩ := layout_of_decode h
    exact ⟨hk, layout v, rest, encode_eq_ok_iff.mpr ⟨he, rfl⟩, hb, hr⟩
  · rintro ⟨rfl, p, rest, hp, rfl, hr⟩
    obtain ⟨he, rfl⟩ := encode_eq_ok_iff.mp hp
    exact decode_layout_append he hr

/-- **Reading accepts exactly the storage format.**  Bytes are read as a value of a kind if and only
if they hold it; bytes that hold none are refused as a malformed encoding of that kind.  So
everything that was read can be written again, and reading undoes writing. -/
theorem decode_accepts_exactly (kind : Kind) (bytes : List UInt8) :
    (∀ v, decode kind bytes = .ok v ↔ Holds kind bytes v) ∧
    ((∃ reason, decode kind bytes = .error (.encoding kind reason)) ↔
      ¬ ∃ v, Holds kind bytes v) ∧
    (∀ v, decode kind bytes = .ok v → ∃ p, encode v = .ok p) ∧
    (∀ v, encode v = .ok bytes → decode v.kind bytes = .ok v) := by
  refine ⟨fun v => decode_eq_ok_iff, ⟨?_, ?_⟩, ?_, ?_⟩
  · rintro ⟨reason, h⟩ ⟨v, hv⟩
    rw [decode_eq_ok_iff.mpr hv] at h
    cases h
  · intro hn
    rcases decode_cases kind bytes with ⟨v, _, -, -, -, -, hd⟩ | ⟨fault, hd⟩
    · exact absurd ⟨v, decode_eq_ok_iff.mp hd⟩ hn
    · exact ⟨fault.message, hd⟩
  · intro v hv
    obtain ⟨-, p, -, hp, -⟩ := decode_eq_ok_iff.mp hv
    exact ⟨p, hp⟩
  · intro v hv
    exact decode_eq_ok_iff.mpr ⟨rfl, bytes, [], hv, (List.append_nil bytes).symm, fun _ => .inl rfl⟩

end Storage

end Datum
