/-! # Words as bytes

A word of 32 bits is stored as four bytes, least significant first. Every four bytes are those of
exactly one word.
-/

namespace Datum

/-- The bytes of a word, least significant first. -/
def wordBytes (w : UInt32) : List UInt8 :=
  let n := w.toNat
  [n.toUInt8, (n / 0x100).toUInt8, (n / 0x10000).toUInt8, (n / 0x1000000).toUInt8]

def wordOfBytes (a b c d : UInt8) : UInt32 :=
  (a.toNat + b.toNat * 0x100 + c.toNat * 0x10000 + d.toNat * 0x1000000).toUInt32

@[simp] theorem length_wordBytes (w : UInt32) : (wordBytes w).length = 4 := rfl

theorem toNat_wordOfBytes (a b c d : UInt8) :
    (wordOfBytes a b c d).toNat =
      a.toNat + b.toNat * 0x100 + c.toNat * 0x10000 + d.toNat * 0x1000000 := by
  have ha := a.toNat_lt
  have hb := b.toNat_lt
  have hc := c.toNat_lt
  have hd := d.toNat_lt
  simp only [wordOfBytes, Nat.toUInt32_eq, UInt32.toNat_ofNat']
  omega

theorem wordBytes_wordOfBytes (a b c d : UInt8) : wordBytes (wordOfBytes a b c d) = [a, b, c, d] := by
  have ha := a.toNat_lt
  have hb := b.toNat_lt
  have hc := c.toNat_lt
  have hd := d.toNat_lt
  simp only [wordBytes, toNat_wordOfBytes, List.cons.injEq, ← UInt8.toNat_inj, Nat.toUInt8_eq,
    UInt8.toNat_ofNat', and_true]
  omega

theorem wordBytes_injective {v w : UInt32} (h : wordBytes v = wordBytes w) : v = w := by
  have hv := v.toNat_lt
  have hw := w.toNat_lt
  simp only [wordBytes, List.cons.injEq, ← UInt8.toNat_inj, Nat.toUInt8_eq, UInt8.toNat_ofNat',
    and_true] at h
  rw [← UInt32.toNat_inj]
  omega

end Datum
