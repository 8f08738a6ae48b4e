import Datum.Machine
import Datum.Proofs.Storage.Layout
import Mathlib.Algebra.Ring.Nat

/-!
# Rows of values in consecutive slots

A row is written into a page slot by slot, and read back from left to right by a reader that knows
the kinds of the values and how wide the slots of the character strings are, but no other lengths.
A character string is read from its slot; every other value is read from the whole rest of the page,
and the reader goes on behind as many bytes as the value takes.

Both sides are compared with the bytes of the row (`Cell.bytes`, one after the other).  `writeRow_eq`
says that writing puts exactly these into the page and leaves everything around them alone, and
`readRow_of_page` that a page with these bytes somewhere in it is read as the row.
-/

namespace Datum.Storage

/-- The width of a slot suits a value: a character string may be shorter than its slot, every other
value fills it. -/
def Fits (v : Value) (width : Nat) : Prop :=
  match v with
  | .charString bytes => bytes.length ≤ width
  | v => encodedLength v = .ok width

structure Cell where
  value : Value
  width : Nat
  encodable : Encodable value
  fits : Fits value width

/-- What a reader knows of a slot. -/
inductive Column where
  | charString (width : Nat)
  | other (kind : Kind)

namespace Cell

def column (c : Cell) : Column :=
  match c.value with
  | .charString _ => .charString c.width
  | v => .other v.kind

def bytes (c : Cell) : List UInt8 :=
  layout c.value ++ List.replicate (c.width - (layout c.value).length) 0

end Cell

def rowWidth (row : List Cell) : Nat :=
  (row.map Cell.width).sum

def rowBytes (row : List Cell) : List UInt8 :=
  row.flatMap Cell.bytes

def writeRow : Machine → Nat → List Cell → Except TypeError Machine
  | m, _, [] => .ok m
  | m, start, c :: row => do
    let (_, bytes) ← encodeInto c.value (m.slot start c.width)
    writeRow (m.overwrite start bytes) (start + c.width) row

/-- Reads a value at a position of the page, and says where the next one begins. -/
def readColumn (m : Machine) (start : Nat) : Column → Except TypeError (Value × Nat)
  | .charString width => do
    let v ← decode .charString (m.slot start width)
    return (v, start + width)
  | .other kind => do
    let v ← decode kind (m.page.drop start)
    let length ← encodedLength v
    return (v, start + length)

def readRow (m : Machine) : Nat → List Column → Except TypeError (List Value × Nat)
  | start, [] => .ok ([], start)
  | start, column :: columns => do
    let (v, next) ← readColumn m start column
    let (values, stop) ← readRow m next columns
    return (v :: values, stop)

/-! ### The bytes of a slot -/

theorem Cell.column_cases (c : Cell) :
    (c.value.kind = .charString ∧ c.column = .charString c.width ∧
      (layout c.value).length ≤ c.width) ∨
    (c.value.kind ≠ .charString ∧ c.column = .other c.value.kind ∧
      (layout c.value).length = c.width) := by
  obtain ⟨v, width, he, hf⟩ := c
  cases v with
  | charString bytes => exact .inl ⟨rfl, rfl, hf⟩
  | null kind =>
    obtain rfl : kind = .null := he
    exact .inr ⟨nofun, rfl, Except.ok.inj hf⟩
  | integer n | float x | text bytes | date d | boolean b =>
    exact .inr ⟨nofun, rfl, Except.ok.inj ((encodedLength_of_encodable he).symm.trans hf)⟩

theorem Cell.length_layout_le (c : Cell) : (layout c.value).length ≤ c.width := by
  rcases c.column_cases with ⟨-, -, h⟩ | ⟨-, -, h⟩
  · exact h
  · exact Nat.le_of_eq h

@[simp] theorem Cell.length_bytes (c : Cell) : c.bytes.length = c.width := by
  have h := c.length_layout_le
  simp only [bytes, List.length_append, List.length_replicate]
  omega

theorem Cell.encodeInto_eq (c : Cell) {slot : List UInt8} (h : slot.length = c.width) :
    encodeInto c.value slot = .ok (c.width, c.bytes) := by
  have hle := c.length_layout_le
  rw [encodeInto_of_encodable c.encodable (by omega), bytes, slotRest, slotCount, h]
  rcases c.column_cases with ⟨hk, -, -⟩ | ⟨hk, -, hl⟩
  · rw [if_pos hk, if_pos hk]
  · -- the value fills its slot, so that nothing is left of what the slot held
    rw [if_neg hk, if_neg hk, hl, Nat.sub_self, List.drop_eq_nil_of_le (Nat.le_of_eq h)]
    rfl

theorem readColumn_bytes (c : Cell) {m : Machine} {before after : List UInt8}
    (h : m.page = before ++ c.bytes ++ after) :
    readColumn m before.length c.column = .ok (c.value, before.length + c.width) := by
  have hd : m.page.drop before.length = c.bytes ++ after := by
    rw [h, List.append_assoc, List.drop_left]
  rcases c.column_cases with ⟨hk, hc, -⟩ | ⟨hk, hc, hl⟩
  · have hs : m.slot before.length c.width = c.bytes := by
      rw [Machine.slot, hd, ← c.length_bytes, List.take_left]
    have hv := decode_layout_append c.encodable
      (Delimited.replicate c.value.kind (c.width - (layout c.value).length))
    rw [hk] at hv
    rw [hc, readColumn, hs, Cell.bytes, hv]
    rfl
  · have hv : decode c.value.kind (c.bytes ++ after) = .ok c.value := by
      rw [Cell.bytes, List.append_assoc]
      exact decode_layout_append c.encodable (fun he => absurd he hk)
    rw [hc, readColumn, hd, hv, ok_bind, encodedLength_of_encodable c.encodable, ok_bind, hl]
    rfl

/-! ### Writing -/

/-- Overwriting a page twice, the second time right behind the first, overwrites it once. -/
theorem overwrite_overwrite {m : Machine} {start : Nat} {xs ys : List UInt8}
    (h : start + xs.length ≤ m.page.length) :
    (m.overwrite start xs).overwrite (start + xs.length) ys = m.overwrite start (xs ++ ys) := by
  have hlen : (m.page.take start ++ xs).length = start + xs.length := by
    rw [List.length_append, List.length_take]
    omega
  have htake : (m.overwrite start xs).page.take (start + xs.length) = m.page.take start ++ xs :=
    List.take_left' hlen
  have hdrop : (m.overwrite start xs).page.drop (start + xs.length) =
      m.page.drop (start + xs.length) := List.drop_left' hlen
  rw [Machine.overwrite, htake, ← List.drop_drop, hdrop, List.drop_drop]
  simp only [Machine.overwrite, List.append_assoc, List.length_append, Nat.add_assoc]

/-- **Writing a row replaces the bytes of its slots by the bytes of its cells**, and nothing else in
the page. -/
theorem writeRow_eq (row : List Cell) (m : Machine) (start : Nat)
    (h : start + rowWidth row ≤ m.page.length) :
    writeRow m start row = .ok (m.overwrite start (rowBytes row)) := by
  induction row generalizing m start with
  | nil => simp [writeRow, Machine.overwrite, rowBytes]
  | cons c row ih =>
    have hw : rowWidth (c :: row) = c.width + rowWidth row := by simp [rowWidth]
    have hs : (m.slot start c.width).length = c.width := by
      simp only [Machine.slot, List.length_take, List.length_drop]
      omega
    have hlen : (m.overwrite start c.bytes).page.length = m.page.length := by
      simp only [Machine.overwrite, List.length_append, List.length_take, List.length_drop,
        c.length_bytes]
      omega
    have hbytes : rowBytes (c :: row) = c.bytes ++ rowBytes row := rfl
    simp only [writeRow, c.encodeInto_eq hs, ok_bind]
    rw [ih _ _ (by omega), ← c.length_bytes, overwrite_overwrite, hbytes]
    rw [c.length_bytes]
    omega

/-! ### Reading -/

theorem readRow_of_page (row : List Cell) {m : Machine} {before after : List UInt8}
    (h : m.page = before ++ rowBytes row ++ after) :
    readRow m before.length (row.map Cell.column) =
      .ok (row.map Cell.value, before.length + rowWidth row) := by
  induction row generalizing before with
  | nil => rfl
  | cons c row ih =>
    have hc : m.page = before ++ c.bytes ++ (rowBytes row ++ after) := by
      simpa [rowBytes] using h
    have hr : m.page = (before ++ c.bytes) ++ rowBytes row ++ after := by
      simpa [rowBytes] using h
    have ih := ih hr
    rw [List.length_append, c.length_bytes] at ih
    simp only [List.map_cons, readRow, readColumn_bytes c hc, ok_bind, ih, rowWidth, List.sum_cons,
      Nat.add_assoc]
    rfl

/-- **A row is read back from the page it was written to**, whatever the page held before, and the
reader stops at the end of what was written. -/
theorem readRow_writeRow (row : List Cell) (m : Machine) (start : Nat)
    (h : start + rowWidth row ≤ m.page.length) :
    ∃ written, writeRow m start row = .ok written ∧
      readRow written start (row.map Cell.column) =
        .ok (row.map Cell.value, start + rowWidth row) := by
  refine ⟨_, writeRow_eq row m start h, ?_⟩
  have hlen : (m.page.take start).length = start := by
    rw [List.length_take]
    omega
  have hread := readRow_of_page row (m := m.overwrite start (rowBytes row)) rfl
  rwa [hlen] at hread

/-- A row of five kinds: a string shorter than its slot, a text with a zero byte, a NaN with a
payload, the untyped null and a truth value. -/
def mixedRow : List Cell :=
  [⟨.charString [97, 98], 3, by decide, Nat.le_succ 2⟩,
    ⟨.text [0, 98], 6, by decide, rfl⟩,
    ⟨.float ⟨0xffc00001⟩, 4, trivial, rfl⟩,
    ⟨.null .null, 0, rfl, rfl⟩,
    ⟨.boolean true, 1, trivial, rfl⟩]

theorem readRow_writeRow_mixedRow :
    1 + rowWidth mixedRow ≤ (Machine.mk [] (List.replicate 16 0xaa)).page.length ∧
    ∃ written, writeRow ⟨[], List.replicate 16 0xaa⟩ 1 mixedRow = .ok written ∧
      readRow written 1 (mixedRow.map Cell.column) = .ok (mixedRow.map Cell.value, 15) :=
  ⟨by decide, readRow_writeRow mixedRow ⟨[], List.replicate 16 0xaa⟩ 1 (by decide)⟩

end Datum.Storage
