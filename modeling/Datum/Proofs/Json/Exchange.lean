import Datum.Exchange
import Datum.Proofs.Json.Document
import Datum.Proofs.Json.Single

/-!
# Values are read back from their JSON

The documents of all values are well-formed (`wellFormed_toJson`), so that each is parsed from its
text.  Strings are read as their bytes, dates as their literals, integers as themselves and finite
floats bit for bit.  A float that is not finite has no number, and is not read back (`ofJson?_toJson`).
-/

namespace Datum

namespace Json

open Text (AllDigits)

/-! ### Texts -/

theorem charsOf?_escape {code : Nat} (hlead : isLead code = false) (htrail : isTrail code = false)
    (rest : List Piece) :
    charsOf? (.escape code :: rest) = (charsOf? rest).map (Char.ofNat code :: ·) := by
  cases rest with
  | nil => simp [charsOf?, hlead, htrail]
  | cons p rest => cases p <;> simp [charsOf?, hlead, htrail]

theorem toNat_lt_of_escaped {c : Char} (h : c = '"' ∨ c = '\\' ∨ c.toNat < 0x20) :
    c.toNat < 0x80 := by
  rcases h with rfl | rfl | h
  · decide
  · decide
  · omega

theorem charsOf?_pieces (text : List Char) :
    charsOf? (text.map fun c =>
      if c = '"' ∨ c = '\\' ∨ c.toNat < 0x20 then .escape c.toNat else .plain c) = some text := by
  induction text with
  | nil => rfl
  | cons c text ih =>
    rw [List.map_cons]
    split
    · rename_i hc
      have hlow := toNat_lt_of_escaped hc
      have hlead : isLead c.toNat = false := by
        rw [isLead, Bool.and_eq_false_imp]
        exact fun h => absurd (of_decide_eq_true h) (by omega)
      have htrail : isTrail c.toNat = false := by
        rw [isTrail, Bool.and_eq_false_imp]
        exact fun h => absurd (of_decide_eq_true h) (by omega)
      rw [charsOf?_escape hlead htrail, ih, Option.map_some, Char.ofNat_toNat]
    · rename_i hc
      rw [charsOf?, if_neg (fun h => hc (.inr (.inr h))), ih]
      rfl

/-- **A string of a text is read as the text.** -/
theorem textOf?_piecesOf (text : String) : textOf? (piecesOf text) = some text := by
  rw [textOf?, piecesOf, charsOf?_pieces, Option.map_some, String.ofList_toList]

theorem wellFormed_piecesOf (text : String) : ∀ p ∈ piecesOf text, p.WellFormed := by
  intro p hp
  obtain ⟨c, -, rfl⟩ := List.mem_map.mp hp
  split
  · rename_i hc
    exact Nat.lt_trans (toNat_lt_of_escaped hc) (by decide)
  · rename_i hc
    exact ⟨fun h => hc (.inl h), fun h => hc (.inr (.inl h))⟩

theorem wellFormed_ofText (text : String) : (ofText text).WellFormed :=
  .string (wellFormed_piecesOf text)

theorem wellFormed_single (name : String) {value : Json} (h : value.WellFormed) :
    (single name value).WellFormed := by
  refine .object ?_ ?_
  · rw [List.forall_mem_singleton]
    exact wellFormed_piecesOf name
  · rw [List.forall_mem_singleton]
    exact h

theorem fields?_single (name : String) (value : Json) :
    fields? [name] (single name value) = some [some value] := by
  have hmember : uniqueMember? [(name, value)] name = some (some value) := by
    simp [uniqueMember?]
  simp [single, fields?, textOf?_piecesOf, hmember]

/-! ### Numbers -/

namespace Number

theorem wellFormed_ofInt (n : Int) : (ofInt n).WellFormed where
  allDigits_whole := Text.allDigits_toDigits _
  whole_ne_nil := Nat.toDigits_ne_nil
  no_leading_zero h := by
    by_cases h0 : n.natAbs = 0
    · rw [ofInt, h0]
      rfl
    · exact absurd h (Text.head?_toDigits h0)
  allDigits_fraction := List.forall_mem_nil _

theorem toInt?_ofInt (n : Int) : (ofInt n).toInt? = some n := by
  simp only [toInt?, ofInt, Nat.ofDigitChars_ten_toDigits, decide_eq_true_eq]
  rw [if_neg (by simp; omega), Option.some.injEq]
  split <;> omega

variable {d : Decimal}

theorem no_leading_zero_split (hd : d.digits ≠ 0 ∨ d = ⟨0, 0⟩) (h : d.split.1.head? = some '0') :
    d.split.1 = ['0'] := by
  rcases hd with h0 | rfl
  · have hdigits : d.digitText.head? ≠ some '0' := Text.head?_toDigits h0
    have hne : d.digitText ≠ [] := Nat.toDigits_ne_nil
    rcases d.split_cases with ⟨n, hs⟩ | ⟨n, hn, hs⟩ | ⟨n, hs⟩ <;> rw [hs] at h ⊢
    · rw [List.head?_append_of_ne_nil _ hne] at h
      exact absurd h hdigits
    · rw [List.head?_take, if_neg hn.ne'] at h
      exact absurd h hdigits
  · rfl

/-- **A decimal is written as a well-formed number.** -/
theorem wellFormed_ofDecimal (negative : Bool) (hd : d.digits ≠ 0 ∨ d = ⟨0, 0⟩) :
    (ofDecimal negative d).WellFormed := by
  have hdigits : AllDigits d.digitText := Text.allDigits_toDigits d.digits
  obtain ⟨hne, hwhole, hfraction, -⟩ := d.split_spec
  unfold ofDecimal
  simp only
  split
  · refine ⟨hwhole, hne, no_leading_zero_split hd, ?_⟩
    split
    · exact List.forall_mem_singleton.mpr rfl
    · exact hfraction
  · obtain ⟨c, text, htext⟩ := List.exists_cons_of_ne_nil (l := d.digitText) Nat.toDigits_ne_nil
    rw [htext] at hdigits ⊢
    obtain ⟨hc, htext⟩ := List.forall_mem_cons.mp hdigits
    refine ⟨List.forall_mem_singleton.mpr hc, List.cons_ne_nil _ _, fun h => ?_, htext⟩
    exact congrArg (· :: []) (Option.some.inj h)

theorem wellFormed_ofSingle {x : Single} (hfin : x.isFinite = true) : (ofSingle x).WellFormed := by
  rw [ofSingle_eq]
  refine wellFormed_ofDecimal _ ?_
  by_cases h : x.units = 0
  · right
    rw [Single.shortest, if_pos h]
  · exact .inl (Single.shortest_digits_ne_zero hfin .toEven h)

end Number

end Json

open Json (textOf?)

/-! ### Payloads -/

namespace Kind

theorem ofJson?_toJson (k : Kind) : ofJson? k.toJson = some k := by
  rw [ofJson?, toJson, Json.ofText, Json.variantName?, Json.textOf?_piecesOf]
  exact ofName?_name k

end Kind

namespace Date

theorem ofJson?_toJson (d : Date) : ofJson? d.toJson = some d := by
  rw [toJson, Json.ofText, ofJson?, Json.textOf?_piecesOf]
  simp only [bind, Option.bind_some, ofExchangeText, ofText_toText]
  rfl

end Date

namespace Value

theorem byteOfJson?_ofInt (b : UInt8) : byteOfJson? (.number (.ofInt b.toNat)) = some b := by
  have hb := b.toNat_lt
  rw [byteOfJson?, Json.Number.toInt?_ofInt, Option.filter_some, if_pos (by simp; omega),
    Option.map_some, Int.toNat_natCast]
  simp

/-- **The bytes of a string are read as the bytes.** -/
theorem bytesOfJson?_bytesJson (bytes : List UInt8) : bytesOfJson? (bytesJson bytes) = some bytes := by
  rw [bytesJson, bytesOfJson?]
  induction bytes with
  | nil => rfl
  | cons b bytes ih =>
    rw [List.map_cons, List.mapM_cons, byteOfJson?_ofInt, ih]
    rfl

theorem nullKind?_single (k : Kind) : nullKind? (.single "kind" k.toJson) = some k := by
  rw [nullKind?, Json.fields?_single]
  exact k.ofJson?_toJson

/-- **The document of a value is well-formed.** -/
theorem wellFormed_toJson (v : Value) : v.toJson.WellFormed := by
  cases v with
  | null kind => exact Json.wellFormed_single _ (Json.wellFormed_single _ (Json.wellFormed_ofText _))
  | integer n => exact Json.wellFormed_single _ (.number (Json.Number.wellFormed_ofInt _))
  | float x =>
    refine Json.wellFormed_single _ ?_
    rw [floatJson]
    split
    · rename_i hfin
      exact .number (Json.Number.wellFormed_ofSingle hfin)
    · exact .null
  | charString bytes | text bytes =>
    refine Json.wellFormed_single _ (.array ?_)
    intro j hj
    obtain ⟨b, -, rfl⟩ := List.mem_map.mp hj
    exact .number (Json.Number.wellFormed_ofInt _)
  | date d => exact Json.wellFormed_single _ (Json.wellFormed_ofText _)
  | boolean b => exact Json.wellFormed_single _ (.bool b)

theorem ofExchangeText?_eq (v : Value) : ofExchangeText? v.exchangeText = ofJson? v.toJson := by
  rw [ofExchangeText?, exchangeText, Json.parse?_compact v.wellFormed_toJson]
  rfl

/-- The values that have a form in a document: all but the floats that are not finite. -/
def isExchangeable : Value → Bool
  | float x => x.isFinite
  | _ => true

theorem ofJson?_toJson (v : Value) :
    ofJson? v.toJson = if v.isExchangeable then some v else none := by
  cases v with
  | null kind =>
    rw [toJson, Json.single, ofJson?, Json.textOf?_piecesOf]
    exact congrArg (Option.map null) (nullKind?_single kind)
  | integer n =>
    have hlow := n.le_toInt
    have hhigh := n.toInt_lt
    rw [toJson, Json.single, ofJson?, Json.textOf?_piecesOf]
    simp only [bind, Option.bind_some, Json.Number.toInt?_ofInt]
    rw [Option.filter_some, if_pos (by simp; omega), Option.map_some, Int32.ofInt_toInt]
    rfl
  | float x =>
    rw [toJson, Json.single, ofJson?, Json.textOf?_piecesOf, floatJson, isExchangeable]
    by_cases hfin : x.isFinite = true
    · rw [if_pos hfin, if_pos hfin]
      simp only [bind, Option.bind_some, Json.Number.toSingle?_ofSingle hfin, Option.map_some]
    · rw [if_neg hfin, if_neg hfin]
      rfl
  | charString bytes =>
    rw [toJson, Json.single, ofJson?, Json.textOf?_piecesOf]
    exact congrArg (Option.map charString) (bytesOfJson?_bytesJson bytes)
  | text bytes =>
    rw [toJson, Json.single, ofJson?, Json.textOf?_piecesOf]
    exact congrArg (Option.map text) (bytesOfJson?_bytesJson bytes)
  | date d =>
    have hdate := d.ofJson?_toJson
    rw [toJson, Json.single, ofJson?, Json.textOf?_piecesOf]
    generalize d.toJson = payload at hdate ⊢
    exact congrArg (Option.map date) hdate
  | boolean b =>
    rw [toJson, Json.single, ofJson?, Json.textOf?_piecesOf]
    rfl

/-- **A value is read back from its JSON, unless it is a float that is not finite.**  The text of
every null, integer, finite float, string, date and boolean is read as the same value, a float bit for
bit; the text of an infinity, or of what is not a number, is read as no value. -/
theorem exchangeText_read_back :
    ∀ v : Value, ofExchangeText? v.exchangeText = if v.isExchangeable then some v else none := by
  intro v
  rw [ofExchangeText?_eq, ofJson?_toJson]

/-- The text of a float that is not a number has a null in its place, and no value is read from it. -/
theorem nan_not_read_back :
    (float .nan).exchangeText = "\x7b\"Float\":null\x7d" ∧
      ofExchangeText? (float .nan).exchangeText = none := by
  refine ⟨by decide +kernel, ?_⟩
  rw [ofExchangeText?_eq]
  rfl

end Value

end Datum
