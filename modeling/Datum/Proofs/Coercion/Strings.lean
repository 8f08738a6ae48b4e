import Datum.Proofs.Coercion.Alike

/-!
# Strings of either kind

A string can stand in for the string of the other kind that has the same bytes, although the two
kinds cost differently to cast and each is cast to the other.  Beside a value that is no string it
is the string that is cast, whatever its kind (`resolve_string`), and the cast reads its bytes as a
literal (`Value.cast_text`).  Beside another string the bytes are compared, in whichever kind
(`Value.compare_strings`).
-/

namespace Datum

/-- Two failures of coercion that differ at most in the kind of the operand that was cast. -/
inductive SameButSource : TypeError → TypeError → Prop
  | intro (operand : Operand) (source source' target : Kind) (cause : TypeError) :
    SameButSource (.coercionFailed operand source target cause)
      (.coercionFailed operand source' target cause)

theorem SameButSource.mirror {e f : TypeError} (h : SameButSource e f) :
    SameButSource e.mirror f.mirror := by
  cases h with
  | intro operand source source' target cause =>
    exact .intro operand.opposite source source' target cause

/-! ### Beside a value that is no string -/

/-- A string is cheaper to cast than whatever else it meets. -/
theorem resolve_string {k l : Kind} (hk : k.isString = true) (hl : l.isString = false)
    (hn : l ≠ .null) : resolve k l = .ok (.left l) := by
  revert hk hl hn
  cases k <;> cases l <;> decide

namespace Value

variable (bytes : List UInt8) {w : Value}

theorem cast_text {target : Kind} (hs : target.isString = false) (hn : target ≠ .null) :
    (text bytes).cast target = (charString bytes).cast target := by
  cases target with
  | integer | float | date | boolean => rfl
  | charString | text => cases hs
  | null => exact absurd rfl hn

theorem castOperand_string_alike (operand : Operand) {target : Kind}
    (hs : target.isString = false) (hn : target ≠ .null) :
    Alike SameButSource Eq (castOperand operand (charString bytes) target)
      (castOperand operand (text bytes) target) := by
  unfold castOperand
  rw [cast_text bytes hs hn]
  cases (charString bytes).cast target with
  | error cause => exact .error (.intro operand .charString .text target cause)
  | ok v => exact .ok rfl

theorem coerce_string_alike (hw : w.isNull = false) (hs : w.kind.isString = false) :
    Alike SameButSource Eq ((charString bytes).coerce w) ((text bytes).coerce w) := by
  have hn := kind_ne_null hw
  have hchars := coerce_of_left (a := charString bytes) (resolve_string rfl hs hn)
  have htext := coerce_of_left (a := text bytes) (resolve_string rfl hs hn)
  rw [hchars, htext]
  exact (castOperand_string_alike bytes .left hs hn).map fun _ _ h => by rw [h]

theorem coerce_string_alike_right (hw : w.isNull = false) (hs : w.kind.isString = false) :
    Alike SameButSource Eq (w.coerce (charString bytes)) (w.coerce (text bytes)) := by
  have hnot : ∀ k : Kind, ¬ (k.isString = true ∧ w.kind.isString = true) := by simp [hs]
  have hm := alike_mirror (coerce_string_alike bytes hw hs) (fun _ _ => SameButSource.mirror)
    (.inr (hnot _)) (.inr (hnot _))
  exact hm.mono fun _ _ h => Prod.swap_injective h

/-! ### Beside another string -/

theorem bytes?_of_isString {v : Value} (hv : v.isNull = false) (hs : v.kind.isString = true) :
    ∃ bs, v.bytes? = some bs := by
  cases v with
  | charString bs | text bs => exact ⟨bs, rfl⟩
  | null kind => cases hv
  | integer n | float x | date d | boolean b => cases hs

theorem isString_of_bytes? {v : Value} {bs : List UInt8} (h : v.bytes? = some bs) :
    v.isNull = false ∧ v.kind.isString = true := by
  cases v with
  | charString bs | text bs => exact ⟨rfl, rfl⟩
  | null kind => cases h
  | integer n | float x | date d | boolean b => cases h

section

variable {a b : Value} {bs cs : List UInt8}

/-- **Two strings can always be brought to one kind, and keep their bytes.** -/
theorem coerce_strings (ha : a.bytes? = some bs) (hb : b.bytes? = some cs) :
    ∃ l r, a.coerce b = .ok (l, r) ∧ l.value.kind = r.value.kind ∧
      l.value.bytes? = some bs ∧ r.value.bytes? = some cs := by
  obtain ⟨han, has⟩ := isString_of_bytes? ha
  obtain ⟨hbn, hbs⟩ := isString_of_bytes? hb
  rcases coerce_outcome han hbn with ⟨hi, -⟩ | ⟨-, c, hr, ho, -⟩
  · rcases hi.isString_eq_false with h | h
    · rw [h] at has
      cases has
    · rw [h] at hbs
      cases hbs
  · have hs : c.target.isString = true := by
      rcases target_of_resolve hr with ht | ht <;> rw [ht] <;> assumption
    obtain ⟨l, r, hok⟩ := ho.ok_of_not_fault fun _ _ _ => not_conversionFault_of_isString hs
    rw [hok] at ho
    cases ho with
    | ok hl hr' _ _ =>
      obtain ⟨bs', hbs'⟩ := bytes?_of_isString hl.isPayload.1 (hl.isPayload.2 ▸ hs)
      obtain ⟨cs', hcs'⟩ := bytes?_of_isString hr'.isPayload.1 (hr'.isPayload.2 ▸ hs)
      obtain rfl := hl.keptIn.2 bs bs' ha hbs'
      obtain rfl := hr'.keptIn.2 cs cs' hb hcs'
      exact ⟨l, r, hok, hl.isPayload.2.trans hr'.isPayload.2.symm, hbs', hcs'⟩

theorem compare_strings (ha : a.bytes? = some bs) (hb : b.bytes? = some cs) :
    a.compare b = .ok (some (compareBytes bs cs)) := by
  have han := (isString_of_bytes? ha).1
  have hbn := (isString_of_bytes? hb).1
  obtain ⟨l, r, hok, hk, hl, hr⟩ := coerce_strings ha hb
  rw [compare_of_coerce han hbn hok, order?_of_bytes? hk hl hr]

theorem ofValues_strings (x : Extremum) (ha : a.bytes? = some bs) (hb : b.bytes? = some cs) :
    ∃ v, x.ofValues a b = .ok v ∧
      v.bytes? = some (if compareBytes bs cs = x.yields then cs else bs) := by
  have han := (isString_of_bytes? ha).1
  have hbn := (isString_of_bytes? hb).1
  obtain ⟨l, r, hok, hk, hl, hr⟩ := coerce_strings ha hb
  have ho := order?_of_bytes? hk hl hr
  refine ⟨_, x.ofValues_of_coerce han hbn hok, ?_⟩
  by_cases hy : compareBytes bs cs = x.yields
  · rw [Extremum.choose, ho, if_pos (congrArg some hy), if_pos hy]
    exact hr
  · rw [Extremum.choose, ho, if_neg fun he => hy (Option.some.inj he), if_neg hy]
    exact hl

end

/-- **The two kinds of strings are interchangeable as operands.**  Beside any value that is not
null, and on either side of it, two strings with the same bytes compare alike: both in one order, or
both with a failure that differs at most in the kind of the string.  Beside a value that is no
string they also lead to the very same choices, and beside a string to choices with the same
bytes. -/
theorem strings_interchangeable (hw : w.isNull = false) :
    Alike SameButSource SameOrder ((charString bytes).compare w) ((text bytes).compare w) ∧
    Alike SameButSource SameOrder (w.compare (charString bytes)) (w.compare (text bytes)) ∧
    (w.kind.isString = false → ∀ x : Extremum,
      Alike SameButSource Eq (x.ofValues (charString bytes) w) (x.ofValues (text bytes) w) ∧
      Alike SameButSource Eq (x.ofValues w (charString bytes)) (x.ofValues w (text bytes))) ∧
    (w.kind.isString = true → ∀ x : Extremum,
      (∃ v v' chosen,
        x.ofValues (charString bytes) w = .ok v ∧ x.ofValues (text bytes) w = .ok v' ∧
        v.bytes? = some chosen ∧ v'.bytes? = some chosen) ∧
      (∃ v v' chosen,
        x.ofValues w (charString bytes) = .ok v ∧ x.ofValues w (text bytes) = .ok v' ∧
        v.bytes? = some chosen ∧ v'.bytes? = some chosen)) := by
  cases hs : w.kind.isString with
  | false =>
    have hl := coerce_string_alike bytes hw hs
    have hr := coerce_string_alike_right bytes hw hs
    refine ⟨compare_alike rfl hw rfl hw hl ?_, compare_alike hw rfl hw rfl hr ?_,
      fun _ x => ⟨x.ofValues_alike rfl hw rfl hw hl ?_, x.ofValues_alike hw rfl hw rfl hr ?_⟩,
      nofun⟩
    all_goals
      rintro p q rfl
      rfl
  | true =>
    obtain ⟨ws, hws⟩ := bytes?_of_isString hw hs
    have hchars : (charString bytes).bytes? = some bytes := rfl
    have htext : (text bytes).bytes? = some bytes := rfl
    refine ⟨?_, ?_, nofun, fun _ x => ⟨?_, ?_⟩⟩
    · rw [compare_strings hchars hws, compare_strings htext hws]
      exact .ok ⟨_, rfl, rfl⟩
    · rw [compare_strings hws hchars, compare_strings hws htext]
      exact .ok ⟨_, rfl, rfl⟩
    · obtain ⟨v, hv, hvs⟩ := ofValues_strings x hchars hws
      obtain ⟨v', hv', hvs'⟩ := ofValues_strings x htext hws
      exact ⟨v, v', _, hv, hv', hvs, hvs'⟩
    · obtain ⟨v, hv, hvs⟩ := ofValues_strings x hws hchars
      obtain ⟨v', hv', hvs'⟩ := ofValues_strings x hws htext
      exact ⟨v, v', _, hv, hv', hvs, hvs'⟩

/-- Bytes that are no text beside a truth value, and beside a string that differs in its last
byte. -/
theorem strings_interchangeable_at_edges :
    ((boolean true).isNull = false ∧ Kind.boolean.isString = false ∧
      Alike SameButSource SameOrder ((charString [0xff]).compare (boolean true))
        ((text [0xff]).compare (boolean true)) ∧
      Alike SameButSource Eq ((boolean true).max (charString [0xff]))
        ((boolean true).max (text [0xff]))) ∧
    ((text [0xff, 0]).isNull = false ∧ Kind.text.isString = true ∧
      ∃ v v' chosen, (charString [0xff, 1]).min (text [0xff, 0]) = .ok v ∧
        (text [0xff, 1]).min (text [0xff, 0]) = .ok v' ∧
        v.bytes? = some chosen ∧ v'.bytes? = some chosen) := by
  obtain ⟨hcompare, -, hchoose, -⟩ := strings_interchangeable [0xff] (w := boolean true) rfl
  obtain ⟨-, -, -, hstrings⟩ := strings_interchangeable [0xff, 1] (w := text [0xff, 0]) rfl
  exact ⟨⟨rfl, rfl, hcompare, (hchoose rfl .greatest).2⟩, rfl, rfl, (hstrings rfl .least).1⟩

end Value

end Datum
