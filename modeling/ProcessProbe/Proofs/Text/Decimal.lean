import ProcessProbe.Text.Blank
import ProcessProbe.Text.Integer

/-!
# Decimal numbers read back

The digits that a number is written with hold no blank and no mark. Main statements: what is read as a natural number
are the numerals whose value is in range, so a written number is read back and a name or a mark never is one; and where
there are negative numbers, what is read as an integer are the numerals and the digits behind a minus sign.
-/

namespace ProcessProbe.Text

def decimal (n : Nat) : List Char := Nat.toDigits 10 n

@[simp] theorem toList_toString (n : Nat) : (toString n).toList = decimal n := Nat.toList_repr

theorem decimal_ne_nil (n : Nat) : decimal n ≠ [] := Nat.toDigits_ne_nil

theorem isDigit_of_mem_decimal {n : Nat} {c : Char} (h : c ∈ decimal n) : c.isDigit = true :=
  Nat.isDigit_of_mem_toDigits (by decide) (by decide) h

theorem decimal_injective {m n : Nat} (h : decimal m = decimal n) : m = n := by
  have hm := Nat.ofDigitChars_toDigits (b := 10) (n := m) (by decide) (by decide)
  rw [show Nat.toDigits 10 m = Nat.toDigits 10 n from h] at hm
  rw [← hm, Nat.ofDigitChars_toDigits (by decide) (by decide)]

theorem isBlank_of_isDigit {c : Char} (h : c.isDigit = true) : isBlank c = false := by
  rw [Char.isDigit_iff_toNat] at h
  have hlo : 48 ≤ c.toNat := h.1
  have hhi : c.toNat ≤ 57 := h.2
  simp only [isBlank, Bool.or_eq_false_iff, Bool.and_eq_false_iff, decide_eq_false_iff_not, beq_eq_false_iff_ne]
  omega

theorem not_mem_decimal {c : Char} (h : c.isDigit = false) (n : Nat) : c ∉ decimal n := by
  intro hc
  rw [isDigit_of_mem_decimal hc] at h
  exact Bool.noConfusion h

theorem not_isBlank_of_mem_decimal {n : Nat} {c : Char} (h : c ∈ decimal n) : isBlank c = false :=
  isBlank_of_isDigit (isDigit_of_mem_decimal h)

/-! ## What is read as a number -/

/-- Digits and the number that they spell. -/
structure IsDigits (s : List Char) (n : Nat) : Prop where
  ne_nil : s ≠ []
  isDigit : ∀ c ∈ s, c.isDigit = true
  value : Nat.ofDigitChars 10 s 0 = n

/-- A natural number as it may be written: digits, with a plus sign before them or without. -/
inductive IsNumeral : List Char → Nat → Prop where
  | bare {s : List Char} {n : Nat} (h : IsDigits s n) : IsNumeral s n
  | plus {s : List Char} {n : Nat} (h : IsDigits s n) : IsNumeral ('+' :: s) n

/-- An integer as it may be written: a numeral, or digits with a minus sign before them. -/
inductive IsInteger : List Char → Int → Prop where
  | numeral {s : List Char} {n : Nat} (h : IsNumeral s n) : IsInteger s n
  | minus {s : List Char} {n : Nat} (h : IsDigits s n) : IsInteger ('-' :: s) (-n)

theorem isDigits_decimal (n : Nat) : IsDigits (decimal n) n where
  ne_nil := decimal_ne_nil n
  isDigit := fun _ hc => isDigit_of_mem_decimal hc
  value := Nat.ofDigitChars_toDigits (by decide) (by decide)

theorem not_isDigits_nil (n : Nat) : ¬IsDigits [] n := fun h => h.ne_nil rfl

theorem IsDigits.head {c : Char} {s : List Char} {n : Nat} (h : IsDigits (c :: s) n) : c.isDigit = true :=
  h.isDigit c List.mem_cons_self

theorem isNumeral_iff {s : List Char} {n : Nat} :
    IsNumeral s n ↔ IsDigits s n ∨ ∃ ds, s = '+' :: ds ∧ IsDigits ds n := by
  constructor
  · intro h
    cases h with
    | bare h => exact .inl h
    | plus h => exact .inr ⟨_, rfl, h⟩
  · intro h
    rcases h with h | ⟨ds, hs, h⟩
    · exact .bare h
    · exact hs ▸ .plus h

theorem IsNumeral.ne_nil {s : List Char} {n : Nat} (h : IsNumeral s n) : s ≠ [] := by
  cases h with
  | bare h => exact h.ne_nil
  | plus h => exact List.cons_ne_nil _ _

theorem IsNumeral.not_mem {s : List Char} {n : Nat} (h : IsNumeral s n) {c : Char} (hdigit : c.isDigit = false)
    (hplus : c ≠ '+') : c ∉ s := by
  intro hc
  cases h with
  | bare h => simp [h.isDigit c hc] at hdigit
  | plus h =>
    rcases List.mem_cons.1 hc with hc | hc
    · exact hplus hc
    · simp [h.isDigit c hc] at hdigit

theorem IsNumeral.not_isBlank {s : List Char} {n : Nat} (h : IsNumeral s n) {c : Char} (hc : c ∈ s) :
    isBlank c = false := by
  by_cases hdigit : c.isDigit = true
  · exact isBlank_of_isDigit hdigit
  · by_cases hplus : c = '+'
    · rw [hplus]
      decide
    · exact absurd hc (h.not_mem (by simpa using hdigit) hplus)

private theorem digit?_eq (c : Char) : digit? c = if c.isDigit then some (c.toNat - 48) else none := by
  have hiff : ('0' ≤ c ∧ c ≤ '9') ↔ c.isDigit = true := Char.isDigit_iff_toNat.symm
  simp only [digit?, hiff]

private theorem le_ofDigitChars (cs : List Char) (value : Nat) : value ≤ Nat.ofDigitChars 10 cs value := by
  have hpow : 1 ≤ 10 ^ cs.length := Nat.one_le_pow _ _ (by decide)
  have hmul := Nat.le_mul_of_pos_left value hpow
  rw [Nat.ofDigitChars_eq_ofDigitChars_zero]
  omega

/-- Digits are read as far as the number they spell stays within the bound. -/
private theorem readDigits_eq_iff {bound : Nat} (cs : List Char) {value n : Nat} (hvalue : value ≤ bound) :
    readDigits bound value cs = .ok (some n) ↔
      (∀ c ∈ cs, c.isDigit = true) ∧ Nat.ofDigitChars 10 cs value = n ∧ n ≤ bound := by
  induction cs generalizing value with
  | nil =>
    simp [readDigits]
    omega
  | cons c cs ih =>
    rw [readDigits, digit?_eq, Nat.ofDigitChars_cons]
    by_cases hc : c.isDigit = true
    · have hstep : 10 * value + (c.toNat - '0'.toNat) = value * 10 + (c.toNat - 48) := by
        rw [Nat.mul_comm]
        rfl
      rw [hstep]
      simp only [hc, if_true]
      by_cases hbound : value * 10 + (c.toNat - 48) ≤ bound
      · simp [hbound, ih hbound, hc]
      · -- The value only grows, so what is past the bound stays past it.
        have hpast := le_ofDigitChars cs (value * 10 + (c.toNat - 48))
        simp [hbound]
        omega
    · simp [hc]

private theorem readSigned_eq_ok_iff {bound : Nat} {past : IntegerDefect} {sign k : Int} {ds : List Char}
    (hne : ds ≠ []) :
    (match readDigits bound 0 ds with
      | .error () => .error past
      | .ok none => .error .invalidDigit
      | .ok (some n) => .ok (sign * n) : Except IntegerDefect Int) = .ok k ↔
      ∃ n : Nat, IsDigits ds n ∧ n ≤ bound ∧ k = sign * n := by
  have hdigits (n : Nat) : IsDigits ds n ∧ n ≤ bound ↔ readDigits bound 0 ds = .ok (some n) := by
    rw [readDigits_eq_iff ds (Nat.zero_le bound)]
    constructor
    · rintro ⟨h, hn⟩
      exact ⟨h.isDigit, h.value, hn⟩
    · rintro ⟨hd, hv, hn⟩
      exact ⟨⟨hne, hd, hv⟩, hn⟩
  simp only [← and_assoc, hdigits]
  rcases readDigits bound 0 ds with _ | _ | m <;> simp [eq_comm]

/-- A negative number is read where there are any, and never without its minus sign. -/
theorem readInteger_eq_ok_iff {low high : Nat} {s : List Char} {k : Int} :
    readInteger low high s = .ok k ↔
      (∃ n : Nat, IsNumeral s n ∧ n ≤ high ∧ k = n) ∨
        low ≠ 0 ∧ ∃ ds, ∃ n : Nat, s = '-' :: ds ∧ IsDigits ds n ∧ n ≤ low ∧ k = -n := by
  have hplus {ds : List Char} {n : Nat} : ¬IsDigits ('+' :: ds) n := fun h => absurd h.head (by decide)
  have hminus {ds : List Char} {n : Nat} : ¬IsDigits ('-' :: ds) n := fun h => absurd h.head (by decide)
  simp only [readInteger.eq_def, isNumeral_iff]
  split
  · simp [not_isDigits_nil]
  · simp [not_isDigits_nil, hplus]
  · simp [not_isDigits_nil, hminus]
  · rename_i ds hne
    refine (readSigned_eq_ok_iff hne).trans ?_
    simp [hplus]
  · rename_i ds hne
    by_cases hlow : low = 0
    · simp [hlow, hminus]
    · rw [if_neg hlow]
      refine (readSigned_eq_ok_iff hne).trans ?_
      simp [hlow, hminus]
  · rename_i hnil _ _ hunsigned hpositive
    have hnoPlus : ∀ ds, s ≠ '+' :: ds := hunsigned
    have hnoMinus : ∀ ds, s ≠ '-' :: ds := hpositive
    refine (readSigned_eq_ok_iff hnil).trans ?_
    simp [hnoPlus, hnoMinus]

theorem readNat_eq_ok_iff {high n : Nat} {s : List Char} : readNat high s = .ok n ↔ IsNumeral s n ∧ n ≤ high := by
  have hread : readNat high s = .ok n ↔ ∃ k, readInteger 0 high s = .ok k ∧ k.toNat = n := by
    rw [readNat]
    cases readInteger 0 high s <;> simp [Except.map]
  rw [hread]
  simp only [readInteger_eq_ok_iff, ne_eq, not_true, false_and, or_false]
  constructor
  · rintro ⟨_, ⟨m, hm, hle, rfl⟩, rfl⟩
    exact ⟨hm, hle⟩
  · rintro ⟨hn, hle⟩
    exact ⟨n, ⟨n, hn, hle, rfl⟩, rfl⟩

theorem readInteger_eq_ok_iff_isInteger {low high : Nat} (hlow : low ≠ 0) {s : List Char} {k : Int} :
    readInteger low high s = .ok k ↔ IsInteger s k ∧ -(low : Int) ≤ k ∧ k ≤ high := by
  rw [readInteger_eq_ok_iff]
  constructor
  · rintro (⟨n, hn, hle, rfl⟩ | ⟨-, ds, n, rfl, hn, hle, rfl⟩)
    · exact ⟨.numeral hn, by omega, by omega⟩
    · exact ⟨.minus hn, by omega, by omega⟩
  · rintro ⟨h, hlower, hupper⟩
    cases h with
    | @numeral _ n h => exact .inl ⟨n, h, by omega, rfl⟩
    | @minus ds n h => exact .inr ⟨hlow, ds, n, rfl, h, by omega, rfl⟩

/-- A text is at most one integer, since it is read as that one when the bounds are wide enough. -/
theorem IsInteger.unique {s : List Char} {m n : Int} (hm : IsInteger s m) (hn : IsInteger s n) : m = n := by
  have hread {k : Int} (hk : IsInteger s k) (hle : k.natAbs ≤ m.natAbs + n.natAbs) :
      readInteger (m.natAbs + n.natAbs + 1) (m.natAbs + n.natAbs) s = .ok k :=
    (readInteger_eq_ok_iff_isInteger (Nat.succ_ne_zero _)).2 ⟨hk, by omega, by omega⟩
  have hreadm := hread hm (Nat.le_add_right _ _)
  have hreadn := hread hn (Nat.le_add_left _ _)
  exact Except.ok.inj (hreadm.symm.trans hreadn)

theorem readI64?_eq_some_iff {s : List Char} {k : Int} :
    readI64? s = some k ↔ IsInteger s k ∧ -9223372036854775808 ≤ k ∧ k ≤ 9223372036854775807 := by
  have hread : readI64? s = some k ↔ readInteger (maxI64 + 1) maxI64 s = .ok k := by
    rw [readI64?]
    cases readInteger (maxI64 + 1) maxI64 s <;> simp [Except.toOption]
  exact hread.trans (readInteger_eq_ok_iff_isInteger (Nat.succ_ne_zero _))

theorem readU32?_eq_some_iff {s : List Char} {n : Nat} : readU32? s = some n ↔ IsNumeral s n ∧ n ≤ maxU32 := by
  rw [← readNat_eq_ok_iff, readU32?]
  cases readNat maxU32 s <;> simp [Except.toOption]

theorem readU32?_decimal {n : Nat} (h : n ≤ maxU32) : readU32? (decimal n) = some n :=
  readU32?_eq_some_iff.2 ⟨.bare (isDigits_decimal n), h⟩

end ProcessProbe.Text
