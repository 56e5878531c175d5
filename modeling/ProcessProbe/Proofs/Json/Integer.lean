import Mathlib.Data.List.Induction
import Mathlib.Data.List.TakeWhile
import ProcessProbe.Proofs.Json.Written

/-!
# Integers in JSON

A document that is one integer. Leading zeros, a plus sign, a fraction and an exponent make other documents, and so does
the numeral `-0`. Main statement: a text is read as an integer exactly when it is what is written of it, between blanks.
-/

namespace ProcessProbe.Json

/-! ## Blanks around a value -/

def isBlank (c : Char) : Bool := c == ' ' || c == '\n' || c == '\t' || c == '\r'

/-- The text consists of `inner` and of blanks on both sides of it. -/
def IsBetweenBlanks (text inner : List Char) : Prop :=
  ∃ before after, (∀ c ∈ before, isBlank c = true) ∧ (∀ c ∈ after, isBlank c = true) ∧ text = before ++ (inner ++ after)

theorem skipBlanks_append {before : List Char} (h : ∀ c ∈ before, isBlank c = true) (s : List Char) :
    skipBlanks (before ++ s) = skipBlanks s := List.dropWhile_append_of_pos h

theorem exists_blanks_append_skipBlanks (s : List Char) :
    ∃ before, (∀ c ∈ before, isBlank c = true) ∧ s = before ++ skipBlanks s :=
  ⟨s.takeWhile isBlank, fun _ hc => List.mem_takeWhile_imp hc, List.takeWhile_append_dropWhile.symm⟩

theorem skipBlanks_eq_nil_iff {s : List Char} : skipBlanks s = [] ↔ ∀ c ∈ s, isBlank c = true :=
  List.dropWhile_eq_nil_iff

theorem readValue_blanks (fuel : Nat) {before : List Char} (h : ∀ c ∈ before, isBlank c = true) (s : List Char) :
    readValue fuel (before ++ s) = readValue fuel s := by
  cases fuel with
  | zero => rw [readValue, readValue]
  | succ fuel => rw [readValue, readValue, skipBlanks_append h]

theorem endsNumeral_blanks {after : List Char} (h : ∀ c ∈ after, isBlank c = true) : EndsNumeral after := by
  intro c hc
  have hblank : c = ' ' ∨ c = '\n' ∨ c = '\t' ∨ c = '\r' := by
    simpa [isBlank, or_assoc] using h c (List.mem_of_mem_head? hc)
  rcases hblank with rfl | rfl | rfl | rfl <;> decide

/-! ## Numerals -/

theorem digitChar_of_isDigit {c : Char} (hc : c.isDigit = true) : Nat.digitChar (c.toNat - 48) = c := by
  have hall : ∀ k < 10, Nat.digitChar k = Char.ofNat (k + 48) := by decide
  rw [Char.isDigit_iff_toNat] at hc
  have hlow : 48 ≤ c.toNat := hc.1
  have hhigh : c.toNat ≤ 57 := hc.2
  rw [hall _ (by omega), Nat.sub_add_cancel hlow, Char.ofNat_toNat]

theorem natOf_append_singleton (ds : List Char) (d : Char) : natOf (ds ++ [d]) = natOf ds * 10 + (d.toNat - 48) := by
  rw [natOf, List.foldl_append]
  rfl

theorem decimal_of_isDigit {c : Char} (hc : c.isDigit = true) : Text.decimal (c.toNat - 48) = [c] := by
  have hhigh : c.toNat ≤ 57 := (Char.isDigit_iff_toNat.1 hc).2
  rw [Text.decimal, Nat.toDigits_of_lt_base (by omega), digitChar_of_isDigit hc]

/-- Digits that start with no zero are those of a positive number. By induction on them from the last one on, as they
are written. -/
private theorem decimal_natOf_of_head {ds : List Char} (hne : ds ≠ []) (hdigits : ∀ c ∈ ds, c.isDigit = true)
    (hzero : ds.head? ≠ some '0') : 0 < natOf ds ∧ Text.decimal (natOf ds) = ds := by
  induction ds using List.reverseRecOn with
  | nil => contradiction
  | append_singleton ds d ih =>
    have hd : d.isDigit = true := hdigits d (List.mem_append_right ds (List.mem_singleton_self d))
    have hrange : 48 ≤ d.toNat ∧ d.toNat ≤ 57 := Char.isDigit_iff_toNat.1 hd
    rw [natOf_append_singleton]
    by_cases hnil : ds = []
    · subst hnil
      have hd0 : d.toNat ≠ 48 := fun h => hzero (congrArg some (Char.toNat_inj.1 h))
      refine ⟨?_, ?_⟩
      · simp only [natOf, List.foldl_nil]
        omega
      · simpa [natOf] using decimal_of_isDigit hd
    · rw [List.head?_append_of_ne_nil _ hnil] at hzero
      obtain ⟨hpos, hds⟩ := ih hnil (fun c hc => hdigits c (List.mem_append_left _ hc)) hzero
      refine ⟨by omega, ?_⟩
      have hquotient : (natOf ds * 10 + (d.toNat - 48)) / 10 = natOf ds := by omega
      have hlast : (natOf ds * 10 + (d.toNat - 48)) % 10 = d.toNat - 48 := by omega
      rw [Text.decimal, Nat.toDigits_of_base_le (by decide) (by omega), hquotient, hlast, digitChar_of_isDigit hd]
      exact congrArg (· ++ [d]) hds

theorem decimal_natOf {ds : List Char} (hne : ds ≠ []) (hdigits : ∀ c ∈ ds, c.isDigit = true)
    (hzero : (ds.length > 1 && ds.head? == some '0') = false) : Text.decimal (natOf ds) = ds := by
  by_cases hhead : ds.head? = some '0'
  · obtain ⟨rest, rfl⟩ := List.head?_eq_some_iff.1 hhead
    have hrest : rest = [] := by simpa using hzero
    subst hrest
    rfl
  · exact (decimal_natOf_of_head hne hdigits hhead).2

theorem eq_of_readFraction {s rest : List Char} (h : readFraction s = some ([], rest)) : s = rest := by
  rw [readFraction.eq_def] at h
  split at h
  · simp only at h
    split at h
    · contradiction
    · rename_i hfilled
      simp_all
  · simpa using h

theorem eq_of_readExponent {s rest : List Char} (h : readExponent s = some (none, rest)) : s = rest := by
  cases s with
  | nil => simpa [readExponent] using h
  | cons c r =>
    rw [readExponent.eq_def] at h
    simp only at h
    split at h
    · split at h
      all_goals
        split at h
        · contradiction
        · simp at h
    · simpa using h

theorem eq_of_readMagnitude {negative : Bool} {s rest : List Char} {k : Int}
    (h : readMagnitude negative s = some (.integer k, rest)) :
    ∃ n : Nat, s = Text.decimal n ++ rest ∧ k = (if negative then -(n : Int) else n) ∧ (negative = true → 0 < n) := by
  have hspan : (digitsOf s).1 ++ (digitsOf s).2 = s := by
    rw [digitsOf, List.span_eq_takeWhile_dropWhile, List.takeWhile_append_dropWhile]
  have hdigits : ∀ c ∈ (digitsOf s).1, c.isDigit = true := by
    intro c hc
    rw [digitsOf, List.span_eq_takeWhile_dropWhile] at hc
    exact List.mem_takeWhile_imp hc
  rw [readMagnitude] at h
  generalize digitsOf s = parts at h hspan hdigits
  obtain ⟨whole, r⟩ := parts
  simp only at h hspan hdigits
  split at h
  · contradiction
  · rename_i hwhole
    rw [Bool.or_eq_true, not_or, Bool.not_eq_true, Bool.not_eq_true] at hwhole
    split at h
    · contradiction
    · rename_i fraction r' hfraction
      split at h
      · contradiction
      · rename_i exponent r'' hexponent
        split at h
        · rename_i hinteger
          simp only [Bool.and_eq_true, Bool.not_eq_true', List.isEmpty_iff, Option.isNone_iff_eq_none] at hinteger
          obtain ⟨⟨rfl, rfl⟩, hsign⟩ := hinteger
          simp only [Option.some.injEq, Prod.mk.injEq, integer.injEq] at h
          refine ⟨natOf whole, ?_, h.1.symm, ?_⟩
          · rw [decimal_natOf (List.isEmpty_eq_false_iff.1 hwhole.1) hdigits hwhole.2, ← h.2,
              ← eq_of_readExponent hexponent, ← eq_of_readFraction hfraction, hspan]
          · rintro rfl
            exact Nat.pos_of_ne_zero (by simpa using hsign)
        · simp at h

theorem eq_of_readNumeral {s rest : List Char} {k : Int} (h : readNumeral s = some (.integer k, rest)) :
    s = (toString k).toList ++ rest := by
  rw [readNumeral.eq_def] at h
  split at h
  · obtain ⟨n, rfl, rfl, hpos⟩ := eq_of_readMagnitude h
    obtain ⟨m, rfl⟩ := Nat.exists_eq_succ_of_ne_zero (Nat.pos_iff_ne_zero.1 (hpos rfl))
    exact congrArg (· ++ rest) (toList_toString_negSucc m).symm
  · obtain ⟨n, rfl, rfl, -⟩ := eq_of_readMagnitude h
    exact congrArg (· ++ rest) (Text.toList_toString n).symm

/-! ## Documents -/

theorem exists_array_of_readItems {fuel : Nat} {done : List Json} {s rest : List Char} {v : Json}
    (h : readItems fuel done s = some (v, rest)) : ∃ items, v = .array items := by
  induction fuel generalizing done s with
  | zero => simp [readItems] at h
  | succ fuel ih =>
    rw [readItems] at h
    split at h
    · contradiction
    · split at h
      · exact ih h
      · simp only [Option.some.injEq, Prod.mk.injEq] at h
        exact ⟨_, h.1.symm⟩
      · contradiction

theorem of_readFields {fuel : Nat} {readable : Bool} {done : List (String × Json)} {s rest : List Char} {v : Json}
    (h : readFields fuel readable done s = some (v, rest)) : v = .unreadable ∨ ∃ fields, v = .object fields := by
  induction fuel generalizing readable done s with
  | zero => simp [readFields] at h
  | succ fuel ih =>
    rw [readFields] at h
    split at h
    · split at h
      · contradiction
      · split at h
        · split at h
          · contradiction
          · simp only at h
            split at h
            · exact ih h
            · simp only [Option.some.injEq, Prod.mk.injEq] at h
              rw [← h.1]
              split
              · exact .inr ⟨_, rfl⟩
              · exact .inl rfl
            · contradiction
        · contradiction
    · contradiction

theorem eq_of_readValue {fuel : Nat} {s rest : List Char} {k : Int}
    (h : readValue fuel s = some (.integer k, rest)) : skipBlanks s = (toString k).toList ++ rest := by
  cases fuel with
  | zero => simp [readValue] at h
  | succ fuel =>
    rw [readValue] at h
    split at h
    · simp at h
    · simp at h
    · simp at h
    · obtain ⟨⟨text?, r⟩, -, hv⟩ := Option.map_eq_some_iff.1 h
      cases text? <;> simp at hv
    · split at h
      · simp at h
      · obtain ⟨items, hitems⟩ := exists_array_of_readItems h
        contradiction
    · split at h
      · simp at h
      · rcases of_readFields h with hv | ⟨fields, hv⟩
        · contradiction
        · contradiction
    · exact eq_of_readNumeral h

/-- A document is an integer exactly when it is the digits of it, between blanks. -/
theorem ofString?_eq_integer_iff {text : String} {k : Int} :
    ofString? text = some (.integer k) ↔ IsBetweenBlanks text.toList (toString k).toList := by
  rw [ofString?, read?]
  constructor
  · intro h
    split at h
    · rename_i v rest hread
      split at h
      · rename_i hrest
        obtain rfl : v = .integer k := by simpa using h
        obtain ⟨before, hbefore, htext⟩ := exists_blanks_append_skipBlanks text.toList
        refine ⟨before, rest, hbefore, skipBlanks_eq_nil_iff.1 (by simpa using hrest), ?_⟩
        rw [← eq_of_readValue hread]
        exact htext
      · contradiction
    · contradiction
  · rintro ⟨before, after, hbefore, hafter, htext⟩
    have hroom : (writeAt none (.integer k)).toList.length ≤ text.toList.length + 1 := by
      rw [htext, writeAt]
      simp only [List.length_append]
      omega
    have hread := (Plain.integer k).isReadBack none _ after (endsNumeral_blanks hafter) hroom
    rw [writeAt] at hread
    rw [htext, readValue_blanks _ hbefore, ← htext, hread]
    simp [skipBlanks_eq_nil_iff.2 hafter]

end ProcessProbe.Json
