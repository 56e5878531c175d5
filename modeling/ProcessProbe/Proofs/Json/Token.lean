import Mathlib.Data.List.Basic
import Mathlib.Data.List.TakeDrop
import ProcessProbe.Json.Printer
import ProcessProbe.Json.Reader
import ProcessProbe.Proofs.Text.Decimal

/-!
# Numerals and texts read back

The numeral of an integer ends where no digit, point or exponent follows, and a text at the first quote that is not
escaped. Main statements: an integer and a text are read back from what is written of them, up to there.
-/

namespace ProcessProbe.Json

/-! ## Numerals -/

/-- What follows does not go on with a numeral. -/
def EndsNumeral (rest : List Char) : Prop := ∀ c ∈ rest.head?, c.isDigit = false ∧ c ≠ '.' ∧ c ≠ 'e' ∧ c ≠ 'E'

theorem natOf_decimal (n : Nat) : natOf (Text.decimal n) = n := by
  have hfold (ds : List Char) (m : Nat) :
      ds.foldl (fun n c => n * 10 + (c.toNat - 48)) m = Nat.ofDigitChars 10 ds m := by
    induction ds generalizing m with
    | nil => rfl
    | cons d ds ih =>
      rw [List.foldl_cons, ih, Nat.ofDigitChars_cons, Nat.mul_comm]
      rfl
  rw [natOf, hfold]
  exact (Text.isDigits_decimal n).value

theorem head?_decimal_ne_zero {n : Nat} (hn : 0 < n) : (Text.decimal n).head? ≠ some '0' := by
  induction n using Nat.strongRecOn with
  | ind n ih =>
    by_cases hsmall : n < 10
    · rw [Text.decimal, Nat.toDigits_of_lt_base hsmall]
      have hdigits : ∀ k < 10, 0 < k → [Nat.digitChar k].head? ≠ some '0' := by decide
      exact hdigits n hsmall hn
    · have hfirst := ih (n / 10) (by omega) (by omega)
      rw [Text.decimal, Nat.toDigits_of_base_le (by decide) (by omega),
        List.head?_append_of_ne_nil _ Nat.toDigits_ne_nil]
      exact hfirst

theorem no_leading_zero (n : Nat) :
    ((Text.decimal n).length > 1 && (Text.decimal n).head? == some '0') = false := by
  cases n with
  | zero => rfl
  | succ n => simp [head?_decimal_ne_zero n.succ_pos]

theorem digitsOf_decimal (n : Nat) {rest : List Char} (hrest : EndsNumeral rest) :
    digitsOf (Text.decimal n ++ rest) = (Text.decimal n, rest) := by
  have hdigit : ∀ c ∈ Text.decimal n, c.isDigit = true := fun _ hc => Text.isDigit_of_mem_decimal hc
  rw [digitsOf, List.span_eq_takeWhile_dropWhile, List.takeWhile_append_of_pos hdigit,
    List.dropWhile_append_of_pos hdigit]
  cases rest with
  | nil => simp
  | cons c cs =>
    have hc : c.isDigit = false := (hrest c rfl).1
    simp [hc]

theorem EndsNumeral.readFraction_eq {rest : List Char} (hrest : EndsNumeral rest) :
    readFraction rest = some ([], rest) := by
  cases rest with
  | nil => rfl
  | cons c cs =>
    have hc : c ≠ '.' := (hrest c rfl).2.1
    simp [readFraction, hc]

theorem EndsNumeral.readExponent_eq {rest : List Char} (hrest : EndsNumeral rest) :
    readExponent rest = some (none, rest) := by
  cases rest with
  | nil => rfl
  | cons c cs =>
    obtain ⟨-, -, he, hE⟩ := hrest c rfl
    simp [readExponent, he, hE]

theorem readMagnitude_decimal {negative : Bool} {n : Nat} (hn : negative = true → 0 < n) {rest : List Char}
    (hrest : EndsNumeral rest) :
    readMagnitude negative (Text.decimal n ++ rest) = some (.integer (if negative then -(n : Int) else n), rest) := by
  have hempty : (Text.decimal n).isEmpty = false := List.isEmpty_eq_false_iff.2 (Text.decimal_ne_nil n)
  have hsign : (!(negative && n == 0)) = true := by
    cases negative with
    | false => rfl
    | true =>
      have hpos := hn rfl
      simp
      omega
  rw [readMagnitude]
  simp only [digitsOf_decimal n hrest, hempty, no_leading_zero, hrest.readFraction_eq, hrest.readExponent_eq,
    natOf_decimal, hsign]
  rfl

theorem toList_toString_negSucc (n : Nat) : (toString (Int.negSucc n)).toList = '-' :: Text.decimal (n + 1) := by
  change ("-" ++ (n + 1).repr).toList = _
  rw [String.toList_append, Nat.toList_repr]
  rfl

theorem readNumeral_written (n : Int) {rest : List Char} (hrest : EndsNumeral rest) :
    readNumeral ((toString n).toList ++ rest) = some (.integer n, rest) := by
  cases n with
  | ofNat n =>
    have hwritten : (toString (Int.ofNat n)).toList = Text.decimal n := Text.toList_toString n
    obtain ⟨d, ds, hd⟩ := List.exists_cons_of_ne_nil (Text.decimal_ne_nil n)
    have hread : readNumeral (Text.decimal n ++ rest) = readMagnitude false (Text.decimal n ++ rest) := by
      have hdigit := (hd ▸ Text.isDigits_decimal n : Text.IsDigits (d :: ds) n).head
      rw [hd, List.cons_append, readNumeral]
      intro r hr
      obtain ⟨rfl, -⟩ := List.cons.inj hr
      contradiction
    rw [hwritten, hread, readMagnitude_decimal (by simp) hrest]
    rfl
  | negSucc n =>
    rw [toList_toString_negSucc, List.cons_append, readNumeral, readMagnitude_decimal (by simp) hrest]
    rfl

/-! ## Texts -/

theorem hexUnit?_control (n : Nat) (hn : n < 0x20) :
    hexUnit? '0' '0' (hexDigit (n / 16)) (hexDigit (n % 16)) = some n := by
  have hall : ∀ n < 0x20, hexUnit? '0' '0' (hexDigit (n / 16)) (hexDigit (n % 16)) = some n := by decide
  exact hall n hn

theorem escapeChar_cases (c : Char) :
    ((c ≠ '"' ∧ c ≠ '\\' ∧ 0x20 ≤ c.toNat) ∧ escapeChar c = [c]) ∨
    (∃ d, shortEscape? d = some c ∧ d ≠ 'u' ∧ escapeChar c = ['\\', d]) ∨
    ∃ e f, hexUnit? '0' '0' e f = some c.toNat ∧ c.toNat < 0x20 ∧ escapeChar c = ['\\', 'u', '0', '0', e, f] := by
  fun_cases escapeChar c with
  | case1 => exact .inr (.inl ⟨'"', rfl, by decide, rfl⟩)
  | case2 => exact .inr (.inl ⟨'\\', rfl, by decide, rfl⟩)
  | case3 => exact .inr (.inl ⟨'b', rfl, by decide, rfl⟩)
  | case4 => exact .inr (.inl ⟨'f', rfl, by decide, rfl⟩)
  | case5 => exact .inr (.inl ⟨'n', rfl, by decide, rfl⟩)
  | case6 => exact .inr (.inl ⟨'r', rfl, by decide, rfl⟩)
  | case7 => exact .inr (.inl ⟨'t', rfl, by decide, rfl⟩)
  | case8 _ _ _ _ _ _ _ _ hcontrol => exact .inr (.inr ⟨_, _, hexUnit?_control _ hcontrol, hcontrol, rfl⟩)
  | case9 _ hquote hslash _ _ _ _ _ hcontrol => exact .inl ⟨⟨hquote, hslash, Nat.not_lt.1 hcontrol⟩, rfl⟩

theorem readText_escapeChar (acc : List Char) (c : Char) (r : List Char) :
    readText (some acc) (escapeChar c ++ r) = readText (some (c :: acc)) r := by
  rcases escapeChar_cases c with ⟨⟨hquote, hslash, hcontrol⟩, hc⟩ | ⟨d, hd, hu, hc⟩ | ⟨e, f, hunit, hlt, hc⟩
  · rw [hc, List.singleton_append, readText]
    · rw [if_neg (Nat.not_lt.2 hcontrol)]
      rfl
    · exact hquote
    · exact fun _ _ _ _ _ hslash' _ => hslash hslash'
    · exact fun _ _ hslash' _ => hslash hslash'
  · rw [hc, List.cons_append, List.singleton_append, readText]
    · simp only [hd]
      rfl
    · exact fun _ _ _ _ _ hu' _ => hu hu'
  · rw [hc]
    change readText (some acc) ('\\' :: 'u' :: '0' :: '0' :: e :: f :: r) = _
    rw [readText]
    simp only [hunit]
    have hlow : ¬(0xD800 ≤ c.toNat) := by omega
    have hlow' : ¬(0xDC00 ≤ c.toNat) := by omega
    simp [hlow, hlow']

theorem readText_written (s : String) (rest : List Char) :
    readText (some []) (s.toList.flatMap escapeChar ++ '"' :: rest) = some (some s, rest) := by
  have hchars (cs acc : List Char) : readText (some acc) (cs.flatMap escapeChar ++ '"' :: rest) =
      some (some (String.ofList (acc.reverse ++ cs)), rest) := by
    induction cs generalizing acc with
    | nil => simp [readText]
    | cons c cs ih => simp [readText_escapeChar, ih]
  rw [hchars, List.reverse_nil, List.nil_append, String.ofList_toList]

theorem toList_writeText (s : String) : (writeText s).toList = '"' :: (s.toList.flatMap escapeChar ++ ['"']) := by
  rw [writeText, String.toList_ofList]
  rfl

end ProcessProbe.Json
