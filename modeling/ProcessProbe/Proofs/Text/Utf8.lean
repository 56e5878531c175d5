import Mathlib.Data.List.Basic
import ProcessProbe.Text.Utf8

/-!
# UTF-8 read back

The encoding of a text is read as that text, and nothing else is read as a text. A byte below 128 always starts a new
piece, so a text around unknown bytes can be read exactly when those bytes can.
-/

namespace ProcessProbe.Utf8

private theorem between_ofNat {n : Nat} (hn : n < 256) (low high : UInt8) :
    (decide (low ≤ UInt8.ofNat n) && decide (UInt8.ofNat n ≤ high)) = decide (low.toNat ≤ n ∧ n ≤ high.toNat) := by
  have hb : (UInt8.ofNat n).toNat = n := UInt8.toNat_ofNat_of_lt' hn
  rw [Bool.eq_iff_iff]
  simp only [Bool.and_eq_true, decide_eq_true_eq, UInt8.le_iff_toNat_le, hb]

private theorem isTail_ofNat {y : Nat} (hy : y < 64) : isTail (UInt8.ofNat (y + 128)) = true := by
  have hn : y + 128 < 256 := by omega
  rw [isTail, between_ofNat hn]
  exact decide_eq_true ⟨Nat.le_add_left 128 y, Nat.le_of_lt_succ (by change y + 128 < 192; omega)⟩

private theorem tailBits_ofNat {y : Nat} (hy : y < 64) : tailBits (UInt8.ofNat (y + 128)) = y := by
  have hn : y + 128 < 256 := by omega
  rw [tailBits, UInt8.toNat_ofNat_of_lt' hn]
  omega

private theorem not_lt_ofNat {n : Nat} (hn : n < 256) (h : 128 ≤ n) : ¬UInt8.ofNat n < 0x80 := by
  rw [UInt8.lt_iff_toNat_lt, UInt8.toNat_ofNat_of_lt' hn]
  exact Nat.not_lt.2 h

private theorem next_two {x y : Nat} (hx : 2 ≤ x ∧ x < 32) (hy : y < 64) (rest : Bytes) :
    next (UInt8.ofNat (x + 192)) (UInt8.ofNat (y + 128) :: rest) = (.char (Char.ofNat (x * 64 + y)), rest) := by
  have hn : x + 192 < 256 := by omega
  have hlead : (UInt8.ofNat (x + 192)).toNat % 32 = x := by
    rw [UInt8.toNat_ofNat_of_lt' hn]
    omega
  have hclass : (0xC2 : UInt8).toNat ≤ x + 192 ∧ x + 192 ≤ (0xDF : UInt8).toNat := by
    change 194 ≤ x + 192 ∧ x + 192 ≤ 223
    omega
  rw [next.eq_def, if_neg (not_lt_ofNat hn (by omega)), if_pos (by rw [between_ofNat hn]; exact decide_eq_true hclass)]
  simp only [isTail_ofNat hy, tailBits_ofNat hy, hlead, if_true]

private theorem isSecondOfThree_ofNat {x y : Nat} (hx : x < 16) (hy : y < 64) (hlow : x = 0 → 32 ≤ y)
    (hhigh : x = 13 → y < 32) : isSecondOfThree (UInt8.ofNat (x + 224)) (UInt8.ofNat (y + 128)) = true := by
  have hn : x + 224 < 256 := by omega
  have hm : y + 128 < 256 := by omega
  have heq (k : Nat) (hk : k < 16) : UInt8.ofNat (x + 224) = UInt8.ofNat (k + 224) ↔ x = k := by
    rw [← UInt8.toNat_inj, UInt8.toNat_ofNat_of_lt' hn, UInt8.toNat_ofNat_of_lt' (by change k + 224 < 256; omega)]
    omega
  rw [isSecondOfThree]
  split
  · have h0 : x = 0 := (heq 0 (by decide)).1 ‹_›
    have hrange := hlow h0
    rw [between_ofNat hm]
    exact decide_eq_true (by change 160 ≤ y + 128 ∧ y + 128 ≤ 191; omega)
  · split
    · have h13 : x = 13 := (heq 13 (by decide)).1 ‹_›
      have hrange := hhigh h13
      rw [between_ofNat hm]
      exact decide_eq_true (by change 128 ≤ y + 128 ∧ y + 128 ≤ 159; omega)
    · exact isTail_ofNat hy

private theorem next_three {x y z : Nat} (hx : x < 16) (hy : y < 64) (hz : z < 64) (hlow : x = 0 → 32 ≤ y)
    (hhigh : x = 13 → y < 32) (rest : Bytes) :
    next (UInt8.ofNat (x + 224)) (UInt8.ofNat (y + 128) :: UInt8.ofNat (z + 128) :: rest) =
      (.char (Char.ofNat ((x * 64 + y) * 64 + z)), rest) := by
  have hn : x + 224 < 256 := by omega
  have hlead : (UInt8.ofNat (x + 224)).toNat % 16 = x := by
    rw [UInt8.toNat_ofNat_of_lt' hn]
    omega
  have hclass : (0xE0 : UInt8).toNat ≤ x + 224 ∧ x + 224 ≤ (0xEF : UInt8).toNat := by
    change 224 ≤ x + 224 ∧ x + 224 ≤ 239
    omega
  rw [next.eq_def, if_neg (not_lt_ofNat hn (by omega)), if_neg (by rw [between_ofNat hn]; simp),
    if_pos (by rw [between_ofNat hn]; exact decide_eq_true hclass)]
  simp only [isSecondOfThree_ofNat hx hy hlow hhigh, isTail_ofNat hz, tailBits_ofNat hy, tailBits_ofNat hz, hlead,
    if_true]

private theorem isSecondOfFour_ofNat {x y : Nat} (hx : x ≤ 4) (hy : y < 64) (hlow : x = 0 → 16 ≤ y)
    (hhigh : x = 4 → y < 16) : isSecondOfFour (UInt8.ofNat (x + 240)) (UInt8.ofNat (y + 128)) = true := by
  have hn : x + 240 < 256 := by omega
  have hm : y + 128 < 256 := by omega
  have heq (k : Nat) (hk : k < 16) : UInt8.ofNat (x + 240) = UInt8.ofNat (k + 240) ↔ x = k := by
    rw [← UInt8.toNat_inj, UInt8.toNat_ofNat_of_lt' hn, UInt8.toNat_ofNat_of_lt' (by change k + 240 < 256; omega)]
    omega
  rw [isSecondOfFour]
  split
  · have h0 : x = 0 := (heq 0 (by decide)).1 ‹_›
    have hrange := hlow h0
    rw [between_ofNat hm]
    exact decide_eq_true (by change 144 ≤ y + 128 ∧ y + 128 ≤ 191; omega)
  · split
    · have h4 : x = 4 := (heq 4 (by decide)).1 ‹_›
      have hrange := hhigh h4
      rw [between_ofNat hm]
      exact decide_eq_true (by change 128 ≤ y + 128 ∧ y + 128 ≤ 143; omega)
    · exact isTail_ofNat hy

private theorem next_four {x y z w : Nat} (hx : x ≤ 4) (hy : y < 64) (hz : z < 64) (hw : w < 64)
    (hlow : x = 0 → 16 ≤ y) (hhigh : x = 4 → y < 16) (rest : Bytes) :
    next (UInt8.ofNat (x + 240))
        (UInt8.ofNat (y + 128) :: UInt8.ofNat (z + 128) :: UInt8.ofNat (w + 128) :: rest) =
      (.char (Char.ofNat (((x * 64 + y) * 64 + z) * 64 + w)), rest) := by
  have hn : x + 240 < 256 := by omega
  have hlead : (UInt8.ofNat (x + 240)).toNat % 8 = x := by
    rw [UInt8.toNat_ofNat_of_lt' hn]
    omega
  have hclass : (0xF0 : UInt8).toNat ≤ x + 240 ∧ x + 240 ≤ (0xF4 : UInt8).toNat := by
    change 240 ≤ x + 240 ∧ x + 240 ≤ 244
    omega
  rw [next.eq_def, if_neg (not_lt_ofNat hn (by omega)), if_neg (by rw [between_ofNat hn]; simp),
    if_neg (by rw [between_ofNat hn]; simp),
    if_pos (by rw [between_ofNat hn]; exact decide_eq_true hclass)]
  simp only [isSecondOfFour_ofNat hx hy hlow hhigh, isTail_ofNat hz, isTail_ofNat hw, tailBits_ofNat hy,
    tailBits_ofNat hz, tailBits_ofNat hw, hlead, if_true]

/-- The encoding of a character is one piece, whatever follows it. -/
theorem next_encodeChar (c : Char) (rest : Bytes) :
    ∃ b bs, String.utf8EncodeChar c = b :: bs ∧ next b (bs ++ rest) = (.char c, rest) := by
  have hvalid : c.toNat < 0xd800 ∨ 0xdfff < c.toNat ∧ c.toNat < 0x110000 := c.valid
  have hback (n : Nat) (hn : n = c.toNat) : Char.ofNat n = c := by rw [hn, Char.ofNat_toNat]
  by_cases h1 : c.toNat ≤ 0x7f
  · refine ⟨_, _, if_pos h1, ?_⟩
    have hb : (UInt8.ofNat c.toNat).toNat = c.toNat := UInt8.toNat_ofNat_of_lt' (by change c.toNat < 256; omega)
    have hlt : UInt8.ofNat c.toNat < 0x80 := by
      rw [UInt8.lt_iff_toNat_lt, hb]
      exact Nat.lt_succ_of_le h1
    change next (UInt8.ofNat c.toNat) ([] ++ rest) = _
    rw [next.eq_def, if_pos hlt, hback _ hb]
    rfl
  by_cases h2 : c.toNat ≤ 0x7ff
  · refine ⟨_, _, (if_neg h1).trans (if_pos h2), ?_⟩
    refine (next_two (x := c.toNat / 64 % 32) (y := c.toNat % 64) (by omega) (by omega) rest).trans ?_
    rw [hback _ (by omega)]
  by_cases h3 : c.toNat ≤ 0xffff
  · refine ⟨_, _, (if_neg h1).trans ((if_neg h2).trans (if_pos h3)), ?_⟩
    refine (next_three (x := c.toNat / 4096 % 16) (y := c.toNat / 64 % 64) (z := c.toNat % 64) (by omega) (by omega)
      (by omega) (by omega) (by omega) rest).trans ?_
    rw [hback _ (by omega)]
  · refine ⟨_, _, (if_neg h1).trans ((if_neg h2).trans (if_neg h3)), ?_⟩
    refine (next_four (x := c.toNat / 262144 % 8) (y := c.toNat / 4096 % 64) (z := c.toNat / 64 % 64)
      (w := c.toNat % 64) (by omega) (by omega) (by omega) (by omega) (by omega) (by omega) rest).trans ?_
    rw [hback _ (by omega)]

theorem pieces_encode_append (s : List Char) (bytes : Bytes) :
    pieces (encode s ++ bytes) = s.map .char ++ pieces bytes := by
  induction s with
  | nil => rfl
  | cons c s ih =>
    obtain ⟨b, bs, hc, hnext⟩ := next_encodeChar c (encode s ++ bytes)
    have hencode : encode (c :: s) ++ bytes = b :: (bs ++ (encode s ++ bytes)) := by
      simp [encode, hc]
    rw [hencode, pieces_cons, hnext, ih]
    rfl

section Ascii

variable {a : UInt8} (ha : a < 0x80)

include ha

private theorem not_le_ascii {low : UInt8} (hlow : 0x80 ≤ low) : decide (low ≤ a) = false :=
  decide_eq_false (UInt8.not_le.2 (UInt8.lt_of_lt_of_le ha hlow))

private theorem isTail_ascii : isTail a = false := by
  rw [isTail, not_le_ascii ha (by decide), Bool.false_and]

private theorem isSecondOfThree_ascii (lead : UInt8) : isSecondOfThree lead a = false := by
  rw [isSecondOfThree, isTail_ascii ha, not_le_ascii ha (by decide), not_le_ascii ha (by decide)]
  simp

private theorem isSecondOfFour_ascii (lead : UInt8) : isSecondOfFour lead a = false := by
  rw [isSecondOfFour, isTail_ascii ha, not_le_ascii ha (by decide), not_le_ascii ha (by decide)]
  simp

theorem next_append_ascii (b : UInt8) (rest bytes : Bytes) :
    next b (rest ++ a :: bytes) = ((next b rest).1, (next b rest).2 ++ a :: bytes) := by
  have h1 := isTail_ascii ha
  have h3 := isSecondOfThree_ascii ha b
  have h4 := isSecondOfFour_ascii ha b
  -- The piece is settled within three more bytes, so it is enough to look at that many.
  rcases rest with _ | ⟨c, _ | ⟨d, _ | ⟨e, rest⟩⟩⟩ <;>
    simp only [next, List.nil_append, List.cons_append, h1, h3, h4] <;>
    grind

end Ascii

theorem pieces_append_ascii {a : UInt8} (ha : a < 0x80) (x y : Bytes) :
    pieces (x ++ a :: y) = pieces x ++ pieces (a :: y) := by
  induction h : x.length using Nat.strongRecOn generalizing x with
  | ind n ih =>
    subst h
    cases x with
    | nil => rw [pieces_nil, List.nil_append, List.nil_append]
    | cons b rest =>
      have hlt : (next b rest).2.length < (b :: rest).length := Nat.lt_succ_of_le (length_next_le b rest)
      rw [List.cons_append, pieces_cons, pieces_cons, next_append_ascii ha, ih _ hlt _ rfl]
      rfl

theorem pieces_encode (s : List Char) : pieces (encode s) = s.map .char := by
  rw [← List.append_nil (encode s), pieces_encode_append, pieces_nil, List.append_nil]

@[simp] theorem decodeLossy_encode (s : List Char) : decodeLossy (encode s) = s := by
  rw [decodeLossy, pieces_encode, List.map_map]
  exact List.map_id s

private theorem mapM_char? (s : List Char) : (s.map Piece.char).mapM Piece.char? = some s := by
  induction s with
  | nil => rfl
  | cons c s ih => simp [Piece.char?, ih]

@[simp] theorem decode?_encode (s : List Char) : decode? (encode s) = some s := by
  rw [decode?, pieces_encode, mapM_char?]

theorem encode_injective {s t : List Char} (h : encode s = encode t) : s = t := by
  have hdecode := congrArg decode? h
  rw [decode?_encode, decode?_encode] at hdecode
  exact Option.some.inj hdecode

theorem decode?_encode_append (s : List Char) (bytes : Bytes) :
    decode? (encode s ++ bytes) = (decode? bytes).map (s ++ ·) := by
  rw [decode?, pieces_encode_append, List.mapM_append, mapM_char?, decode?]
  cases (pieces bytes).mapM Piece.char? <;> rfl

theorem decode?_append_ascii {a : UInt8} (ha : a < 0x80) (x y : Bytes) :
    decode? (x ++ a :: y) = (decode? x).bind fun s => (decode? (a :: y)).map (s ++ ·) := by
  rw [decode?, pieces_append_ascii ha, List.mapM_append, decode?, decode?]
  cases (pieces x).mapM Piece.char? with
  | none => rfl
  | some s => cases (pieces (a :: y)).mapM Piece.char? <;> rfl

/-! ## What is read is an encoding -/

private theorem toNat_ofNat {n : Nat} (h : n.isValidChar) : (Char.ofNat n).toNat = n := by
  rw [Char.ofNat, dif_pos h]
  rfl

private theorem mod_ofNat {x k m : Nat} (hn : x + k < 256) (hx : (x + k) % m = x) :
    (UInt8.ofNat (x + k)).toNat % m = x := by
  rw [UInt8.toNat_ofNat_of_lt' hn, hx]

private theorem encodeChar_one {n : Nat} (hn : n < 128) : String.utf8EncodeChar (Char.ofNat n) = [UInt8.ofNat n] := by
  have hv : (Char.ofNat n).val.toNat = n := toNat_ofNat (.inl (by omega))
  have h1 : n ≤ 0x7f := by omega
  simp only [String.utf8EncodeChar, hv, if_pos h1]

private theorem encodeChar_two {x y : Nat} (hx : 2 ≤ x ∧ x < 32) (hy : y < 64) :
    String.utf8EncodeChar (Char.ofNat (x * 64 + y)) = [UInt8.ofNat (x + 192), UInt8.ofNat (y + 128)] := by
  have hv : (Char.ofNat (x * 64 + y)).val.toNat = x * 64 + y := toNat_ofNat (.inl (by omega))
  have h1 : ¬x * 64 + y ≤ 0x7f := by omega
  have h2 : x * 64 + y ≤ 0x7ff := by omega
  have hlead : (x * 64 + y) / 64 % 32 = x := by omega
  have htail : (x * 64 + y) % 64 = y := by omega
  simp only [String.utf8EncodeChar, hv, if_neg h1, if_pos h2, hlead, htail]

private theorem encodeChar_three {x y z : Nat} (hx : x < 16) (hy : y < 64) (hz : z < 64) (hlow : x = 0 → 32 ≤ y)
    (hhigh : x = 13 → y < 32) :
    String.utf8EncodeChar (Char.ofNat ((x * 64 + y) * 64 + z)) =
      [UInt8.ofNat (x + 224), UInt8.ofNat (y + 128), UInt8.ofNat (z + 128)] := by
  have hv : (Char.ofNat ((x * 64 + y) * 64 + z)).val.toNat = (x * 64 + y) * 64 + z :=
    toNat_ofNat (by rw [Nat.isValidChar]; omega)
  have h1 : ¬(x * 64 + y) * 64 + z ≤ 0x7f := by omega
  have h2 : ¬(x * 64 + y) * 64 + z ≤ 0x7ff := by omega
  have h3 : (x * 64 + y) * 64 + z ≤ 0xffff := by omega
  have hlead : ((x * 64 + y) * 64 + z) / 4096 % 16 = x := by omega
  have hsecond : ((x * 64 + y) * 64 + z) / 64 % 64 = y := by omega
  have hthird : ((x * 64 + y) * 64 + z) % 64 = z := by omega
  simp only [String.utf8EncodeChar, hv, if_neg h1, if_neg h2, if_pos h3, hlead, hsecond, hthird]

private theorem encodeChar_four {x y z w : Nat} (hx : x ≤ 4) (hy : y < 64) (hz : z < 64) (hw : w < 64)
    (hlow : x = 0 → 16 ≤ y) (hhigh : x = 4 → y < 16) :
    String.utf8EncodeChar (Char.ofNat (((x * 64 + y) * 64 + z) * 64 + w)) =
      [UInt8.ofNat (x + 240), UInt8.ofNat (y + 128), UInt8.ofNat (z + 128), UInt8.ofNat (w + 128)] := by
  have hv : (Char.ofNat (((x * 64 + y) * 64 + z) * 64 + w)).val.toNat = ((x * 64 + y) * 64 + z) * 64 + w :=
    toNat_ofNat (by rw [Nat.isValidChar]; omega)
  have h1 : ¬((x * 64 + y) * 64 + z) * 64 + w ≤ 0x7f := by omega
  have h2 : ¬((x * 64 + y) * 64 + z) * 64 + w ≤ 0x7ff := by omega
  have h3 : ¬((x * 64 + y) * 64 + z) * 64 + w ≤ 0xffff := by omega
  have hlead : (((x * 64 + y) * 64 + z) * 64 + w) / 262144 % 8 = x := by omega
  have hsecond : (((x * 64 + y) * 64 + z) * 64 + w) / 4096 % 64 = y := by omega
  have hthird : (((x * 64 + y) * 64 + z) * 64 + w) / 64 % 64 = z := by omega
  have hfourth : (((x * 64 + y) * 64 + z) * 64 + w) % 64 = w := by omega
  simp only [String.utf8EncodeChar, hv, if_neg h1, if_neg h2, if_neg h3, hlead, hsecond, hthird, hfourth]

private theorem exists_offset (base : Nat) {b low high : UInt8} (hbase : base ≤ low.toNat)
    (h : (decide (low ≤ b) && decide (b ≤ high)) = true) :
    ∃ n, b = UInt8.ofNat (n + base) ∧ low.toNat ≤ n + base ∧ n + base ≤ high.toNat := by
  simp only [Bool.and_eq_true, decide_eq_true_eq, UInt8.le_iff_toNat_le] at h
  have hn : b.toNat - base + base = b.toNat := Nat.sub_add_cancel (Nat.le_trans hbase h.1)
  refine ⟨b.toNat - base, ?_, ?_⟩
  · rw [hn, UInt8.ofNat_toNat]
  · rw [hn]
    exact h

private theorem exists_of_isTail {b : UInt8} (h : isTail b = true) : ∃ y < 64, b = UInt8.ofNat (y + 128) := by
  obtain ⟨y, hb, -, hhigh⟩ := exists_offset 128 (by decide) h
  have hy : y + 128 ≤ 191 := hhigh
  exact ⟨y, by omega, hb⟩

/-- The byte after the lead of a longer sequence. After the first such lead it has a floor, after the last a ceiling. -/
private theorem exists_of_isSecond {lead first last b floor ceiling : UInt8} (hne : first ≠ last)
    (hfloor : 128 ≤ floor.toNat) (hceiling : ceiling.toNat ≤ 191)
    (h : (if lead = first then floor ≤ b && b ≤ 0xBF
      else if lead = last then 0x80 ≤ b && b ≤ ceiling else isTail b) = true) :
    ∃ y < 64, b = UInt8.ofNat (y + 128) ∧ (lead = first → floor.toNat ≤ y + 128) ∧
      (lead = last → y + 128 ≤ ceiling.toNat) := by
  split at h
  · rename_i hfirst
    obtain ⟨y, hb, hlow, hhigh⟩ := exists_offset 128 hfloor h
    have hy : y + 128 ≤ 191 := hhigh
    exact ⟨y, by omega, hb, fun _ => hlow, fun hlast => absurd (hfirst.symm.trans hlast) hne⟩
  · rename_i hfirst
    split at h
    · obtain ⟨y, hb, -, hhigh⟩ := exists_offset 128 (by decide) h
      exact ⟨y, by omega, hb, fun h => absurd h hfirst, fun _ => hhigh⟩
    · rename_i hlast
      obtain ⟨y, hy, hb⟩ := exists_of_isTail h
      exact ⟨y, hy, hb, fun h => absurd h hfirst, fun h => absurd h hlast⟩

private theorem exists_of_isSecondOfThree {x : Nat} {b : UInt8} (h : isSecondOfThree (UInt8.ofNat (x + 224)) b = true) :
    ∃ y < 64, b = UInt8.ofNat (y + 128) ∧ (x = 0 → 32 ≤ y) ∧ (x = 13 → y < 32) := by
  obtain ⟨y, hy, hb, hfirst, hlast⟩ := exists_of_isSecond (by decide) (by decide) (by decide) h
  refine ⟨y, hy, hb, ?_, ?_⟩
  · rintro rfl
    have hlow : 160 ≤ y + 128 := hfirst rfl
    omega
  · rintro rfl
    have hhigh : y + 128 ≤ 159 := hlast rfl
    omega

private theorem exists_of_isSecondOfFour {x : Nat} {b : UInt8} (h : isSecondOfFour (UInt8.ofNat (x + 240)) b = true) :
    ∃ y < 64, b = UInt8.ofNat (y + 128) ∧ (x = 0 → 16 ≤ y) ∧ (x = 4 → y < 16) := by
  obtain ⟨y, hy, hb, hfirst, hlast⟩ := exists_of_isSecond (by decide) (by decide) (by decide) h
  refine ⟨y, hy, hb, ?_, ?_⟩
  · rintro rfl
    have hlow : 144 ≤ y + 128 := hfirst rfl
    omega
  · rintro rfl
    have hhigh : y + 128 ≤ 143 := hlast rfl
    omega

/-- A piece that is a character is that character's encoding. -/
theorem eq_encodeChar_of_next {b : UInt8} {rest : Bytes} {c : Char} (h : (next b rest).1 = .char c) :
    b :: rest = String.utf8EncodeChar c ++ (next b rest).2 := by
  revert h
  fun_cases next b rest with
  | case1 _ hascii =>
    intro h
    obtain rfl := Piece.char.inj h
    have hb : b.toNat < 128 := UInt8.lt_iff_toNat_lt.1 hascii
    rw [encodeChar_one hb, UInt8.ofNat_toNat]
    rfl
  | case2 _ hclass d r hd =>
    intro h
    obtain rfl := Piece.char.inj h
    obtain ⟨x, rfl, hlow, hhigh⟩ := exists_offset 192 (by decide) hclass
    obtain ⟨y, hy, rfl⟩ := exists_of_isTail hd
    have hrange : 194 ≤ x + 192 ∧ x + 192 ≤ 223 := ⟨hlow, hhigh⟩
    have hx : 2 ≤ x ∧ x < 32 := by omega
    rw [mod_ofNat (by omega) (by omega), tailBits_ofNat hy, encodeChar_two hx hy]
    rfl
  | case5 _ _ hclass d hd e s he =>
    intro h
    obtain rfl := Piece.char.inj h
    obtain ⟨x, rfl, hlow, hhigh⟩ := exists_offset 224 (by decide) hclass
    obtain ⟨y, hy, rfl, hfirst, hlast⟩ := exists_of_isSecondOfThree hd
    obtain ⟨z, hz, rfl⟩ := exists_of_isTail he
    have hrange : 224 ≤ x + 224 ∧ x + 224 ≤ 239 := ⟨hlow, hhigh⟩
    have hx : x < 16 := by omega
    rw [mod_ofNat (by omega) (by omega), tailBits_ofNat hy, tailBits_ofNat hz, encodeChar_three hx hy hz hfirst hlast]
    rfl
  | case10 _ _ _ hclass d hd e he f s hf =>
    intro h
    obtain rfl := Piece.char.inj h
    obtain ⟨x, rfl, hlow, hhigh⟩ := exists_offset 240 (by decide) hclass
    obtain ⟨y, hy, rfl, hfirst, hlast⟩ := exists_of_isSecondOfFour hd
    obtain ⟨z, hz, rfl⟩ := exists_of_isTail he
    obtain ⟨w, hw, rfl⟩ := exists_of_isTail hf
    have hrange : 240 ≤ x + 240 ∧ x + 240 ≤ 244 := ⟨hlow, hhigh⟩
    have hx : x ≤ 4 := by omega
    rw [mod_ofNat (by omega) (by omega), tailBits_ofNat hy, tailBits_ofNat hz, tailBits_ofNat hw,
      encodeChar_four hx hy hz hw hfirst hlast]
    rfl
  | _ =>
    intro h
    contradiction

/-- A text is read from no bytes but its encoding. -/
theorem decode?_eq_some_iff {bytes : Bytes} {s : List Char} : decode? bytes = some s ↔ encode s = bytes := by
  constructor
  · intro h
    induction hlength : bytes.length using Nat.strongRecOn generalizing bytes s with
    | ind n ih =>
      subst hlength
      cases bytes with
      | nil =>
        obtain rfl : s = [] := by simpa [decode?] using h
        rfl
      | cons b rest =>
        rw [decode?, pieces_cons, List.mapM_cons] at h
        obtain ⟨c, hc, h⟩ := Option.bind_eq_some_iff.1 h
        obtain ⟨cs, hcs, h⟩ := Option.bind_eq_some_iff.1 h
        obtain rfl : c :: cs = s := Option.some.inj h
        have hpiece : (next b rest).1 = .char c := by
          cases hnext : (next b rest).1 with
          | char d => rw [hnext] at hc; exact congrArg Piece.char (Option.some.inj hc)
          | invalid raw => rw [hnext] at hc; contradiction
        have hlt : (next b rest).2.length < (b :: rest).length := Nat.lt_succ_of_le (length_next_le b rest)
        rw [eq_encodeChar_of_next hpiece, ← ih _ hlt hcs rfl]
        rfl
  · rintro rfl
    exact decode?_encode s

/-! ## Lossy reading -/

def Piece.bytes : Piece → Bytes
  | .char c => String.utf8EncodeChar c
  | .invalid raw => raw

theorem bytes_next_append (b : UInt8) (rest : Bytes) : (next b rest).1.bytes ++ (next b rest).2 = b :: rest := by
  cases hpiece : (next b rest).1 with
  | char c => exact (eq_encodeChar_of_next hpiece).symm
  | invalid raw =>
    revert hpiece
    fun_cases next b rest
    all_goals
      intro hpiece
      cases hpiece
    all_goals rfl

theorem flatMap_bytes_pieces (bytes : Bytes) : (pieces bytes).flatMap Piece.bytes = bytes := by
  induction hlength : bytes.length using Nat.strongRecOn generalizing bytes with
  | ind n ih =>
    subst hlength
    cases bytes with
    | nil => rw [pieces_nil, List.flatMap_nil]
    | cons b rest =>
      have hlt : (next b rest).2.length < (b :: rest).length := Nat.lt_succ_of_le (length_next_le b rest)
      rw [pieces_cons, List.flatMap_cons, ih _ hlt _ rfl, bytes_next_append]

private theorem flatMap_bytes_of_shown {ps : List Piece} {s : List Char} (hs : '\uFFFD' ∉ s)
    (h : ps.map Piece.shown = s) : ps.flatMap Piece.bytes = encode s := by
  subst h
  induction ps with
  | nil => rfl
  | cons p ps ih =>
    rw [List.map_cons, List.mem_cons, not_or] at hs
    have hpiece : p.bytes = String.utf8EncodeChar p.shown := by
      cases p with
      | char c => rfl
      | invalid raw => exact absurd rfl hs.1
    rw [List.flatMap_cons, ih hs.2, hpiece]
    rfl

/-- What is shown ends in a text of characters below 128 just when the bytes end in its encoding. -/
theorem suffix_decodeLossy_iff {s : List Char} (hs : ∀ c ∈ s, c.toNat < 128) {bytes : Bytes} :
    s <:+ decodeLossy bytes ↔ encode s <:+ bytes := by
  constructor
  · intro h
    obtain ⟨before, hshown⟩ := h
    obtain ⟨ps, qs, hpieces, -, hqs⟩ := List.map_eq_append_iff.1 hshown.symm
    have hplain : '\uFFFD' ∉ s := fun hmem => absurd (hs _ hmem) (by decide)
    refine ⟨ps.flatMap Piece.bytes, ?_⟩
    rw [← flatMap_bytes_pieces bytes, hpieces, List.flatMap_append, flatMap_bytes_of_shown hplain hqs]
  · intro h
    obtain ⟨before, rfl⟩ := h
    cases s with
    | nil => exact List.nil_suffix
    | cons c cs =>
      have hc : c.toNat < 128 := hs c List.mem_cons_self
      have hlt : UInt8.ofNat c.toNat < 0x80 := by
        rw [UInt8.lt_iff_toNat_lt, UInt8.toNat_ofNat_of_lt' (by change c.toNat < 256; omega)]
        exact hc
      have hencode : encode (c :: cs) = UInt8.ofNat c.toNat :: encode cs := by
        have hone := encodeChar_one hc
        rw [Char.ofNat_toNat] at hone
        rw [encode, List.flatMap_cons, hone]
        rfl
      have hpieces : pieces (encode (c :: cs)) = (c :: cs).map .char := pieces_encode _
      rw [hencode] at hpieces ⊢
      refine ⟨decodeLossy before, ?_⟩
      rw [decodeLossy, decodeLossy, pieces_append_ascii hlt, hpieces, List.map_append, List.map_map]
      exact congrArg (_ ++ ·) (List.map_id _).symm

end ProcessProbe.Utf8
