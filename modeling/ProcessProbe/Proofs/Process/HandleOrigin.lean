import ProcessProbe.Proofs.Json.Integer
import ProcessProbe.Proofs.Process.TableDocument
import ProcessProbe.Proofs.Text.Words

/-!
# Where handles come from

A handle is made from a signed number, an unsigned one, a text or a document, and a document may also hold the handles
of a whole table. Main statement: the integers from 1 to 2147483647 are made handles and nothing else is, whatever gives
them, so the bits of a handle are the same number with a sign and without.
-/

namespace ProcessProbe

namespace Handle

theorem one_le_toInt (h : Handle) : 1 ≤ h.toInt := Int.ofNat_le.2 h.pid_pos

theorem toInt_le (h : Handle) : h.toInt ≤ 2147483647 := Int.ofNat_le.2 h.pid_le

theorem exists_toInt_eq_iff {n : Int} : (∃ h : Handle, h.toInt = n) ↔ 1 ≤ n ∧ n ≤ 2147483647 := by
  constructor
  · rintro ⟨h, rfl⟩
    exact ⟨h.one_le_toInt, h.toInt_le⟩
  · rintro ⟨hpos, hle⟩
    have hmax : n.toNat ≤ max := by
      rw [max]
      omega
    exact ⟨⟨n.toNat, by omega, hmax⟩, Int.toNat_of_nonneg (by omega)⟩

/-! ## The bits of a handle -/

theorem toInt_toInt32 (raw : UInt32) :
    raw.toInt32.toInt = if raw.toNat ≤ 2147483647 then (raw.toNat : Int) else raw.toNat - 4294967296 := by
  rw [← Int32.toInt_toBitVec, UInt32.toBitVec_toInt32, BitVec.toInt_eq_toNat_cond, UInt32.toNat_toBitVec]
  split <;> split <;> omega

theorem toInt_toInt32_pid (h : Handle) : h.pid.toUInt32.toInt32.toInt = h.pid := by
  have hle : h.pid ≤ 2147483647 := h.pid_le
  have hsize : h.pid < UInt32.size := Nat.lt_of_le_of_lt hle (by decide)
  have hbits : h.pid.toUInt32.toNat = h.pid := UInt32.toNat_ofNat_of_lt' hsize
  rw [toInt_toInt32, hbits, if_pos hle]

/-! ## What a handle is made of -/

theorem ofText_eq_ok_iff {s : List Char} {h : Handle} : ofText s = .ok h ↔ Text.IsInteger (Text.trim s) h.toInt := by
  rw [ofText]
  cases hread : Text.readI64? (Text.trim s) with
  | none =>
    have hlarge : h.toInt ≤ 9223372036854775807 := Int.le_trans h.toInt_le (by decide)
    have hsmall : -9223372036854775808 ≤ h.toInt := Int.le_trans (by decide) h.one_le_toInt
    have hnone : ¬Text.IsInteger (Text.trim s) h.toInt := by
      intro hinteger
      rw [Text.readI64?_eq_some_iff.2 ⟨hinteger, hsmall, hlarge⟩] at hread
      contradiction
    simp [hnone]
  | some raw =>
    obtain ⟨hraw, -⟩ := Text.readI64?_eq_some_iff.1 hread
    rw [ofInt_eq_ok_iff]
    exact ⟨fun heq => heq ▸ hraw, fun hinteger => hraw.unique hinteger⟩

/-- The handle that a text is read as. -/
def ofDocument? (text : String) : Option Handle := (Json.ofString? text).bind ofJson?

theorem ofDocument?_eq_some_iff {text : String} {h : Handle} :
    ofDocument? text = some h ↔ Json.IsBetweenBlanks text.toList (toString h.toInt).toList := by
  rw [ofDocument?, Option.bind_eq_some_iff, ← Json.ofString?_eq_integer_iff]
  simp [ofJson?_eq_some_iff, toInt]

/-- What a handle may be made from. -/
inductive Origin where
  | signed (raw : Int64)
  | unsigned (raw : UInt32)
  | text (s : List Char)
  | document (written : String)

namespace Origin

def handle? : Origin → Option Handle
  | signed raw => (ofInt raw.toInt).toOption
  | unsigned raw => (ofNat raw.toNat).toOption
  | text s => (ofText s).toOption
  | document written => ofDocument? written

/-- The integer that is given. A text may have a sign, leading zeros and blanks around it; a document has blanks only
beside the digits that are written. -/
def Gives : Origin → Int → Prop
  | signed raw, n => n = raw.toInt
  | unsigned raw, n => n = raw.toNat
  | text s, n => Text.IsInteger (Text.trim s) n
  | document written, n => Json.IsBetweenBlanks written.toList (toString n).toList

variable {o : Origin} {h : Handle}

theorem handle?_eq_some_iff : o.handle? = some h ↔ o.Gives h.toInt := by
  have hchecked (made : Except Failure Handle) : made.toOption = some h ↔ made = .ok h := by
    cases made <;> simp [Except.toOption]
  cases o with
  | signed raw => rw [handle?, hchecked, ofInt_eq_ok_iff, Gives, eq_comm]
  | unsigned raw => rw [handle?, hchecked, ofNat, ofInt_eq_ok_iff, Gives, eq_comm]
  | text s => rw [handle?, hchecked, ofText_eq_ok_iff, Gives]
  | document written => rw [handle?, ofDocument?_eq_some_iff, Gives]

theorem Gives.unique {m n : Int} (hm : o.Gives m) (hn : o.Gives n) : m = n := by
  cases o with
  | signed raw => exact hm.trans hn.symm
  | unsigned raw => exact hm.trans hn.symm
  | text s => exact Text.IsInteger.unique hm hn
  | document written =>
    have hread := (Json.ofString?_eq_integer_iff.2 hm).symm.trans (Json.ofString?_eq_integer_iff.2 hn)
    exact Json.integer.inj (Option.some.inj hread)

/-- Two origins of one integer come to one handle, or to none both. -/
theorem Gives.handle?_eq_some_iff {n : Int} (hn : o.Gives n) : o.handle? = some h ↔ h.toInt = n := by
  rw [Origin.handle?_eq_some_iff]
  exact ⟨fun hgives => hgives.unique hn, fun heq => heq ▸ hn⟩

theorem exists_handle?_iff : (∃ h, o.handle? = some h) ↔ ∃ n, o.Gives n ∧ 1 ≤ n ∧ n ≤ 2147483647 := by
  simp only [Origin.handle?_eq_some_iff, ← exists_toInt_eq_iff]
  constructor
  · rintro ⟨h, hgives⟩
    exact ⟨h.toInt, hgives, h, rfl⟩
  · rintro ⟨_, hgives, h, rfl⟩
    exact ⟨h, hgives⟩

end Origin

/-! ## Handles read back -/

theorem ofText_message (h : Handle) : ofText h.message.toList = .ok h := by
  have htrim : Text.trim (Text.decimal h.pid) = Text.decimal h.pid :=
    Text.trim_eq_self fun _ hc => Text.not_isBlank_of_mem_decimal hc
  rw [ofText_eq_ok_iff, message, Text.toList_toString, htrim]
  exact .numeral (.bare (Text.isDigits_decimal h.pid))

theorem ofDocument?_compact (h : Handle) : ofDocument? h.toJson.compact = some h := by
  rw [ofDocument?, Json.compact, toJson, Json.ofNat, (Json.Plain.integer h.pid).ofString?_writeAt none]
  exact ofJson?_eq_some_iff.2 rfl

end Handle

/-! ## The handles of a table -/

namespace Relation

/-- The item gives the number of a handle for the process, and for the parent that of a handle, null or nothing. -/
structure GivesHandles (item : Json) : Prop where
  process : ∃ n : Int, (givenIn item).1 = some (.integer n) ∧ 1 ≤ n ∧ n ≤ 2147483647
  parent : ∀ v, (givenIn item).2 = some v → v = .null ∨ ∃ n : Int, v = .integer n ∧ 1 ≤ n ∧ n ≤ 2147483647

theorem exists_givenBy_iff {item : Json} : (∃ r : Relation, r.GivenBy item) ↔ GivesHandles item := by
  constructor
  · rintro ⟨r, hprocess, hparent⟩
    refine ⟨⟨r.process.pid, hprocess, r.process.one_le_toInt, r.process.toInt_le⟩, ?_⟩
    intro v hv
    rw [hv] at hparent
    cases hr : r.parent with
    | none =>
      rw [hr] at hparent
      exact .inl (by simpa [GivesParent] using hparent)
    | some h =>
      rw [hr] at hparent
      exact .inr ⟨h.pid, Option.some.inj hparent, h.one_le_toInt, h.toInt_le⟩
  · rintro ⟨⟨n, hprocess, hn⟩, hparent⟩
    obtain ⟨process, rfl⟩ := Handle.exists_toInt_eq_iff.2 hn
    cases hv : (givenIn item).2 with
    | none => exact ⟨⟨process, none⟩, hprocess, .inl hv⟩
    | some v =>
      rcases hparent v hv with rfl | ⟨m, rfl, hm⟩
      · exact ⟨⟨process, none⟩, hprocess, .inr hv⟩
      · obtain ⟨parent, rfl⟩ := Handle.exists_toInt_eq_iff.2 hm
        exact ⟨⟨process, some parent⟩, hprocess, hv⟩

end Relation

namespace RelationTable

theorem ofText?_eq_some_iff {text : String} {t : RelationTable} :
    ofText? text = some t ↔ ∃ document items, Json.ofString? text = some document ∧ itemsIn? document = some items ∧
      List.Forall₂ Relation.GivenBy t.rows items := by
  rw [ofText?, Option.bind_eq_some_iff]
  simp only [ofJson?_eq_some_iff, exists_and_left]

theorem exists_rows_iff {items : List Json} :
    (∃ rows, List.Forall₂ Relation.GivenBy rows items) ↔ ∀ item ∈ items, Relation.GivesHandles item := by
  induction items with
  | nil => simp
  | cons item items ih =>
    rw [List.forall_mem_cons, ← ih, ← Relation.exists_givenBy_iff]
    constructor
    · rintro ⟨_, _ | ⟨hrow, hrows⟩⟩
      exact ⟨⟨_, hrow⟩, _, hrows⟩
    · rintro ⟨⟨r, hrow⟩, rows, hrows⟩
      exact ⟨r :: rows, .cons hrow hrows⟩

theorem exists_ofText?_iff {text : String} :
    (∃ t, ofText? text = some t) ↔ ∃ document items, Json.ofString? text = some document ∧
      itemsIn? document = some items ∧ ∀ item ∈ items, Relation.GivesHandles item := by
  simp only [ofText?_eq_some_iff, ← exists_rows_iff]
  constructor
  · rintro ⟨t, document, items, hdocument, hitems, hrows⟩
    exact ⟨document, items, hdocument, hitems, t.rows, hrows⟩
  · rintro ⟨document, items, hdocument, hitems, rows, hrows⟩
    exact ⟨⟨rows⟩, document, items, hdocument, hitems, hrows⟩

end RelationTable

end ProcessProbe
