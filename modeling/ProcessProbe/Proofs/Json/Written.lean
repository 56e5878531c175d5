import ProcessProbe.Proofs.Json.Token

/-!
# JSON values read back

Main statement: a value that has its fields in order, and no decimal fraction, is read back from what is written of it,
in the compact form and in the indented one.
-/

namespace ProcessProbe.Json

/-! ## Blanks -/

theorem skipBlanks_lineBreak (indent : Option Nat) (s : List Char) :
    skipBlanks ((lineBreak indent).toList ++ s) = skipBlanks s := by
  cases indent with
  | none => rfl
  | some depth => simp [lineBreak, skipBlanks]

theorem readValue_lineBreak (fuel : Nat) (indent : Option Nat) (s : List Char) :
    readValue fuel ((lineBreak indent).toList ++ s) = readValue fuel s := by
  cases fuel with
  | zero => rw [readValue, readValue]
  | succ fuel => rw [readValue, readValue, skipBlanks_lineBreak]

theorem readValue_blank (fuel : Nat) (s : List Char) : readValue fuel (' ' :: s) = readValue fuel s := by
  cases fuel with
  | zero => rw [readValue, readValue]
  | succ fuel => rw [readValue, readValue, skipBlanks, List.dropWhile_cons_of_pos rfl, ← skipBlanks]

/-! ## Fields in order -/

/-- The fields stand in the order of their names, and no name is repeated. -/
def Sorted {α : Type} (fields : List (String × α)) : Prop := fields.Pairwise fun f g => f.1 < g.1

theorem insertField_of_lt {α : Type} {name : String} {value : α} {fields : List (String × α)}
    (h : ∀ f ∈ fields, f.1 < name) : insertField name value fields = fields ++ [(name, value)] := by
  induction fields with
  | nil => rfl
  | cons f fields ih =>
    have hf : f.1 < name := h f List.mem_cons_self
    have hne : name ≠ f.1 := fun heq => String.lt_irrefl name (heq ▸ hf)
    rw [insertField, if_neg (String.lt_asymm hf), if_neg hne, ih fun g hg => h g (List.mem_cons_of_mem f hg)]
    rfl

theorem Sorted.sortFields_eq {α : Type} {fields : List (String × α)} (h : Sorted fields) :
    sortFields fields = fields := by
  have hfold (done rest : List (String × α)) (h : Sorted (done ++ rest)) :
      rest.foldl (fun sorted f => insertField f.1 f.2 sorted) done = done ++ rest := by
    induction rest generalizing done with
    | nil => simp
    | cons f rest ih =>
      have hlt : ∀ g ∈ done, g.1 < f.1 := fun g hg => (List.pairwise_append.1 h).2.2 g hg f List.mem_cons_self
      rw [List.foldl_cons, insertField_of_lt hlt, ih _ (by simpa using h)]
      simp
  exact hfold [] fields h

theorem mem_insertField {α : Type} {name : String} {value : α} {fields : List (String × α)} {f : String × α}
    (hf : f ∈ insertField name value fields) : f = (name, value) ∨ f ∈ fields := by
  induction fields with
  | nil => simpa [insertField] using hf
  | cons g fields ih =>
    rw [insertField] at hf
    split at hf
    · simpa using hf
    · split at hf
      · simp at hf ⊢
        tauto
      · rw [List.mem_cons] at hf ⊢
        rcases hf with rfl | hf
        · simp
        · rcases ih hf with rfl | hmem
          · simp
          · simp [hmem]

theorem Sorted.insertField {α : Type} {fields : List (String × α)} (h : Sorted fields) (name : String) (value : α) :
    Sorted (insertField name value fields) := by
  induction fields with
  | nil => simp [Json.insertField, Sorted]
  | cons f fields ih =>
    obtain ⟨hfirst, hrest⟩ := List.pairwise_cons.1 h
    rw [Json.insertField]
    split
    · rename_i hlt
      apply List.pairwise_cons.2
      refine ⟨?_, h⟩
      intro g hg
      rcases List.mem_cons.1 hg with rfl | hg
      · exact hlt
      · exact String.lt_trans hlt (hfirst g hg)
    · rename_i hle
      split
      · rename_i heq
        exact List.pairwise_cons.2 ⟨fun g hg => heq ▸ hfirst g hg, hrest⟩
      · rename_i hne
        apply List.pairwise_cons.2
        refine ⟨?_, ih hrest⟩
        intro g hg
        rcases mem_insertField hg with rfl | hg
        · exact Std.lt_of_le_of_ne (String.not_lt.1 hle) (Ne.symm hne)
        · exact hfirst g hg

theorem map_insertField {α β : Type} (write : α → β) (name : String) (value : α) (fields : List (String × α)) :
    (insertField name value fields).map (fun f => (f.1, write f.2)) =
      insertField name (write value) (fields.map fun f => (f.1, write f.2)) := by
  induction fields with
  | nil => rfl
  | cons f fields ih =>
    rw [List.map_cons, insertField, insertField]
    split
    · simp
    · split
      · simp
      · simp [ih]

/-- By induction on the fields that are still to come, with an invariant for those that have their place already. -/
theorem foldl_insertField {α : Type} (holds : List (String × α) → Prop) {done rest : List (String × α)}
    (hdone : holds done) (hstep : ∀ f ∈ rest, ∀ sorted, holds sorted → holds (insertField f.1 f.2 sorted)) :
    holds (rest.foldl (fun sorted f => insertField f.1 f.2 sorted) done) := by
  induction rest generalizing done with
  | nil => exact hdone
  | cons f rest ih =>
    exact ih (hstep f List.mem_cons_self done hdone) fun g hg => hstep g (List.mem_cons_of_mem f hg)

theorem sorted_sortFields {α : Type} (fields : List (String × α)) : Sorted (sortFields fields) :=
  foldl_insertField Sorted List.Pairwise.nil fun f _ _ hsorted => hsorted.insertField f.1 f.2

theorem mem_of_mem_sortFields {α : Type} {fields : List (String × α)} {f : String × α} (hf : f ∈ sortFields fields) :
    f ∈ fields := by
  have hall : ∀ g ∈ sortFields fields, g ∈ fields := by
    apply foldl_insertField fun sorted => ∀ g ∈ sorted, g ∈ fields
    · simp
    · intro f hf sorted hsorted g hg
      rcases mem_insertField hg with rfl | hg
      · exact hf
      · exact hsorted g hg
  exact hall f hf

theorem map_sortFields {α β : Type} (write : α → β) (fields : List (String × α)) :
    (sortFields fields).map (fun f => (f.1, write f.2)) = sortFields (fields.map fun f => (f.1, write f.2)) := by
  have hfold (done : List (String × α)) :
      (fields.foldl (fun sorted f => insertField f.1 f.2 sorted) done).map (fun f => (f.1, write f.2)) =
        (fields.map fun f => (f.1, write f.2)).foldl (fun sorted f => insertField f.1 f.2 sorted)
          (done.map fun f => (f.1, write f.2)) := by
    induction fields generalizing done with
    | nil => rfl
    | cons f fields ih =>
      rw [List.foldl_cons, ih, map_insertField]
      rfl
  exact hfold []

/-! ## Values -/

/-- A value whose fields stand in order. It has no decimal fraction, and no text that names no character. -/
inductive Plain : Json → Prop where
  | null : Plain .null
  | bool (b : Bool) : Plain (.bool b)
  | integer (n : Int) : Plain (.integer n)
  | text (s : String) : Plain (.text s)
  | array {items : List Json} (h : ∀ v ∈ items, Plain v) : Plain (.array items)
  | object {fields : List (String × Json)} (hsorted : Sorted fields) (h : ∀ f ∈ fields, Plain f.2) :
      Plain (.object fields)

/-- The value is read back from what is written, with room for each character. -/
def IsReadBack (v : Json) : Prop :=
  ∀ (indent : Option Nat) (fuel : Nat) (rest : List Char), EndsNumeral rest → (writeAt indent v).toList.length ≤ fuel →
    readValue fuel ((writeAt indent v).toList ++ rest) = some (v, rest)

theorem toList_writeItems (indent : Option Nat) (out : String) (items : List Json) :
    (writeItems indent out items).toList =
      out.toList ++ items.flatMap fun v => ',' :: ((lineBreak indent).toList ++ (writeAt indent v).toList) := by
  induction items generalizing out with
  | nil => simp [writeItems]
  | cons v items ih => 
    rw [writeItems, ih]
    simp

theorem writeFields_eq (indent : Option Nat) (fields : List (String × Json)) :
    writeFields indent fields = fields.map fun f => (f.1, writeAt indent f.2) := by
  induction fields with
  | nil => rfl
  | cons f fields ih => rw [writeFields, ih]; rfl

/-- The first character of what is written: no blank, and none that closes an array. -/
def StartsValue (c : Char) : Prop := c ≠ ' ' ∧ c ≠ '\n' ∧ c ≠ '\t' ∧ c ≠ '\r' ∧ c ≠ ']'

theorem StartsValue.skipBlanks_eq {c : Char} (h : StartsValue c) (s : List Char) : skipBlanks (c :: s) = c :: s := by
  obtain ⟨hblank, hline, htab, hreturn, -⟩ := h
  simp [skipBlanks, hblank, hline, htab, hreturn]

theorem exists_first_of_int (n : Int) :
    ∃ c cs, (toString n).toList = c :: cs ∧ (c.isDigit = true ∨ c = '-') := by
  cases n with
  | ofNat n =>
    obtain ⟨d, ds, hd⟩ := List.exists_cons_of_ne_nil (Text.decimal_ne_nil n)
    refine ⟨d, ds, (Text.toList_toString n).trans hd, .inl ?_⟩
    exact (hd ▸ Text.isDigits_decimal n : Text.IsDigits (d :: ds) n).head
  | negSucc n => exact ⟨'-', _, toList_toString_negSucc n, .inr rfl⟩

theorem startsValue_of_numeral {c : Char} (h : c.isDigit = true ∨ c = '-') : StartsValue c := by
  rcases h with h | rfl
  · refine ⟨?_, ?_, ?_, ?_, ?_⟩ <;> rintro rfl <;> contradiction
  · simp [StartsValue]

theorem Plain.exists_first {v : Json} (hv : Plain v) (indent : Option Nat) :
    ∃ c cs, (writeAt indent v).toList = c :: cs ∧ StartsValue c := by
  cases hv with
  | null => exact ⟨'n', "ull".toList, by simp [writeAt], by simp [StartsValue]⟩
  | bool b =>
    cases b with
    | false => exact ⟨'f', "alse".toList, by simp [writeAt], by simp [StartsValue]⟩
    | true => exact ⟨'t', "rue".toList, by simp [writeAt], by simp [StartsValue]⟩
  | integer n =>
    obtain ⟨c, cs, hn, hc⟩ := exists_first_of_int n
    exact ⟨c, cs, by rw [writeAt, hn], startsValue_of_numeral hc⟩
  | text s => exact ⟨'"', _, by rw [writeAt, toList_writeText], by simp [StartsValue]⟩
  | @array items h =>
    refine ⟨'[', ?_⟩
    cases items with
    | nil => exact ⟨[']'], by simp [writeAt], by simp [StartsValue]⟩
    | cons v items => 
      refine ⟨_, by simp [writeAt, toList_writeItems]; rfl, by simp [StartsValue]⟩
  | @object fields hsorted h =>
    refine ⟨'\x7b', ?_⟩
    rw [writeAt]
    split
    · exact ⟨['\x7d'], rfl, by simp [StartsValue]⟩
    · refine ⟨_, by simp; rfl, by simp [StartsValue]⟩

theorem exists_succ {s : List Char} {fuel : Nat} (hs : ∃ c cs, s = c :: cs ∧ StartsValue c) (h : s.length ≤ fuel) :
    ∃ n, fuel = n + 1 := by
  obtain ⟨c, cs, rfl, -⟩ := hs
  exact Nat.exists_eq_succ_of_ne_zero (by rw [List.length_cons] at h; omega)

theorem readValue_numeral (fuel : Nat) {c : Char} (hc : c.isDigit = true ∨ c = '-') (s : List Char) :
    readValue (fuel + 1) (c :: s) = readNumeral (c :: s) := by
  have hne : c ≠ 'n' ∧ c ≠ 't' ∧ c ≠ 'f' ∧ c ≠ '"' ∧ c ≠ '[' ∧ c ≠ '\x7b' := by
    rcases hc with hc | rfl
    · refine ⟨?_, ?_, ?_, ?_, ?_, ?_⟩ <;> rintro rfl <;> contradiction
    · decide
  rw [readValue, (startsValue_of_numeral hc).skipBlanks_eq]
  split
  all_goals simp_all

theorem endsNumeral_of_blank_or_mark {c : Char} (h : c ∈ [',', ']', '\x7d', '\n', ' ']) (s : List Char) :
    EndsNumeral (c :: s) := by
  intro d hd
  obtain rfl : c = d := by simpa using hd
  revert h
  simp only [List.mem_cons, List.not_mem_nil, or_false]
  rintro (rfl | rfl | rfl | rfl | rfl) <;> decide

theorem endsNumeral_lineBreak {c : Char} (h : c ∈ [',', ']', '\x7d']) (indent : Option Nat) (s : List Char) :
    EndsNumeral ((lineBreak indent).toList ++ c :: s) := by
  cases indent with
  | none => exact endsNumeral_of_blank_or_mark (by simp_all; tauto) s
  | some depth =>
    have hbreak : ∃ cs, (lineBreak (some depth)).toList = '\n' :: cs := ⟨_, by simp [lineBreak]; rfl⟩
    obtain ⟨cs, hcs⟩ := hbreak
    rw [hcs]
    exact endsNumeral_of_blank_or_mark (by simp) _

/-- Parts with commas between them are read one by one, when each is read up to the comma or the bracket behind it. -/
theorem readParts_written {α : Type} (write : α → List Char)
    (read : Nat → List α → List Char → Option (Json × List Char)) (made : List α → Json) {gap ending rest : List Char}
    {x : α} {xs : List α}
    (hnext : ∀ y ∈ x :: xs, ∀ done fuel r, (write y).length ≤ fuel →
      read (fuel + 1) done (gap ++ (write y ++ ',' :: r)) = read fuel (y :: done) r)
    (hlast : ∀ y ∈ x :: xs, ∀ done fuel, (write y).length ≤ fuel →
      read (fuel + 1) done (gap ++ (write y ++ ending)) = some (made (y :: done).reverse, rest))
    (done : List α) (fuel : Nat)
    (hfuel : (write x ++ xs.flatMap fun y => ',' :: (gap ++ write y)).length ≤ fuel) :
    read (fuel + 1) done (gap ++ (write x ++ ((xs.flatMap fun y => ',' :: (gap ++ write y)) ++ ending))) =
      some (made (done.reverse ++ x :: xs), rest) := by
  have hroom : (write x).length ≤ fuel := by
    rw [List.length_append] at hfuel
    omega
  induction xs generalizing x done fuel with
  | nil => simpa using hlast x List.mem_cons_self done fuel hroom
  | cons y ys ih =>
    have hmore : ((y :: ys).flatMap fun z => ',' :: (gap ++ write z)) =
        ',' :: (gap ++ (write y ++ ys.flatMap fun z => ',' :: (gap ++ write z))) := by
      simp
    rw [hmore] at hfuel ⊢
    simp only [List.length_append, List.length_cons] at hfuel
    obtain ⟨fuel, rfl⟩ := Nat.exists_eq_succ_of_ne_zero (show fuel ≠ 0 by omega)
    have hys := ih (fun z hz => hnext z (List.mem_cons_of_mem x hz)) (fun z hz => hlast z (List.mem_cons_of_mem x hz))
      (x :: done) fuel (by rw [List.length_append]; omega) (by omega)
    rw [List.cons_append, hnext x List.mem_cons_self done _ _ hroom]
    simpa using hys

/-- What is written of the items after the first. -/
def moreItems (indent : Option Nat) (items : List Json) : List Char :=
  items.flatMap fun v => ',' :: ((lineBreak indent).toList ++ (writeAt indent v).toList)

theorem readItems_step {item : Json} (hitem : IsReadBack item) (done : List Json) (inner : Option Nat) {fuel : Nat}
    {after : List Char} (hend : EndsNumeral after) (hfuel : (writeAt inner item).toList.length ≤ fuel) :
    readItems (fuel + 1) done ((lineBreak inner).toList ++ ((writeAt inner item).toList ++ after)) =
      match skipBlanks after with
      | ',' :: r => readItems fuel (item :: done) r
      | ']' :: r => some (.array (item :: done).reverse, r)
      | _ => none := by
  have hread := hitem inner fuel after hend hfuel
  rw [readItems, readValue_lineBreak]
  generalize readValue fuel ((writeAt inner item).toList ++ after) = read at hread
  subst hread
  rfl

theorem readItems_written {item : Json} {items : List Json} (hitems : ∀ v ∈ item :: items, IsReadBack v)
    (inner outer : Option Nat) (fuel : Nat) (rest : List Char)
    (hfuel : ((writeAt inner item).toList ++ moreItems inner items).length ≤ fuel) :
    readItems (fuel + 1) [] ((lineBreak inner).toList ++ ((writeAt inner item).toList ++ (moreItems inner items ++
      ((lineBreak outer).toList ++ ']' :: rest)))) = some (.array (item :: items), rest) := by
  refine readParts_written (fun v => (writeAt inner v).toList) readItems .array ?_ ?_ [] fuel hfuel
  · intro v hv done fuel r hroom
    have hend : EndsNumeral (',' :: r) := endsNumeral_of_blank_or_mark (by simp) r
    exact readItems_step (hitems v hv) done inner hend hroom
  · intro v hv done fuel hroom
    have hend : EndsNumeral ((lineBreak outer).toList ++ ']' :: rest) := endsNumeral_lineBreak (by simp) outer rest
    have hgap : skipBlanks ((lineBreak outer).toList ++ ']' :: rest) = ']' :: rest := skipBlanks_lineBreak outer _
    simp only [readItems_step (hitems v hv) done inner hend hroom, hgap]

/-- What is written of a field: its name, and then its value after a colon. -/
def fieldText (outer inner : Option Nat) (f : String × Json) : List Char :=
  (writeText f.1).toList ++ ':' :: ((if outer.isSome then [' '] else []) ++ (writeAt inner f.2).toList)

def moreFields (outer inner : Option Nat) (fields : List (String × Json)) : List Char :=
  fields.flatMap fun f => ',' :: ((lineBreak inner).toList ++ fieldText outer inner f)

theorem readFields_step {field : String × Json} (hfield : IsReadBack field.2) (done : List (String × Json))
    (outer inner : Option Nat) {fuel : Nat} {after : List Char} (hend : EndsNumeral after)
    (hfuel : (fieldText outer inner field).length ≤ fuel) :
    readFields (fuel + 1) true done ((lineBreak inner).toList ++ (fieldText outer inner field ++ after)) =
      match skipBlanks after with
      | ',' :: r => readFields fuel true (field :: done) r
      | '\x7d' :: r => some (.object (field :: done).reverse, r)
      | _ => none := by
  obtain ⟨name, v⟩ := field
  have hroom : (writeAt inner v).toList.length ≤ fuel := by
    simp only [fieldText, List.length_append, List.length_cons] at hfuel
    omega
  have hvalue : readValue fuel ((if outer.isSome then [' '] else []) ++ ((writeAt inner v).toList ++ after)) =
      some (v, after) := by
    cases outer with
    | none => exact hfield inner fuel after hend hroom
    | some depth => exact (readValue_blank fuel _).trans (hfield inner fuel after hend hroom)
  have htext : fieldText outer inner (name, v) ++ after = '"' :: (name.toList.flatMap escapeChar ++ '"' ::
      ':' :: ((if outer.isSome then [' '] else []) ++ ((writeAt inner v).toList ++ after))) := by
    simp [fieldText, toList_writeText]
  have hquote (s : List Char) : skipBlanks ('"' :: s) = '"' :: s := rfl
  have hcolon (s : List Char) : skipBlanks (':' :: s) = ':' :: s := rfl
  rw [htext, readFields, skipBlanks_lineBreak, hquote]
  simp only [readText_written, hcolon, hvalue]
  rfl

theorem readFields_written {field : String × Json} {fields : List (String × Json)}
    (hfields : ∀ f ∈ field :: fields, IsReadBack f.2) (outer inner : Option Nat) (fuel : Nat) (rest : List Char)
    (hfuel : (fieldText outer inner field ++ moreFields outer inner fields).length ≤ fuel) :
    readFields (fuel + 1) true [] ((lineBreak inner).toList ++ (fieldText outer inner field ++
      (moreFields outer inner fields ++ ((lineBreak outer).toList ++ '\x7d' :: rest)))) =
      some (.object (field :: fields), rest) := by
  refine readParts_written (fieldText outer inner) (readFields · true) .object ?_ ?_ [] fuel hfuel
  · intro f hf done fuel r hroom
    have hend : EndsNumeral (',' :: r) := endsNumeral_of_blank_or_mark (by simp) r
    exact readFields_step (hfields f hf) done outer inner hend hroom
  · intro f hf done fuel hroom
    have hend : EndsNumeral ((lineBreak outer).toList ++ '\x7d' :: rest) := endsNumeral_lineBreak (by simp) outer rest
    have hgap : skipBlanks ((lineBreak outer).toList ++ '\x7d' :: rest) = '\x7d' :: rest :=
      skipBlanks_lineBreak outer _
    simp only [readFields_step (hfields f hf) done outer inner hend hroom, hgap]

theorem toList_writeAt_array (indent : Option Nat) (item : Json) (items : List Json) :
    (writeAt indent (.array (item :: items))).toList =
      '[' :: ((lineBreak (indent.map (· + 1))).toList ++ ((writeAt (indent.map (· + 1)) item).toList ++
        (moreItems (indent.map (· + 1)) items ++ ((lineBreak indent).toList ++ [']'])))) := by
  simp [writeAt, toList_writeItems, moreItems]

theorem intercalate_cons {α : Type} (sep x : List α) (xs : List (List α)) :
    sep.intercalate (x :: xs) = x ++ xs.flatMap (sep ++ ·) := by
  induction xs generalizing x with
  | nil => simp
  | cons y xs ih => rw [List.intercalate_cons_cons, ih]; simp

theorem toList_writeAt_object (indent : Option Nat) {field : String × Json} {fields : List (String × Json)}
    (hsorted : Sorted (field :: fields)) :
    (writeAt indent (.object (field :: fields))).toList =
      '\x7b' :: ((lineBreak (indent.map (· + 1))).toList ++ (fieldText indent (indent.map (· + 1)) field ++
        (moreFields indent (indent.map (· + 1)) fields ++ ((lineBreak indent).toList ++ ['\x7d'])))) := by
  have hwritten (i : Option Nat) : sortFields (writeFields i (field :: fields)) =
      (field :: fields).map fun f => (f.1, writeAt i f.2) := by
    rw [writeFields_eq]
    exact Sorted.sortFields_eq (List.pairwise_map.2 hsorted)
  rw [writeAt, hwritten]
  simp only [List.map_cons, List.isEmpty_cons]
  cases indent with
  | none => simp [String.toList_intercalate, intercalate_cons, fieldText, moreFields, List.flatMap_map]
  | some depth => simp [String.toList_intercalate, intercalate_cons, fieldText, moreFields, List.flatMap_map]

/-- What follows an opening bracket is an item, since an item does not start with the closing one. -/
theorem Plain.readValue_open {item : Json} (hitem : Plain item) (inner : Option Nat) (fuel : Nat) (r : List Char) :
    readValue (fuel + 1) ('[' :: ((lineBreak inner).toList ++ ((writeAt inner item).toList ++ r))) =
      readItems fuel [] ((lineBreak inner).toList ++ ((writeAt inner item).toList ++ r)) := by
  obtain ⟨c, cs, hfirst, hc⟩ := hitem.exists_first inner
  have hopen (s : List Char) : skipBlanks ('[' :: s) = '[' :: s := rfl
  rw [readValue, hopen, hfirst]
  simp only [skipBlanks_lineBreak, List.cons_append, hc.skipBlanks_eq]
  split
  · rename_i heq
    exact absurd (List.cons.inj heq).1 hc.2.2.2.2
  · rfl

theorem readValue_openFields (outer inner : Option Nat) (field : String × Json) (fuel : Nat) (r : List Char) :
    readValue (fuel + 1) ('\x7b' :: ((lineBreak inner).toList ++ (fieldText outer inner field ++ r))) =
      readFields fuel true [] ((lineBreak inner).toList ++ (fieldText outer inner field ++ r)) := by
  have hopen (s : List Char) : skipBlanks ('\x7b' :: s) = '\x7b' :: s := rfl
  have hquote (s : List Char) : skipBlanks ('"' :: s) = '"' :: s := rfl
  rw [readValue, hopen]
  simp only [skipBlanks_lineBreak, fieldText, toList_writeText, List.cons_append, hquote]
  rfl

/-- By induction on the value: its parts are read back with the room that is left behind its first character. -/
theorem Plain.isReadBack {v : Json} (hv : Plain v) : IsReadBack v := by
  induction hv with
  | null =>
    intro indent fuel rest hrest hfuel
    obtain ⟨fuel, rfl⟩ := exists_succ (Plain.null.exists_first indent) hfuel
    simp [writeAt, readValue, skipBlanks]
  | bool b =>
    intro indent fuel rest hrest hfuel
    obtain ⟨fuel, rfl⟩ := exists_succ ((Plain.bool b).exists_first indent) hfuel
    cases b with
    | false => simp [writeAt, readValue, skipBlanks]
    | true => simp [writeAt, readValue, skipBlanks]
  | integer n =>
    intro indent fuel rest hrest hfuel
    obtain ⟨fuel, rfl⟩ := exists_succ ((Plain.integer n).exists_first indent) hfuel
    obtain ⟨c, cs, hn, hc⟩ := exists_first_of_int n
    have hread := readNumeral_written n hrest
    rw [writeAt, hn, List.cons_append, readValue_numeral fuel hc, ← List.cons_append, ← hn, hread]
  | text s =>
    intro indent fuel rest hrest hfuel
    obtain ⟨fuel, rfl⟩ := exists_succ ((Plain.text s).exists_first indent) hfuel
    simp [writeAt, toList_writeText, readValue, skipBlanks, readText_written]
  | @array items h ih =>
    intro indent fuel rest hrest hfuel
    cases items with
    | nil =>
      obtain ⟨fuel, rfl⟩ := exists_succ ((Plain.array h).exists_first indent) hfuel
      simp [writeAt, readValue, skipBlanks]
    | cons item items =>
      rw [toList_writeAt_array] at hfuel ⊢
      generalize indent.map (· + 1) = inner at hfuel ⊢
      simp only [List.length_cons, List.length_append] at hfuel
      obtain ⟨fuel, rfl⟩ : ∃ n, fuel = n + 1 + 1 := Nat.exists_eq_add_of_le' (show 2 ≤ fuel by omega)
      have hitems := readItems_written ih inner indent fuel rest (by rw [List.length_append]; omega)
      simpa [(h item List.mem_cons_self).readValue_open] using hitems
  | @object fields hsorted h ih =>
    intro indent fuel rest hrest hfuel
    cases fields with
    | nil =>
      obtain ⟨fuel, rfl⟩ := exists_succ ((Plain.object hsorted h).exists_first indent) hfuel
      simp [writeAt, writeFields, sortFields, readValue, skipBlanks]
    | cons field fields =>
      rw [toList_writeAt_object indent hsorted] at hfuel ⊢
      generalize indent.map (· + 1) = inner at hfuel ⊢
      simp only [List.length_cons, List.length_append] at hfuel
      obtain ⟨fuel, rfl⟩ : ∃ n, fuel = n + 1 + 1 := Nat.exists_eq_add_of_le' (show 2 ≤ fuel by omega)
      have hfields := readFields_written ih indent inner fuel rest (by rw [List.length_append]; omega)
      simpa [readValue_openFields] using hfields

/-- A plain value is read back from what is written, with indentation or without. -/
theorem Plain.ofString?_writeAt {v : Json} (hv : Plain v) (indent : Option Nat) :
    ofString? (writeAt indent v) = some v := by
  have hend : EndsNumeral [] := by simp [EndsNumeral]
  have hread := hv.isReadBack indent ((writeAt indent v).toList.length + 1) [] hend (Nat.le_succ _)
  rw [List.append_nil] at hread
  rw [ofString?, read?, hread]
  rfl

theorem writeAt_sortFields (indent : Option Nat) (fields : List (String × Json)) :
    writeAt indent (.object (sortFields fields)) = writeAt indent (.object fields) := by
  have hwritten (i : Option Nat) :
      sortFields (writeFields i (sortFields fields)) = sortFields (writeFields i fields) := by
    rw [writeFields_eq, writeFields_eq, map_sortFields]
    exact (sorted_sortFields _).sortFields_eq
  rw [writeAt, writeAt, hwritten]

theorem ofString?_writeAt_object {fields : List (String × Json)} (h : ∀ f ∈ fields, Plain f.2) (indent : Option Nat) :
    ofString? (writeAt indent (.object fields)) = some (.object (sortFields fields)) := by
  have hplain : Plain (.object (sortFields fields)) :=
    .object (sorted_sortFields fields) fun f hf => h f (mem_of_mem_sortFields hf)
  rw [← writeAt_sortFields]
  exact hplain.ofString?_writeAt indent

end ProcessProbe.Json
