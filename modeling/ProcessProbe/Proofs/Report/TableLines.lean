import ProcessProbe.Proofs.Report.ProcessTable
import ProcessProbe.Proofs.Text.Lines

/-!
# The lines of a process table

Each line of the report is decoded by itself, so that lines which are no rows can stand anywhere. Main statement: the
rows are those that the lines spell, in order, whatever else is printed between them, and every line that is not blank is
accounted for.
-/

namespace ProcessProbe.Report

open Text (isBlank maxU32 words trim IsNumeral IsTextOf Inserted)

/-- A line that spells a row: two numerals of 32 bits, and a word that starts with the state if there is one. -/
inductive TableRow.Spelled (r : TableRow) (line : List Char) : Prop where
  | stateless {pid ppid : List Char} (hwords : Text.Spaced [pid, ppid] line) (hpid : IsNumeral pid r.pid)
      (hppid : IsNumeral ppid r.ppid) (hrange : r.pid ≤ maxU32 ∧ r.ppid ≤ maxU32) (hstate : r.state = none)
  | stateful {pid ppid token : List Char} (hwords : Text.Spaced [pid, ppid, token] line) (hpid : IsNumeral pid r.pid)
      (hppid : IsNumeral ppid r.ppid) (hrange : r.pid ≤ maxU32 ∧ r.ppid ≤ maxU32) (hstate : r.state = token.head?)

theorem TableRow.row?_eq_some_iff {pid ppid : List Char} {state : Option Char} {r : TableRow} :
    ofLine?.row? pid ppid state = some r ↔ IsNumeral pid r.pid ∧ IsNumeral ppid r.ppid ∧
      (r.pid ≤ maxU32 ∧ r.ppid ≤ maxU32) ∧ r.state = state := by
  have hpid := Text.readU32?_eq_some_iff (s := pid) (n := r.pid)
  have hppid := Text.readU32?_eq_some_iff (s := ppid) (n := r.ppid)
  constructor
  · intro h
    rw [ofLine?.row?] at h
    split at h
    · rename_i p q hp hq
      obtain rfl := Option.some.inj h
      exact ⟨(hpid.1 hp).1, (hppid.1 hq).1, ⟨(hpid.1 hp).2, (hppid.1 hq).2⟩, rfl⟩
    · contradiction
  · intro h
    obtain ⟨hnumeral, hparent, hrange, hstate⟩ := h
    simp only [ofLine?.row?, hpid.2 ⟨hnumeral, hrange.1⟩, hppid.2 ⟨hparent, hrange.2⟩, ← hstate]

/-- A line is decoded as the row that it spells. -/
theorem TableRow.ofLine?_eq_some_iff {line : List Char} {r : TableRow} : ofLine? line = some r ↔ r.Spelled line := by
  have hspaced := Text.spaced_words line
  constructor
  · intro h
    rw [ofLine?.eq_def] at h
    split at h
    · rename_i pid ppid hwords
      rw [hwords] at hspaced
      obtain ⟨hpid, hppid, hrange, hstate⟩ := row?_eq_some_iff.1 h
      exact .stateless hspaced hpid hppid hrange hstate
    · rename_i pid ppid token hwords
      rw [hwords] at hspaced
      obtain ⟨hpid, hppid, hrange, hstate⟩ := row?_eq_some_iff.1 h
      exact .stateful hspaced hpid hppid hrange hstate
    · contradiction
  · intro h
    cases h with
    | stateless hwords hpid hppid hrange hstate =>
      rw [ofLine?, hwords.words_eq]
      exact row?_eq_some_iff.2 ⟨hpid, hppid, hrange, hstate⟩
    | stateful hwords hpid hppid hrange hstate =>
      rw [ofLine?, hwords.words_eq]
      exact row?_eq_some_iff.2 ⟨hpid, hppid, hrange, hstate⟩

theorem TableRow.ofLine?_trim (line : List Char) : ofLine? (trim line) = ofLine? line := by
  rw [ofLine?, Text.words_trim, ofLine?]

theorem TableRow.ofLine?_eq_none_iff {line : List Char} : ofLine? line = none ↔ ∀ r : TableRow, ¬r.Spelled line := by
  rw [Option.eq_none_iff_forall_ne_some]
  exact forall_congr' fun r => not_congr ofLine?_eq_some_iff

namespace ProcessTable

/-! ## Lines that are no rows -/

def isFilled (line : List Char) : Bool := line.any (!isBlank ·)

theorem isEmpty_trim (line : List Char) : (trim line).isEmpty = !isFilled line := by
  rw [Bool.eq_iff_iff, List.isEmpty_iff, Bool.not_eq_true', isFilled, List.any_eq_false, Text.trim_eq_nil_iff]
  simp

theorem isHeader_trim (line : List Char) : isHeader (trim line) = isHeader line := by
  rw [isHeader, Text.words_trim, isHeader]

theorem ofLine?_of_not_isFilled {line : List Char} (h : isFilled line = false) : TableRow.ofLine? line = none := by
  have hempty : trim line = [] := List.isEmpty_iff.1 (by rw [isEmpty_trim, h]; rfl)
  rw [← TableRow.ofLine?_trim, hempty]
  rfl

theorem ofLine?_of_isHeader {line : List Char} (h : isHeader line = true) : TableRow.ofLine? line = none := by
  rw [isHeader] at h
  split at h
  · rename_i a b more hwords
    have hread : Text.readU32? a = none := by
      rcases Bool.or_eq_true_iff.1 h with h | h
      · rw [eq_of_beq (Bool.and_eq_true_iff.1 h).1]
        decide
      · rw [eq_of_beq (Bool.and_eq_true_iff.1 h).1]
        decide
    rw [TableRow.ofLine?, hwords]
    rcases more with _ | ⟨token, _ | ⟨other, more⟩⟩
    · simp [TableRow.ofLine?.row?, hread]
    · simp [TableRow.ofLine?.row?, hread]
    · rfl
  · contradiction

theorem filterMap_body (lines : List (List Char)) :
    (body lines).filterMap TableRow.ofLine? = lines.filterMap TableRow.ofLine? := by
  cases lines with
  | nil => rfl
  | cons line lines =>
    rw [body]
    split
    · rename_i hheader
      rw [List.filterMap_cons_none (ofLine?_of_isHeader hheader)]
    · rfl

theorem filterMap_filter_isFilled (lines : List (List Char)) :
    (lines.filter isFilled).filterMap TableRow.ofLine? = lines.filterMap TableRow.ofLine? := by
  induction lines with
  | nil => rfl
  | cons line lines ih =>
    cases hfilled : isFilled line with
    | true => simp [hfilled, List.filterMap_cons, ih]
    | false => simp [hfilled, List.filterMap_cons_none (ofLine?_of_not_isFilled hfilled), ih]

theorem body_map_trim (lines : List (List Char)) : body (lines.map trim) = (body lines).map trim := by
  cases lines with
  | nil => rfl
  | cons line lines =>
    rw [List.map_cons, body, body, isHeader_trim]
    split
    · rfl
    · rfl

/-! ## What a report is decoded as -/

/-- The rows that the lines spell, but for those of processes that are their own parents. -/
def rowsIn (lines : List (List Char)) : List TableRow :=
  (lines.filterMap TableRow.ofLine?).filter fun r => r.pid != r.ppid

/-- The lines that count, without a header in the first place. -/
def entries (lines : List (List Char)) : List (List Char) := body (lines.filter isFilled)

theorem filledLines_eq {lines : List (List Char)} {text : List Char} (htext : IsTextOf lines text) :
    filledLines text = (lines.filter isFilled).map trim := by
  rw [filledLines, htext.filter_trim_lines, List.filter_map]
  congr 2
  funext line
  simp [isEmpty_trim]

theorem ofText_eq {lines : List (List Char)} {text : List Char} (htext : IsTextOf lines text) :
    ofText text =
      if lines.countP isFilled = 0 then .error .empty
      else if rowsIn lines = [] then .error (.noRows (lines.countP isFilled))
      else .ok ⟨rowsIn lines, (entries lines).countP fun line => (TableRow.ofLine? line).isNone⟩ := by
  have hdecoded : (body (filledLines text)).map TableRow.ofLine? = (entries lines).map TableRow.ofLine? := by
    rw [filledLines_eq htext, body_map_trim, List.map_map, entries]
    exact List.map_congr_left fun line _ => TableRow.ofLine?_trim line
  have hrows : ((entries lines).map TableRow.ofLine?).filterMap (fun row => row.filter fun r => r.pid != r.ppid) =
      rowsIn lines := by
    rw [rowsIn, ← filterMap_filter_isFilled, ← filterMap_body, List.filter_filterMap, List.filterMap_map]
    rfl
  have hlength : (filledLines text).length = lines.countP isFilled := by
    rw [filledLines_eq htext, List.length_map, List.countP_eq_length_filter]
  simp only [ofText, hdecoded, hrows, hlength, List.isEmpty_iff, ← List.length_eq_zero_iff, List.countP_map]
  rfl

/-! ## Every line is accounted for -/

/-- The lines that spell a process which is its own parent. -/
def ownParents (lines : List (List Char)) : Nat :=
  lines.countP fun line => (TableRow.ofLine? line).any fun r => r.pid == r.ppid

/-- One if the first line that is not blank is a header. -/
def headers (lines : List (List Char)) : Nat := if (lines.find? isFilled).any isHeader then 1 else 0

theorem length_body (lines : List (List Char)) :
    lines.length = (body lines).length + if lines.head?.any isHeader then 1 else 0 := by
  cases lines with
  | nil => rfl
  | cons line lines =>
    rw [body]
    cases hheader : isHeader line with
    | true => simp [hheader]
    | false => simp [hheader]

theorem length_filterMap_ofLine? (lines : List (List Char)) :
    (lines.filterMap TableRow.ofLine?).length = (rowsIn lines).length + ownParents lines := by
  rw [List.length_eq_countP_add_countP (fun r : TableRow => r.pid != r.ppid), rowsIn, List.countP_eq_length_filter,
    ownParents, List.countP_filterMap]
  congr 2
  funext line
  cases TableRow.ofLine? line with
  | none => rfl
  | some r => by_cases hown : r.pid = r.ppid <;> simp [hown]

theorem countP_isFilled (lines : List (List Char)) :
    lines.countP isFilled = (rowsIn lines).length +
      (entries lines).countP (fun line => (TableRow.ofLine? line).isNone) + ownParents lines + headers lines := by
  have hentries : (entries lines).length = (rowsIn lines).length + ownParents lines +
      (entries lines).countP fun line => (TableRow.ofLine? line).isNone := by
    rw [List.length_eq_countP_add_countP (fun line => (TableRow.ofLine? line).isSome),
      ← List.length_filterMap_eq_countP, entries, filterMap_body, filterMap_filter_isFilled, length_filterMap_ofLine?]
    congr 2
    funext line
    cases TableRow.ofLine? line with
    | none => rfl
    | some r => rfl
  rw [List.countP_eq_length_filter, length_body, List.head?_filter, ← headers, ← entries, hentries]
  omega

/-! ## The decoded rows -/

theorem mem_rowsIn {lines : List (List Char)} {r : TableRow} :
    r ∈ rowsIn lines ↔ (∃ line ∈ lines, r.Spelled line) ∧ r.pid ≠ r.ppid := by
  simp [rowsIn, TableRow.ofLine?_eq_some_iff]

theorem filterMap_of_spelled {rows : List TableRow} {lines : List (List Char)}
    (h : List.Forall₂ TableRow.Spelled rows lines) : lines.filterMap TableRow.ofLine? = rows := by
  induction h with
  | nil => rfl
  | cons hrow _ ih => rw [List.filterMap_cons_some (TableRow.ofLine?_eq_some_iff.2 hrow), ih]

theorem isFilled_of_spelled {r : TableRow} {line : List Char} (h : r.Spelled line) : isFilled line = true := by
  cases hfilled : isFilled line with
  | true => rfl
  | false =>
    have hnone := ofLine?_of_not_isFilled hfilled
    rw [TableRow.ofLine?_eq_some_iff.2 h] at hnone
    contradiction

theorem countP_isFilled_of_spelled {rows : List TableRow} {lines : List (List Char)}
    (h : List.Forall₂ TableRow.Spelled rows lines) : lines.countP isFilled = rows.length := by
  induction h with
  | nil => rfl
  | cons hrow _ ih => rw [List.countP_cons_of_pos (isFilled_of_spelled hrow), ih, List.length_cons]

/-- The rows of a decoded report; one that is refused has none. -/
def decodedRows : Except Defect ProcessTable → List TableRow
  | .ok table => table.rows
  | .error _ => []

theorem decodedRows_ofText {lines : List (List Char)} {text : List Char} (htext : IsTextOf lines text) :
    decodedRows (ofText text) = rowsIn lines := by
  rw [ofText_eq htext]
  split
  · rename_i hblank
    rw [List.countP_eq_zero] at hblank
    symm
    apply List.eq_nil_iff_forall_not_mem.2
    intro r hr
    obtain ⟨line, hline, hspelled⟩ := (mem_rowsIn.1 hr).1
    exact hblank line hline (isFilled_of_spelled hspelled)
  · split
    · rename_i hnone
      exact hnone.symm
    · rfl

theorem ofText_of_spelled {rows : List TableRow} {lines : List (List Char)} {text : List Char}
    (htext : IsTextOf lines text) (hrows : List.Forall₂ TableRow.Spelled rows lines)
    (hne : ∀ r ∈ rows, r.pid ≠ r.ppid) : ofText text = if rows = [] then .error .empty else .ok ⟨rows, 0⟩ := by
  have hrowsIn : rowsIn lines = rows := by
    rw [rowsIn, filterMap_of_spelled hrows, List.filter_eq_self]
    intro r hr
    exact bne_iff_ne.2 (hne r hr)
  have hfilled := countP_isFilled_of_spelled hrows
  -- The rows alone are as many as the lines that count, which leaves none to be passed over.
  have hcount := countP_isFilled lines
  rw [hrowsIn, hfilled] at hcount
  have hskipped : (entries lines).countP (fun line => (TableRow.ofLine? line).isNone) = 0 := by omega
  rw [ofText_eq htext, hrowsIn, hfilled, hskipped]
  by_cases hnil : rows = []
  · simp [hnil]
  · simp [hnil]

theorem rowsIn_eq_nil_iff {lines : List (List Char)} :
    rowsIn lines = [] ↔ ∀ line ∈ lines, ∀ r : TableRow, r.Spelled line → r.pid = r.ppid := by
  rw [List.eq_nil_iff_forall_not_mem]
  constructor
  · intro h line hline r hspelled
    exact Classical.not_not.1 fun hne => h r (mem_rowsIn.2 ⟨⟨line, hline, hspelled⟩, hne⟩)
  · intro h r hr
    obtain ⟨⟨line, hline, hspelled⟩, hne⟩ := mem_rowsIn.1 hr
    exact hne (h line hline r hspelled)

theorem ofText_eq_noRows_iff {lines : List (List Char)} {text : List Char} (htext : IsTextOf lines text)
    {total : Nat} :
    ofText text = .error (.noRows total) ↔ total = lines.countP isFilled ∧ total ≠ 0 ∧ rowsIn lines = [] := by
  rw [ofText_eq htext]
  by_cases hblank : lines.countP isFilled = 0
  · rw [if_pos hblank, hblank]
    simp only [Except.error.injEq, reduceCtorEq, false_iff]
    intro htotal
    exact htotal.2.1 htotal.1
  · rw [if_neg hblank]
    by_cases hrows : rowsIn lines = []
    · rw [if_pos hrows]
      simp only [Except.error.injEq, Defect.noRows.injEq, hrows, and_true]
      constructor
      · intro htotal
        exact ⟨htotal.symm, htotal ▸ hblank⟩
      · intro htotal
        exact htotal.1.symm
    · rw [if_neg hrows]
      simp [hrows]

theorem countP_isFilled_of_ofText {lines : List (List Char)} {text : List Char} (htext : IsTextOf lines text)
    {table : ProcessTable} (htable : ofText text = .ok table) :
    lines.countP isFilled = table.rows.length + table.skipped + ownParents lines + headers lines := by
  rw [ofText_eq htext] at htable
  split at htable
  · contradiction
  · split at htable
    · contradiction
    · obtain rfl := Except.ok.inj htable
      exact countP_isFilled lines

/-- Every text is one of lines, and its rows are those that its lines spell, in their order. Lines that spell no row may
be put in anywhere and change none of it. A report without rows is told from an empty one by a line that is not blank,
and in any other report each such line is a row, passed over, a process that is its own parent, or the header. -/
theorem rows_read_among_noise (text : List Char) : (∃ lines, IsTextOf lines text) ∧ ∀ lines, IsTextOf lines text →
    (∀ rows, List.Forall₂ TableRow.Spelled rows lines → (∀ r ∈ rows, r.pid ≠ r.ppid) →
      ofText text = if rows = [] then .error .empty else .ok ⟨rows, 0⟩) ∧
    (∀ more noisy, Inserted (fun line => ∀ r : TableRow, ¬r.Spelled line) lines more → IsTextOf more noisy →
      decodedRows (ofText noisy) = decodedRows (ofText text)) ∧
    (∀ total, ofText text = .error (.noRows total) ↔ total = lines.countP isFilled ∧ total ≠ 0 ∧
      ∀ line ∈ lines, ∀ r : TableRow, r.Spelled line → r.pid = r.ppid) ∧
    ∀ table, ofText text = .ok table →
      lines.countP isFilled = table.rows.length + table.skipped + ownParents lines + headers lines := by
  refine ⟨⟨_, Text.isTextOf_split text⟩, ?_⟩
  intro lines htext
  refine ⟨fun rows => ofText_of_spelled htext, ?_, ?_, fun table => countP_isFilled_of_ofText htext⟩
  · intro more noisy hmore hnoisy
    have hsame : more.filterMap TableRow.ofLine? = lines.filterMap TableRow.ofLine? :=
      hmore.filterMap_eq fun line => TableRow.ofLine?_eq_none_iff.2
    rw [decodedRows_ofText htext, decodedRows_ofText hnoisy, rowsIn, rowsIn, hsame]
  · intro total
    rw [ofText_eq_noRows_iff htext, rowsIn_eq_nil_iff]

/-- Two rows, and a header, a blank line, noise and a process that is its own parent around them. -/
def plainLines : List (List Char) := [" 1 0 Ss".toList, "+7\t01\tZ+ ".toList]

def noisyLines : List (List Char) :=
  ["PID PPID".toList, " 1 0 Ss".toList, [], "7 1 S x".toList, "+7\t01\tZ+ ".toList]

theorem rows_read_among_noise_titled :
    IsTextOf plainLines (Text.unlines plainLines) ∧ ofText (Text.unlines plainLines) = .ok ⟨[⟨1, 0, 'S'⟩, ⟨7, 1, 'Z'⟩], 0⟩ ∧
      decodedRows (ofText (Text.unlines noisyLines)) = [⟨1, 0, 'S'⟩, ⟨7, 1, 'Z'⟩] ∧
      noisyLines.countP isFilled = 2 + 1 + 0 + 1 := by
  have hplain : IsTextOf plainLines (Text.unlines plainLines) := ⟨by decide, .inl rfl⟩
  have hnoisy : IsTextOf noisyLines (Text.unlines noisyLines) := ⟨by decide, .inl rfl⟩
  have hrows : List.Forall₂ TableRow.Spelled [⟨1, 0, 'S'⟩, ⟨7, 1, 'Z'⟩] plainLines :=
    .cons (TableRow.ofLine?_eq_some_iff.1 (by decide)) (.cons (TableRow.ofLine?_eq_some_iff.1 (by decide)) .nil)
  have hinserted : Inserted (fun line => ∀ r : TableRow, ¬r.Spelled line) plainLines noisyLines :=
    .insert (TableRow.ofLine?_eq_none_iff.1 (by decide)) (.keep _ (.insert (TableRow.ofLine?_eq_none_iff.1 (by decide))
      (.insert (TableRow.ofLine?_eq_none_iff.1 (by decide)) (.keep _ .nil))))
  have hread : ofText (Text.unlines plainLines) = .ok ⟨[⟨1, 0, 'S'⟩, ⟨7, 1, 'Z'⟩], 0⟩ :=
    ((rows_read_among_noise _).2 plainLines hplain).1 _ hrows (by decide)
  have hsame := ((rows_read_among_noise _).2 plainLines hplain).2.1 noisyLines _ hinserted hnoisy
  have hcount := ((rows_read_among_noise _).2 noisyLines hnoisy).2.2.2 ⟨[⟨1, 0, 'S'⟩, ⟨7, 1, 'Z'⟩], 1⟩ (by decide)
  refine ⟨hplain, hread, ?_, ?_⟩
  · rw [hsame, hread]
    rfl
  · rw [hcount]
    rfl

end ProcessTable

end ProcessProbe.Report
