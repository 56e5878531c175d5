import Mathlib.Data.List.Forall2
import ProcessProbe.Proofs.Text.Decimal
import ProcessProbe.Proofs.Text.Words
import ProcessProbe.Report.ProcessTable

/-!
# The process table read back

Rows that are written one on a line, whatever blanks stand between and around their words, are decoded as these rows.
-/

namespace ProcessProbe.Report

open Text (decimal maxU32 words)

/-- A line that a row may be written as: its two numbers, and a word that starts with the state if there is one. -/
inductive TableRow.Written (r : TableRow) (line : List Char) : Prop where
  | stateless (hwords : Text.Spaced [decimal r.pid, decimal r.ppid] line) (hstate : r.state = none)
  | stateful (token : List Char) (hwords : Text.Spaced [decimal r.pid, decimal r.ppid, token] line)
      (hstate : r.state = token.head?)

/-- The numbers of a row fit the columns, and the row is not its own parent. -/
structure TableRow.Fits (r : TableRow) : Prop where
  pid_le : r.pid ≤ maxU32
  ppid_le : r.ppid ≤ maxU32
  pid_ne : r.pid ≠ r.ppid

theorem TableRow.ofLine?_written {r : TableRow} {line other : List Char} (h : r.Written line) (hfits : r.Fits)
    (hwords : words other = words line) : TableRow.ofLine? other = some r := by
  cases h with
  | stateless hspaced hstate =>
    rw [ofLine?, hwords, hspaced.words_eq]
    simp [ofLine?.row?, Text.readU32?_decimal hfits.pid_le, Text.readU32?_decimal hfits.ppid_le, ← hstate]
  | stateful token hspaced hstate =>
    rw [ofLine?, hwords, hspaced.words_eq]
    simp [ofLine?.row?, Text.readU32?_decimal hfits.pid_le, Text.readU32?_decimal hfits.ppid_le, ← hstate]

theorem TableRow.Written.words_eq {r : TableRow} {line : List Char} (h : r.Written line) :
    ∃ rest, words line = decimal r.pid :: decimal r.ppid :: rest := by
  cases h with
  | stateless hspaced _ => exact ⟨_, hspaced.words_eq⟩
  | stateful token hspaced _ => exact ⟨_, hspaced.words_eq⟩

namespace ProcessTable

private theorem decimal_ne_of_head {n : Nat} {c : Char} {cs : List Char} (hc : c.isDigit = false) :
    (decimal n == c :: cs) = false := by
  rw [beq_eq_false_iff_ne]
  intro h
  exact Text.not_mem_decimal hc n (h ▸ List.mem_cons_self)

theorem isHeader_written {r : TableRow} {line other : List Char} (h : r.Written line)
    (hwords : words other = words line) : isHeader other = false := by
  obtain ⟨rest, hrow⟩ := h.words_eq
  rw [isHeader, hwords, hrow]
  simp only [Bool.or_eq_false_iff, Bool.and_eq_false_iff]
  exact ⟨.inl (decimal_ne_of_head (by decide)), .inl (decimal_ne_of_head (by decide))⟩

private def seen (line : List Char) : List Char := Text.trim (Text.dropFinalReturn line)

private theorem words_seen (line : List Char) : words (seen line) = words line := by
  rw [seen, Text.words_trim, Text.words_dropFinalReturn]

private theorem seen_ne_nil {r : TableRow} {line : List Char} (h : r.Written line) : seen line ≠ [] := by
  obtain ⟨rest, hrow⟩ := h.words_eq
  intro hnil
  have hwords := words_seen line
  rw [hnil, hrow, Text.words_nil] at hwords
  contradiction

private theorem filter_seen {rows : List TableRow} {ls : List (List Char)}
    (h : List.Forall₂ TableRow.Written rows ls) : (ls.map seen).filter (!·.isEmpty) = ls.map seen := by
  induction h with
  | nil => rfl
  | cons hrow _ ih => rw [List.map_cons, List.filter_cons_of_pos (by simpa using seen_ne_nil hrow), ih]

private theorem ofLine?_seen {rows : List TableRow} {ls : List (List Char)}
    (h : List.Forall₂ TableRow.Written rows ls) (hfits : ∀ r ∈ rows, r.Fits) :
    (ls.map seen).map TableRow.ofLine? = rows.map some := by
  induction h with
  | nil => rfl
  | cons hrow _ ih =>
    have hdecoded := TableRow.ofLine?_written hrow (hfits _ List.mem_cons_self) (words_seen _)
    rw [List.map_cons, List.map_cons, hdecoded, ih fun r hr => hfits r (List.mem_cons_of_mem _ hr), List.map_cons]

private theorem body_seen {rows : List TableRow} {ls : List (List Char)}
    (h : List.Forall₂ TableRow.Written rows ls) : body (ls.map seen) = ls.map seen := by
  cases h with
  | nil => rfl
  | cons hrow _ => rw [List.map_cons, body, isHeader_written hrow (words_seen _)]; rfl

/-- Written rows are decoded in order, and no line is passed over. -/
theorem ofText_unlines {rows : List TableRow} {ls : List (List Char)} (hne : rows ≠ [])
    (hrows : List.Forall₂ TableRow.Written rows ls) (hfits : ∀ r ∈ rows, r.Fits) (hone : ∀ l ∈ ls, '\n' ∉ l) :
    ofText (Text.unlines ls) = .ok ⟨rows, 0⟩ := by
  have hlines : filledLines (Text.unlines ls) = ls.map seen := by
    rw [filledLines, Text.lines_unlines hone, List.map_map]
    exact filter_seen hrows
  have hls : ls ≠ [] := by
    intro hnil
    exact hne (List.length_eq_zero_iff.1 (by rw [hrows.length_eq, hnil]; rfl))
  have hkept : (rows.map some).filterMap (fun row => row.filter fun r => r.pid != r.ppid) = rows := by
    rw [List.filterMap_map]
    refine (List.filterMap_congr fun r hr => ?_).trans List.filterMap_some
    simp [Option.filter, (hfits r hr).pid_ne]
  have hcount : (rows.map some).countP (·.isNone) = 0 := by
    rw [List.countP_eq_zero]
    simp
  simp only [ofText, hlines, body_seen hrows, ofLine?_seen hrows hfits, hkept, hcount]
  simp [hls, hne]

end ProcessTable

end ProcessProbe.Report
