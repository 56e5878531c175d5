import Mathlib.Data.List.Forall2
import ProcessProbe.Proofs.Text.Decimal
import ProcessProbe.Proofs.Text.Lines
import ProcessProbe.Report.ChildList

/-!
# The list of children read back

Main statement: a report is read as some numbers just when its lines that are not blank are numerals of these.
-/

namespace ProcessProbe.Report.ChildList

open Text (decimal maxU32 IsNumeral)

/-- The report of process numbers, one on a line. -/
def text (pids : List Nat) : List Char := Text.unlines (pids.map decimal)

private theorem ofLines_decimal (pids : List Nat) (n : Nat) (h : ∀ pid ∈ pids, 0 < pid ∧ pid ≤ maxU32) :
    ofLines n (pids.map decimal) = .ok pids := by
  induction pids generalizing n with
  | nil => rfl
  | cons pid pids ih =>
    have hpid := h pid List.mem_cons_self
    have htrim : Text.trim (decimal pid) = decimal pid :=
      Text.trim_eq_self fun c hc => Text.not_isBlank_of_mem_decimal hc
    have hread : pid? (decimal pid) = some pid := by
      simp [pid?, Text.readU32?_decimal hpid.2, Option.filter, hpid.1]
    rw [List.map_cons, ofLines, htrim, hread]
    simp [Text.decimal_ne_nil, ih (n + 1) fun p hp => h p (List.mem_cons_of_mem pid hp), Except.map]

theorem ofText_text {pids : List Nat} (h : ∀ pid ∈ pids, 0 < pid ∧ pid ≤ maxU32) : ofText (text pids) = .ok pids := by
  have hone : ∀ l ∈ pids.map decimal, '\n' ∉ l := by
    intro l hl
    obtain ⟨pid, -, rfl⟩ := List.mem_map.1 hl
    exact Text.not_mem_decimal (by decide) pid
  have hkeep : (pids.map decimal).map Text.dropFinalReturn = pids.map decimal := by
    rw [List.map_map]
    exact List.map_congr_left fun pid _ => Text.dropFinalReturn_eq_self (Text.not_mem_decimal (by decide) pid)
  rw [ofText, text, Text.lines_unlines hone, hkeep, ofLines_decimal pids 1 h]

/-- A trimmed line that is a numeral of a positive number of 32 bits. -/
structure Names (line : List Char) (pid : Nat) : Prop where
  isNumeral : IsNumeral line pid
  positive : 0 < pid
  le : pid ≤ maxU32

theorem pid?_eq_some_iff {line : List Char} {pid : Nat} : pid? line = some pid ↔ Names line pid := by
  rw [pid?, Option.filter_eq_some_iff, Text.readU32?_eq_some_iff, decide_eq_true_eq]
  constructor
  · intro h
    exact ⟨h.1.1, h.2, h.1.2⟩
  · intro h
    exact ⟨⟨h.isNumeral, h.le⟩, h.positive⟩

theorem ofLines_eq_ok_iff {ls : List (List Char)} {n : Nat} {pids : List Nat} :
    ofLines n ls = .ok pids ↔ List.Forall₂ Names (Text.filled ls) pids := by
  induction ls generalizing n pids with
  | nil => simp [ofLines, Text.filled, List.forall₂_nil_left_iff, eq_comm]
  | cons line ls ih =>
    rw [ofLines, Text.filled_cons]
    split
    · exact ih
    · cases hpid : pid? (Text.trim line) with
      | none =>
        simp only [reduceCtorEq, false_iff]
        intro h
        obtain ⟨pid, rest, hnames, -, -⟩ := List.forall₂_cons_left_iff.1 h
        rw [pid?_eq_some_iff.2 hnames] at hpid
        contradiction
      | some pid =>
        have hnames := pid?_eq_some_iff.1 hpid
        rw [List.forall₂_cons_left_iff]
        constructor
        · intro h
          cases hrest : ofLines (n + 1) ls with
          | error defect => simp [hrest, Except.map] at h
          | ok rest =>
            simp only [hrest, Except.map, Except.ok.injEq] at h
            exact ⟨pid, rest, hnames, ih.1 hrest, h.symm⟩
        · intro h
          obtain ⟨pid', rest, hnames', hrest, rfl⟩ := h
          obtain rfl : pid = pid' := Option.some.inj (hpid.symm.trans (pid?_eq_some_iff.2 hnames'))
          rw [ih.2 hrest]
          rfl

theorem mem_iff_of_names {ls : List (List Char)} {pids : List Nat} (h : List.Forall₂ Names ls pids) {pid : Nat} :
    pid ∈ pids ↔ ∃ line ∈ ls, Names line pid := by
  induction h with
  | nil => simp
  | cons hnames _ ih =>
    rw [List.mem_cons, List.exists_mem_cons_iff, ih]
    refine or_congr_left ⟨fun h => h ▸ hnames, fun h => ?_⟩
    exact Option.some.inj ((pid?_eq_some_iff.2 h).symm.trans (pid?_eq_some_iff.2 hnames))

theorem exists_names_iff {ls : List (List Char)} :
    (∃ pids, List.Forall₂ Names ls pids) ↔ ∀ line ∈ ls, ∃ pid, Names line pid := by
  induction ls with
  | nil => simp
  | cons line ls ih =>
    rw [List.forall_mem_cons, ← ih]
    constructor
    · intro h
      obtain ⟨pids, h⟩ := h
      obtain ⟨pid, rest, hnames, hrest, -⟩ := List.forall₂_cons_left_iff.1 h
      exact ⟨⟨pid, hnames⟩, rest, hrest⟩
    · intro h
      obtain ⟨⟨pid, hnames⟩, rest, hrest⟩ := h
      exact ⟨pid :: rest, .cons hnames hrest⟩

theorem ofText_eq_ok_iff {text : List Char} {pids : List Nat} :
    ofText text = .ok pids ↔ List.Forall₂ Names (Text.filled (Text.lines text)) pids := ofLines_eq_ok_iff

end ProcessProbe.Report.ChildList
