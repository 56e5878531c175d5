import Mathlib.Data.List.Induction
import ProcessProbe.Process.Relation

/-!
# The rows of a relation table

A table that is made from relations has the first row of each process, in the order of these rows. So it is a function
from a process to its parent, a list in which no process has two different rows loses nothing but repetitions, and it
does not matter whether processes are left out before the table is made or afterwards.
-/

namespace ProcessProbe.RelationTable

theorem contains_iff {t : RelationTable} {h : Handle} : t.contains h = true ↔ ∃ r ∈ t.rows, r.process = h := by
  simp [contains]

theorem mem_childrenOf {t : RelationTable} {c h : Handle} :
    c ∈ t.childrenOf h ↔ ∃ r ∈ t.rows, r.parent = some h ∧ r.process = c := by
  simp [childrenOf, and_assoc]

@[simp] theorem mem_without {t : RelationTable} {skip : Handle → Bool} {r : Relation} :
    r ∈ (t.without skip).rows ↔ r ∈ t.rows ∧ skip r.process = false := by
  simp [without]

private theorem mem_foldl_keepFirst (rows acc : List Relation) (r : Relation) :
    r ∈ rows.foldl keepFirst acc ↔
      r ∈ acc ∨ (∀ a ∈ acc, a.process ≠ r.process) ∧ rows.find? (·.process == r.process) = some r := by
  induction rows generalizing acc with
  | nil => simp
  | cons q rows ih =>
    rw [List.foldl_cons, ih, keepFirst]
    by_cases hknown : acc.any (·.process == q.process) = true
    · obtain ⟨a, ha, haq⟩ := List.any_eq_true.1 hknown
      rw [if_pos hknown]
      by_cases hq : q.process = r.process
      · have hnot : ¬∀ b ∈ acc, b.process ≠ r.process := fun hall => hall a ha ((beq_iff_eq.1 haq).trans hq)
        simp only [hnot, false_and]
      · rw [List.find?_cons_of_neg (by simpa using hq)]
    · rw [if_neg hknown]
      by_cases hq : q.process = r.process
      · have hfresh : ∀ a ∈ acc, a.process ≠ r.process := by
          intro a ha he
          exact hknown (List.any_eq_true.2 ⟨a, ha, beq_iff_eq.2 (he.trans hq.symm)⟩)
        rw [List.find?_cons_of_pos (by simpa using hq)]
        simp only [List.mem_cons, Option.some.injEq]
        grind
      · rw [List.find?_cons_of_neg (by simpa using hq)]
        grind

/-- A relation is a row if it is the first one of its process. -/
theorem mem_ofList {rows : List Relation} {r : Relation} :
    r ∈ (ofList rows).rows ↔ rows.find? (·.process == r.process) = some r := by
  rw [ofList, List.mem_reverse, mem_foldl_keepFirst]
  simp

theorem mem_ofList_of_functional {rows : List Relation}
    (h : ∀ r ∈ rows, ∀ q ∈ rows, q.process = r.process → q = r) {r : Relation} :
    r ∈ (ofList rows).rows ↔ r ∈ rows := by
  rw [mem_ofList]
  constructor
  · exact List.mem_of_find?_eq_some
  · intro hr
    cases hfind : rows.find? (·.process == r.process) with
    | none => exact absurd (List.find?_eq_none.1 hfind r hr) (by simp)
    | some q =>
      have hq : q.process = r.process := by simpa using List.find?_some hfind
      rw [h r hr q (List.mem_of_find?_eq_some hfind) hq]

/-! ## The order of the rows -/

/-- No process has two rows. -/
def Distinct (t : RelationTable) : Prop := (t.rows.map (·.process)).Nodup

theorem rows_ofList_append_singleton (rows : List Relation) (r : Relation) :
    (ofList (rows ++ [r])).rows =
      if (ofList rows).contains r.process then (ofList rows).rows else (ofList rows).rows ++ [r] := by
  simp only [ofList, contains, List.foldl_append, List.foldl_cons, List.foldl_nil, keepFirst, List.any_reverse]
  split
  · rfl
  · exact List.reverse_cons

theorem contains_ofList {rows : List Relation} {h : Handle} :
    (ofList rows).contains h = rows.any (·.process == h) := by
  rw [Bool.eq_iff_iff, contains_iff, List.any_eq_true]
  constructor
  · intro ⟨r, hr, hprocess⟩
    exact ⟨r, List.mem_of_find?_eq_some (mem_ofList.1 hr), beq_iff_eq.2 hprocess⟩
  · intro ⟨r, hr, hprocess⟩
    have hh : r.process = h := beq_iff_eq.1 hprocess
    cases hfind : rows.find? (·.process == h) with
    | none => exact absurd hprocess (List.find?_eq_none.1 hfind r hr)
    | some q =>
      have hq : q.process = h := by simpa using List.find?_some hfind
      exact ⟨q, mem_ofList.2 (hq ▸ hfind), hq⟩

theorem distinct_ofList (rows : List Relation) : (ofList rows).Distinct := by
  induction rows using List.reverseRecOn with
  | nil => exact List.nodup_nil
  | append_singleton rows r ih =>
    rw [Distinct, rows_ofList_append_singleton]
    by_cases hknown : (ofList rows).contains r.process = true
    · rw [if_pos hknown]
      exact ih
    · rw [if_neg hknown, List.map_append, List.nodup_append]
      refine ⟨ih, List.nodup_cons.2 ⟨List.not_mem_nil, List.nodup_nil⟩, fun h hh k hk => ?_⟩
      obtain ⟨q, hq, rfl⟩ := List.mem_map.1 hh
      rw [List.mem_singleton.1 hk]
      exact fun heq => hknown (contains_iff.2 ⟨q, hq, heq⟩)

/-- The place of the first of the relations that is one of a process. -/
def firstIndex (rows : List Relation) (h : Handle) : Nat := rows.findIdx (·.process == h)

/-- The rows stand in the order in which their processes occur first. -/
theorem pairwise_firstIndex_ofList (rows : List Relation) :
    (ofList rows).rows.Pairwise fun r q => firstIndex rows r.process < firstIndex rows q.process := by
  induction rows using List.reverseRecOn with
  | nil => exact List.Pairwise.nil
  | append_singleton rows r ih =>
    have hknown {q : Relation} (hq : q ∈ (ofList rows).rows) :
        firstIndex rows q.process < rows.length ∧
          firstIndex (rows ++ [r]) q.process = firstIndex rows q.process := by
      have hlt : firstIndex rows q.process < rows.length :=
        List.findIdx_lt_length_of_exists ⟨q, List.mem_of_find?_eq_some (mem_ofList.1 hq), beq_self_eq_true _⟩
      exact ⟨hlt, (List.findIdx_append).trans (if_pos hlt)⟩
    have hkept : (ofList rows).rows.Pairwise fun a b =>
        firstIndex (rows ++ [r]) a.process < firstIndex (rows ++ [r]) b.process := by
      refine ih.imp_of_mem fun {a b} ha hb hlt => ?_
      rwa [(hknown ha).2, (hknown hb).2]
    rw [rows_ofList_append_singleton]
    by_cases hcontains : (ofList rows).contains r.process = true
    · rwa [if_pos hcontains]
    · rw [if_neg hcontains, List.pairwise_append]
      refine ⟨hkept, List.pairwise_singleton _ _, fun a ha b hb => ?_⟩
      rw [List.mem_singleton.1 hb, (hknown ha).2]
      -- The new relation is the first one of its process, so it stands behind all others.
      have hfresh : ¬firstIndex rows r.process < rows.length := by
        intro hlt
        rw [contains_ofList] at hcontains
        exact hcontains (List.any_eq_true.2 (List.findIdx_lt_length.1 hlt))
      have hnew : firstIndex (rows ++ [r]) r.process = rows.length := by
        have happend : firstIndex (rows ++ [r]) r.process = firstIndex [r] r.process + rows.length :=
          List.findIdx_append.trans (if_neg hfresh)
        simpa [firstIndex] using happend
      rw [hnew]
      exact (hknown ha).1

theorem ofList_rows_of_distinct {t : RelationTable} (h : t.Distinct) : ofList t.rows = t := by
  obtain ⟨rows⟩ := t
  change (rows.map (·.process)).Nodup at h
  change ofList rows = ⟨rows⟩
  induction rows using List.reverseRecOn with
  | nil => rfl
  | append_singleton rows r ih =>
    rw [List.map_append, List.nodup_append] at h
    obtain ⟨hrows, -, hfresh⟩ := h
    have hnew : (ofList rows).contains r.process = false := by
      rw [contains_ofList, List.any_eq_false]
      intro q hq hprocess
      exact hfresh _ (List.mem_map_of_mem hq) _ (List.mem_singleton_self _) (beq_iff_eq.1 hprocess)
    have hconcat := rows_ofList_append_singleton rows r
    rw [hnew, ih hrows] at hconcat
    exact congrArg RelationTable.mk hconcat

theorem ofList_rows_ofList (rows : List Relation) : ofList (ofList rows).rows = ofList rows :=
  ofList_rows_of_distinct (distinct_ofList rows)

theorem contains_without {t : RelationTable} {skip : Handle → Bool} {h : Handle} :
    (t.without skip).contains h = (t.contains h && !skip h) := by
  rw [Bool.eq_iff_iff, contains_iff, Bool.and_eq_true, contains_iff, Bool.not_eq_true']
  constructor
  · rintro ⟨r, hr, rfl⟩
    exact ⟨⟨r, (mem_without.1 hr).1, rfl⟩, (mem_without.1 hr).2⟩
  · rintro ⟨⟨r, hr, rfl⟩, hkept⟩
    exact ⟨r, mem_without.2 ⟨hr, hkept⟩, rfl⟩

theorem ofList_filter (rows : List Relation) (skip : Handle → Bool) :
    ofList (rows.filter (!skip ·.process)) = (ofList rows).without skip := by
  induction rows using List.reverseRecOn with
  | nil => rfl
  | append_singleton rows r ih =>
    rw [RelationTable.mk.injEq, without, rows_ofList_append_singleton, List.filter_append]
    by_cases hskip : skip r.process = true
    · have hdropped : [r].filter (!skip ·.process) = [] := by simp [hskip]
      rw [hdropped, List.append_nil, ih]
      split
      · rfl
      · rw [List.filter_append, hdropped, List.append_nil, without]
    · have hkept : [r].filter (!skip ·.process) = [r] := by simp [hskip]
      rw [hkept, rows_ofList_append_singleton, ih, contains_without]
      by_cases hknown : (ofList rows).contains r.process = true
      · simp [hknown, hskip, without]
      · simp [hknown, hskip, without]

end ProcessProbe.RelationTable
