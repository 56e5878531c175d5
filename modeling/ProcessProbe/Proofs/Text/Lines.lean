import ProcessProbe.Proofs.Text.Words

/-!
# Texts of lines

The lines of a text are those that it is written as. Main statement: a text is written as some lines just when they are
its lines, where each line has a line end of its own, with a carriage return or without. Where the blanks around a line
do not matter, all that counts are the line feeds; then lines may be put between those of a text, or moved about, and
what is drawn from each line by itself stays as it is.
-/

namespace ProcessProbe.Text

theorem split_of_not_mem {line : List Char} (h : '\n' ∉ line) : split (· == '\n') line = [line] :=
  split_of_forall fun _ hc => beq_eq_false_iff_ne.2 fun he => h (he ▸ hc)

theorem split_append_feed {line : List Char} (h : '\n' ∉ line) (text : List Char) :
    split (· == '\n') (line ++ '\n' :: text) = line :: split (· == '\n') text := by
  rw [split_append_cons rfl, split_of_not_mem h]
  rfl

theorem lines_of_not_mem {line : List Char} (hne : line ≠ []) (h : '\n' ∉ line) : lines line = [line] := by
  simp [lines, split_of_not_mem h, hne]

theorem lines_append_feed {line : List Char} (h : '\n' ∉ line) (text : List Char) :
    lines (line ++ '\n' :: text) = dropFinalReturn line :: lines text := by
  have hne := split_ne_nil (· == '\n') text
  simp only [lines, split_append_feed h, List.dropLast_cons_of_ne_nil hne, List.getLast?_cons_of_ne_nil hne,
    List.map_cons, List.cons_append]

theorem lines_append_returnFeed {line : List Char} (h : '\n' ∉ line) (text : List Char) :
    lines (line ++ '\r' :: '\n' :: text) = line :: lines text := by
  have hreturn : '\n' ∉ line ++ ['\r'] := by simp [h]
  have hdrop : dropFinalReturn (line ++ ['\r']) = line := by simp [dropFinalReturn]
  have happend := lines_append_feed hreturn text
  rwa [hdrop, List.append_assoc] at happend

/-- A text has no line feed, or it goes on with a text after its first one. -/
theorem feed_induction {motive : List Char → Prop} (single : ∀ line, '\n' ∉ line → motive line)
    (feed : ∀ line rest, '\n' ∉ line → motive rest → motive (line ++ '\n' :: rest)) (text : List Char) :
    motive text := by
  -- The text behind a line feed is no part of the pattern of `text`, so the induction is on the length.
  induction h : text.length using Nat.strongRecOn generalizing text with
  | ind n ih =>
    subst h
    by_cases hfeed : '\n' ∈ text
    · obtain ⟨line, rest, rfl, hone⟩ := List.eq_append_cons_of_mem hfeed
      have hshorter : rest.length < (line ++ '\n' :: rest).length := by
        simp
        omega
      exact feed line rest hone (ih rest.length hshorter rest rfl)
    · exact single text hfeed

/-! ## Lines with their ends -/

/-- Lines, and a text that they are written as: a line feed ends each of them, with a carriage return before it or
without, and the last one may also go on to the end of the text. -/
inductive Ended : List (List Char) → List Char → Prop where
  | nil : Ended [] []
  | last {line : List Char} (hne : line ≠ []) (hone : '\n' ∉ line) : Ended [line] line
  | feed {line text : List Char} {ls : List (List Char)} (hone : '\n' ∉ line) (hreturn : line.getLast? ≠ some '\r')
      (h : Ended ls text) : Ended (line :: ls) (line ++ '\n' :: text)
  | returnFeed {line text : List Char} {ls : List (List Char)} (hone : '\n' ∉ line) (h : Ended ls text) :
      Ended (line :: ls) (line ++ '\r' :: '\n' :: text)

theorem Ended.lines_eq {ls : List (List Char)} {text : List Char} (h : Ended ls text) : lines text = ls := by
  induction h with
  | nil => rfl
  | last hne hone => exact lines_of_not_mem hne hone
  | feed hone hreturn _ ih => rw [lines_append_feed hone, ih, dropFinalReturn, if_neg hreturn]
  | returnFeed hone _ ih => rw [lines_append_returnFeed hone, ih]

theorem ended_lines (text : List Char) : Ended (lines text) text := by
  induction text using feed_induction with
  | single line hone =>
    by_cases hne : line = []
    · rw [hne]
      exact .nil
    · rw [lines_of_not_mem hne hone]
      exact .last hne hone
  | feed line rest hone ih =>
    by_cases hreturn : line.getLast? = some '\r'
    · obtain ⟨line, rfl⟩ := List.getLast?_eq_some_iff.1 hreturn
      have hone' : '\n' ∉ line := fun hc => hone (List.mem_append_left _ hc)
      rw [List.append_assoc, List.singleton_append, lines_append_returnFeed hone']
      exact .returnFeed hone' ih
    · rw [lines_append_feed hone, dropFinalReturn, if_neg hreturn]
      exact .feed hone hreturn ih

/-- Every text is written as its lines, and as no others. -/
theorem lines_eq_iff {ls : List (List Char)} {text : List Char} : lines text = ls ↔ Ended ls text :=
  ⟨fun h => h ▸ ended_lines text, Ended.lines_eq⟩

/-! ## Lines up to blanks -/

/-- A text of lines, in which only line feeds count: one ends each of the lines, but may be missing at the end. -/
structure IsTextOf (ls : List (List Char)) (text : List Char) : Prop where
  one : ∀ line ∈ ls, '\n' ∉ line
  text_eq : text = unlines ls ∨ text ++ ['\n'] = unlines ls

theorem isTextOf_split (text : List Char) : IsTextOf (split (· == '\n') text) text where
  one := fun _ hline hc => absurd (not_of_mem_split hline _ hc) (by decide)
  text_eq := by
    refine .inr ?_
    induction text using feed_induction with
    | single line hone => simp [split_of_not_mem hone, unlines]
    | feed line rest hone ih =>
      rw [split_append_feed hone, unlines, List.flatMap_cons, ← unlines, ← ih]
      simp

theorem trimEnd_append_of_blank {pad : List Char} (h : ∀ c ∈ pad, isBlank c = true) (x : List Char) :
    trimEnd (x ++ pad) = trimEnd x := by
  have hpad : ∀ c ∈ pad.reverse, isBlank c = true := fun c hc => h c (List.mem_reverse.1 hc)
  rw [trimEnd, List.reverse_append, List.dropWhile_append_of_pos hpad, trimEnd]

theorem trim_append_of_blank {pad : List Char} (h : ∀ c ∈ pad, isBlank c = true) (x : List Char) :
    trim (x ++ pad) = trim x := by
  rw [trim, trim, trimStart, trimStart, List.dropWhile_append]
  split
  · rename_i hblank
    rw [List.isEmpty_iff.1 hblank, List.dropWhile_eq_nil_iff.2 h]
  · rw [trimEnd_append_of_blank h]

theorem trim_dropFinalReturn (line : List Char) : trim (dropFinalReturn line) = trim line := by
  rw [dropFinalReturn]
  split
  · rename_i hlast
    obtain ⟨x, rfl⟩ := List.getLast?_eq_some_iff.1 hlast
    have hreturn : ∀ c ∈ ['\r'], isBlank c = true := List.forall_mem_singleton.2 (by decide)
    rw [List.dropLast_concat, trim_append_of_blank hreturn]
  · rfl

/-- The pieces between line feeds are as good as the lines, when blank ones are left out and the others trimmed. -/
theorem filter_trim_lines (text : List Char) :
    ((lines text).map trim).filter (!·.isEmpty) = ((split (· == '\n') text).map trim).filter (!·.isEmpty) := by
  induction text using feed_induction with
  | single line hone =>
    by_cases hne : line = []
    · rw [hne]
      rfl
    · rw [lines_of_not_mem hne hone, split_of_not_mem hone]
  | feed line rest hone ih =>
    simp only [lines_append_feed hone, split_append_feed hone, List.map_cons, List.filter_cons, ih,
      trim_dropFinalReturn]

theorem IsTextOf.filter_trim_lines {ls : List (List Char)} {text : List Char} (h : IsTextOf ls text) :
    ((lines text).map trim).filter (!·.isEmpty) = (ls.map trim).filter (!·.isEmpty) := by
  rw [Text.filter_trim_lines]
  rcases h.text_eq with htext | htext
  · rw [htext, split_unlines h.one]
    simp [trim, trimStart, trimEnd]
  · have hsplit : split (· == '\n') text ++ [[]] = ls ++ [[]] := by
      rw [← split_unlines h.one, ← htext, split_append_cons rfl]
      rfl
    rw [List.append_cancel_right hsplit]

/-! ## Lines put in -/

/-- Lines, and the same ones with lines of some kind put between them. -/
inductive Inserted (added : List Char → Prop) : List (List Char) → List (List Char) → Prop where
  | nil : Inserted added [] []
  | keep (line : List Char) {ls more : List (List Char)} (h : Inserted added ls more) :
      Inserted added (line :: ls) (line :: more)
  | insert {line : List Char} {ls more : List (List Char)} (hadded : added line) (h : Inserted added ls more) :
      Inserted added ls (line :: more)

theorem Inserted.subset {added : List Char → Prop} {ls more : List (List Char)} (h : Inserted added ls more) :
    ls ⊆ more := by
  induction h with
  | nil => exact List.Subset.refl []
  | keep line _ ih => exact List.cons_subset_cons line ih
  | insert _ _ ih => exact List.subset_cons_of_subset _ ih

theorem Inserted.filterMap_eq {α : Type} {added : List Char → Prop} {f : List Char → Option α}
    (hnone : ∀ line, added line → f line = none) {ls more : List (List Char)} (h : Inserted added ls more) :
    more.filterMap f = ls.filterMap f := by
  induction h with
  | nil => rfl
  | keep line _ ih => rw [List.filterMap_cons, List.filterMap_cons, ih]
  | insert hadded _ ih => rw [List.filterMap_cons_none (hnone _ hadded), ih]

/-! ## Lines moved about -/

/-- The lines that are not blank, trimmed. -/
def filled (ls : List (List Char)) : List (List Char) := (ls.map trim).filter (!·.isEmpty)

theorem IsTextOf.filled_lines {ls : List (List Char)} {text : List Char} (h : IsTextOf ls text) :
    filled (lines text) = filled ls := h.filter_trim_lines

theorem filled_cons (line : List Char) (ls : List (List Char)) :
    filled (line :: ls) = if (trim line).isEmpty then filled ls else trim line :: filled ls := by
  rw [filled, List.map_cons, List.filter_cons]
  cases (trim line).isEmpty <;> rfl

theorem filled_lines_eq_nil_iff {text : List Char} : filled (lines text) = [] ↔ ∀ c ∈ text, isBlank c = true := by
  rw [(isTextOf_split text).filled_lines]
  induction text using feed_induction with
  | single line hone =>
    rw [split_of_not_mem hone, filled_cons, ← trim_eq_nil_iff]
    cases htrim : trim line with
    | nil => simp [filled]
    | cons c rest => simp
  | feed line rest hone ih =>
    have hfeed : isBlank '\n' = true := by decide
    rw [split_append_feed hone, filled_cons, List.forall_mem_append, List.forall_mem_cons, ← ih, ← trim_eq_nil_iff]
    cases htrim : trim line with
    | nil => simp [hfeed]
    | cons c more => simp

/-- Lines in another order, repeated, with other blanks around them, or with blank lines among them. -/
inductive Rearranged : List (List Char) → List (List Char) → Prop where
  | order {ls ls' : List (List Char)} (h : ls.Perm ls') : Rearranged ls ls'
  | twice (line : List Char) (ls : List (List Char)) : Rearranged (line :: ls) (line :: line :: ls)
  | pad {before after : List Char} (line : List Char) (ls : List (List Char))
      (hbefore : ∀ c ∈ before, isBlank c = true) (hafter : ∀ c ∈ after, isBlank c = true) :
      Rearranged (line :: ls) ((before ++ line ++ after) :: ls)
  | blank {line : List Char} (ls : List (List Char)) (h : ∀ c ∈ line, isBlank c = true) : Rearranged ls (line :: ls)
  | symm {ls ls' : List (List Char)} (h : Rearranged ls ls') : Rearranged ls' ls
  | trans {ls ls' ls'' : List (List Char)} (h : Rearranged ls ls') (h' : Rearranged ls' ls'') : Rearranged ls ls''

theorem Rearranged.mem_filled_iff {ls ls' : List (List Char)} (h : Rearranged ls ls') (line : List Char) :
    line ∈ filled ls ↔ line ∈ filled ls' := by
  induction h with
  | order h => exact ((h.map trim).filter _).mem_iff
  | twice first ls =>
    rw [filled_cons, filled_cons, filled_cons]
    by_cases hempty : (trim first).isEmpty = true
    · simp [hempty]
    · simp [hempty]
  | pad first ls hbefore hafter =>
    rw [filled_cons, filled_cons, List.append_assoc, trim_blanks_append hbefore, trim_append_of_blank hafter]
  | blank ls h =>
    rw [filled_cons, trim_eq_nil_iff.2 h]
    rfl
  | symm _ ih => exact ih.symm
  | trans _ _ ih ih' => exact ih.trans ih'

end ProcessProbe.Text
