import Mathlib.Data.List.Basic
import Mathlib.Data.List.TakeWhile
import ProcessProbe.Text.Lines

/-!
# Words and lines

A text that is put together from words with blanks around them, or from lines with line feeds after them, falls into
the same parts again.
-/

namespace ProcessProbe.Text

variable {α : Type}

theorem split_eq_splitOnP (p : α → Bool) (s : List α) : split p s = s.splitOnP p := by
  induction s with
  | nil => rfl
  | cons c s ih => rw [split_cons, List.splitOnP_cons_eq_if_modifyHead, ih]

theorem split_append_cons {p : α → Bool} {c : α} (h : p c = true) (x y : List α) :
    split p (x ++ c :: y) = split p x ++ split p y := by
  simp only [split_eq_splitOnP, List.splitOnP_append_cons x y h]

theorem split_of_forall {p : α → Bool} {s : List α} (h : ∀ c ∈ s, p c = false) : split p s = [s] := by
  rw [split_eq_splitOnP, List.splitOnP_eq_singleton h]

theorem not_of_mem_split {p : α → Bool} {s part : List α} (h : part ∈ split p s) : ∀ c ∈ part, p c = false := by
  induction s generalizing part with
  | nil =>
    rw [List.mem_singleton.1 h]
    exact fun c hc => absurd hc List.not_mem_nil
  | cons a s ih =>
    rw [split_cons] at h
    by_cases ha : p a = true
    · rw [if_pos ha] at h
      rcases List.mem_cons.1 h with rfl | h
      · exact fun c hc => absurd hc List.not_mem_nil
      · exact ih h
    · rw [if_neg ha] at h
      obtain ⟨first, parts, hparts⟩ := List.exists_cons_of_ne_nil (split_ne_nil p s)
      rw [hparts, List.modifyHead_cons] at h
      rcases List.mem_cons.1 h with rfl | h
      · intro c hc
        rcases List.mem_cons.1 hc with rfl | hc
        · simpa using ha
        · exact ih (hparts ▸ List.mem_cons_self) c hc
      · exact ih (hparts ▸ List.mem_cons_of_mem first h)

theorem words_append_blank {c : Char} (h : isBlank c = true) (x y : List Char) :
    words (x ++ c :: y) = words x ++ words y := by
  rw [words, split_append_cons h, List.filter_append]
  rfl

theorem words_eq_nil {s : List Char} (h : ∀ c ∈ s, isBlank c = true) : words s = [] := by
  induction s with
  | nil => rfl
  | cons c s ih =>
    rw [words_cons_blank (h c List.mem_cons_self)]
    exact ih fun d hd => h d (List.mem_cons_of_mem c hd)

theorem words_eq_singleton {w : List Char} (hne : w ≠ []) (h : ∀ c ∈ w, isBlank c = false) : words w = [w] := by
  rw [words, split_of_forall h]
  simp [hne]

theorem words_append_blanks {x pad : List Char} (h : ∀ c ∈ pad, isBlank c = true) : words (x ++ pad) = words x := by
  cases pad with
  | nil => rw [List.append_nil]
  | cons c pad =>
    rw [words_append_blank (h c List.mem_cons_self), words_eq_nil fun d hd => h d (List.mem_cons_of_mem c hd),
      List.append_nil]

/-- A word ends where a blank follows it. -/
theorem words_append {w rest : List Char} (hne : w ≠ []) (hw : ∀ c ∈ w, isBlank c = false)
    (hrest : ∀ c ∈ rest.head?, isBlank c = true) : words (w ++ rest) = w :: words rest := by
  cases rest with
  | nil => rw [List.append_nil, words_eq_singleton hne hw, words_nil]
  | cons c rest =>
    have hc : isBlank c = true := hrest c rfl
    rw [words_append_blank hc, words_eq_singleton hne hw, words_cons_blank hc]
    rfl

theorem trimEnd_append_blanks (s : List Char) : ∃ pad, s = trimEnd s ++ pad ∧ ∀ c ∈ pad, isBlank c = true := by
  refine ⟨(s.reverse.takeWhile isBlank).reverse, ?_, ?_⟩
  · rw [trimEnd, ← List.reverse_append, List.takeWhile_append_dropWhile, List.reverse_reverse]
  · intro c hc
    exact List.mem_takeWhile_imp (List.mem_reverse.1 hc)

theorem words_trimEnd (s : List Char) : words (trimEnd s) = words s := by
  obtain ⟨pad, hs, hpad⟩ := trimEnd_append_blanks s
  rw [hs, words_append_blanks hpad, ← hs]

theorem words_trimStart (s : List Char) : words (trimStart s) = words s := by
  induction s with
  | nil => rfl
  | cons c s ih =>
    by_cases hc : isBlank c = true
    · rw [words_cons_blank hc, ← ih, trimStart, List.dropWhile_cons_of_pos hc, trimStart]
    · rw [trimStart, List.dropWhile_cons_of_neg hc]

theorem words_trim (s : List Char) : words (trim s) = words s := by
  rw [trim, words_trimEnd, words_trimStart]

theorem trimEnd_append_cons {c : Char} (hc : isBlank c = false) (x y : List Char) :
    trimEnd (x ++ c :: y) = x ++ c :: trimEnd y := by
  have hrev : (x ++ c :: y).reverse = y.reverse ++ c :: x.reverse := by simp
  rw [trimEnd, hrev, trimEnd]
  by_cases hy : ∀ d ∈ y, isBlank d = true
  · have hall : ∀ d ∈ y.reverse, isBlank d = true := fun d hd => hy d (List.mem_reverse.1 hd)
    rw [List.dropWhile_append_of_pos hall, List.dropWhile_cons_of_neg (by simp [hc])]
    have hnil : y.reverse.dropWhile isBlank = [] := List.dropWhile_eq_nil_iff.2 hall
    simp [hnil]
  · have hne : y.reverse.dropWhile isBlank ≠ [] := by
      intro hnil
      exact hy fun d hd => List.dropWhile_eq_nil_iff.1 hnil d (List.mem_reverse.2 hd)
    have hdrop : (y.reverse ++ c :: x.reverse).dropWhile isBlank = y.reverse.dropWhile isBlank ++ c :: x.reverse := by
      rw [List.dropWhile_append]
      simp [hne]
    rw [hdrop]
    simp

theorem trimEnd_prefix (s : List Char) : trimEnd s <+: s := by
  obtain ⟨pad, hs, -⟩ := trimEnd_append_blanks s
  exact ⟨pad, hs.symm⟩

theorem trim_append_blanks {w pad : List Char} (hw : ∀ c ∈ w, isBlank c = false)
    (hpad : ∀ c ∈ pad, isBlank c = true) : trim (w ++ pad) = w := by
  have hend : trimEnd pad = [] := by
    rw [trimEnd, List.dropWhile_eq_nil_iff.2 fun c hc => hpad c (List.mem_reverse.1 hc), List.reverse_nil]
  rcases List.eq_nil_or_concat' w with rfl | ⟨x, c, rfl⟩
  · rw [List.nil_append, trim, trimStart, List.dropWhile_eq_nil_iff.2 hpad]
    rfl
  · have hc : isBlank c = false := hw c (by simp)
    have hstart : trimStart (x ++ [c] ++ pad) = x ++ c :: pad := by
      cases x with
      | nil => exact List.dropWhile_cons_of_neg (by simp [hc])
      | cons d x =>
        have hd : isBlank d = false := hw d (by simp)
        rw [List.append_assoc]
        exact List.dropWhile_cons_of_neg (by simp [hd])
    rw [trim, hstart, trimEnd_append_cons hc, hend]

theorem trim_eq_self {w : List Char} (h : ∀ c ∈ w, isBlank c = false) : trim w = w := by
  have hnone : ∀ c ∈ ([] : List Char), isBlank c = true := by simp
  simpa using trim_append_blanks h hnone

theorem trim_blanks_append {pad : List Char} (h : ∀ c ∈ pad, isBlank c = true) (s : List Char) :
    trim (pad ++ s) = trim s := by
  rw [trim, trimStart, List.dropWhile_append_of_pos h, trim, trimStart]

theorem exists_blanks_trim (s : List Char) :
    ∃ pad after, s = pad ++ trim s ++ after ∧ (∀ c ∈ pad, isBlank c = true) ∧ ∀ c ∈ after, isBlank c = true := by
  obtain ⟨after, hend, hafter⟩ := trimEnd_append_blanks (trimStart s)
  refine ⟨s.takeWhile isBlank, after, ?_, fun c hc => List.mem_takeWhile_imp hc, hafter⟩
  rw [trim, List.append_assoc, ← hend, trimStart, List.takeWhile_append_dropWhile]

theorem trim_eq_nil_iff {s : List Char} : trim s = [] ↔ ∀ c ∈ s, isBlank c = true := by
  constructor
  · intro h c hc
    obtain ⟨pad, after, hs, hpad, hafter⟩ := exists_blanks_trim s
    rw [hs, h, List.append_nil] at hc
    cases List.mem_append.1 hc with
    | inl hc => exact hpad c hc
    | inr hc => exact hafter c hc
  · intro h
    rw [trim, trimStart, List.dropWhile_eq_nil_iff.2 h]
    rfl

/-- A line that holds words in order: with blanks between them, and any before and after them. -/
inductive Spaced : List (List Char) → List Char → Prop where
  | nil {pad : List Char} (hpad : ∀ c ∈ pad, isBlank c = true) : Spaced [] pad
  | cons {w : List Char} {ws : List (List Char)} {pad rest : List Char} (hpad : ∀ c ∈ pad, isBlank c = true)
      (hne : w ≠ []) (hw : ∀ c ∈ w, isBlank c = false) (hrest : ∀ c ∈ rest.head?, isBlank c = true)
      (hws : Spaced ws rest) : Spaced (w :: ws) (pad ++ w ++ rest)

theorem Spaced.cons_space {w : List Char} {ws : List (List Char)} {rest : List Char} (hne : w ≠ [])
    (hw : ∀ c ∈ w, isBlank c = false) (hrest : ∀ c ∈ rest.head?, isBlank c = true) (hws : Spaced ws rest) :
    Spaced (w :: ws) (' ' :: (w ++ rest)) := by
  have hpad : ∀ c ∈ [' '], isBlank c = true := List.forall_mem_singleton.2 (by decide)
  exact Spaced.cons hpad hne hw hrest hws

theorem words_cons_blanks {pad : List Char} (h : ∀ c ∈ pad, isBlank c = true) (s : List Char) :
    words (pad ++ s) = words s := by
  induction pad with
  | nil => rfl
  | cons c pad ih =>
    rw [List.cons_append, words_cons_blank (h c List.mem_cons_self)]
    exact ih fun d hd => h d (List.mem_cons_of_mem c hd)

theorem Spaced.words_eq {ws : List (List Char)} {line : List Char} (h : Spaced ws line) : words line = ws := by
  induction h with
  | nil hpad => exact words_eq_nil hpad
  | cons hpad hne hw hrest _ ih => rw [List.append_assoc, words_cons_blanks hpad, words_append hne hw hrest, ih]

theorem eq_false_of_mem_head?_dropWhile {p : α → Bool} {s : List α} {c : α} (h : c ∈ (s.dropWhile p).head?) :
    p c = false := by
  have hhead := List.head?_dropWhile_not p s
  rw [Option.mem_def.1 h] at hhead
  simpa using hhead

theorem head?_trim_eq_some_iff {s : List Char} {c : Char} : (trim s).head? = some c ↔
    isBlank c = false ∧ ∃ before after, s = before ++ c :: after ∧ ∀ b ∈ before, isBlank b = true := by
  constructor
  · intro h
    obtain ⟨pad, after, hs, hpad, -⟩ := exists_blanks_trim s
    obtain ⟨t, ht⟩ := List.head?_eq_some_iff.1 h
    have hfirst : c ∈ (s.dropWhile isBlank).head? := by
      obtain ⟨rest, hrest⟩ := trimEnd_prefix (trimStart s)
      rw [← trim, ht] at hrest
      rw [← trimStart, ← hrest]
      rfl
    refine ⟨eq_false_of_mem_head?_dropWhile hfirst, pad, t ++ after, ?_, hpad⟩
    simpa [ht] using hs
  · intro h
    obtain ⟨hc, before, after, rfl, hbefore⟩ := h
    rw [trim_blanks_append hbefore, trim, trimStart, List.dropWhile_cons_of_neg (by simp [hc]),
      ← List.nil_append (c :: after), trimEnd_append_cons hc]
    rfl

/-- Every text is spaced out by its own words. -/
theorem spaced_words (s : List Char) : Spaced (words s) s := by
  induction h : s.length using Nat.strongRecOn generalizing s with
  | ind n ih =>
    subst h
    have hpad : ∀ c ∈ s.takeWhile isBlank, isBlank c = true := fun c hc => List.mem_takeWhile_imp hc
    have hs : s.takeWhile isBlank ++ trimStart s = s := List.takeWhile_append_dropWhile
    cases hstart : trimStart s with
    | nil =>
      rw [hstart, List.append_nil] at hs
      have hwords : words s = [] := words_eq_nil (hs ▸ hpad)
      rw [hwords]
      exact .nil (hs ▸ hpad)
    | cons c t =>
      have hc : isBlank c = false := by
        apply eq_false_of_mem_head?_dropWhile (s := s)
        rw [← trimStart, hstart]
        rfl
      -- The first word is what goes on without a blank, and the rest is shorter.
      let w := (c :: t).takeWhile (!isBlank ·)
      let rest := (c :: t).dropWhile (!isBlank ·)
      have ht : w ++ rest = c :: t := List.takeWhile_append_dropWhile
      have hne : w ≠ [] := by simp [w, hc]
      have hw : ∀ d ∈ w, isBlank d = false := fun d hd => by simpa using List.mem_takeWhile_imp hd
      have hrest : ∀ d ∈ rest.head?, isBlank d = true := fun d hd => by
        simpa using eq_false_of_mem_head?_dropWhile hd
      have hsplit : s = s.takeWhile isBlank ++ w ++ rest := by rw [List.append_assoc, ht, ← hstart, hs]
      have hlength : rest.length < s.length := by
        have hpos := List.length_pos_iff.2 hne
        rw [hsplit]
        simp
        omega
      have hwords : words s = w :: words rest := by
        rw [← words_trimStart, hstart, ← ht, words_append hne hw hrest]
      rw [hwords]
      exact hsplit ▸ .cons hpad hne hw hrest (ih _ hlength rest rfl)

/-- The text of lines, each with a line feed after it. -/
def unlines (ls : List (List Char)) : List Char := ls.flatMap (· ++ ['\n'])

theorem split_unlines {ls : List (List Char)} (h : ∀ l ∈ ls, '\n' ∉ l) :
    split (· == '\n') (unlines ls) = ls ++ [[]] := by
  induction ls with
  | nil => rfl
  | cons l ls ih =>
    have hl : ∀ c ∈ l, (c == '\n') = false := by
      intro c hc
      exact beq_eq_false_iff_ne.2 fun he => h l List.mem_cons_self (he ▸ hc)
    have hcons : unlines (l :: ls) = l ++ '\n' :: unlines ls := by simp [unlines]
    rw [hcons, split_append_cons rfl, split_of_forall hl, ih fun l' hl' => h l' (List.mem_cons_of_mem l hl')]
    rfl

theorem lines_unlines {ls : List (List Char)} (h : ∀ l ∈ ls, '\n' ∉ l) :
    lines (unlines ls) = ls.map dropFinalReturn := by
  rw [lines, split_unlines h]
  simp

theorem words_dropFinalReturn (line : List Char) : words (dropFinalReturn line) = words line := by
  rw [dropFinalReturn]
  split
  · rename_i hlast
    obtain ⟨x, rfl⟩ := List.getLast?_eq_some_iff.1 hlast
    rw [List.dropLast_concat, words_append_blanks]
    intro c hc
    rw [List.mem_singleton.1 hc]
    decide
  · rfl

theorem dropFinalReturn_eq_self {line : List Char} (h : '\r' ∉ line) : dropFinalReturn line = line := by
  rw [dropFinalReturn, if_neg]
  intro hlast
  exact h (List.mem_of_getLast? hlast)

end ProcessProbe.Text
