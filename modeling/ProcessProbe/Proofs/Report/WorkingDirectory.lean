import Mathlib.Data.List.Induction
import ProcessProbe.Report.WorkingDirectory

/-!
# The open working directory, line by line

The flag that the decoder carries from line to line says whether a line belongs to a descriptor `cwd`. Main statements:
the name that is decoded is that of the first name line inside such a descriptor, whatever the other field lines are;
and field lines without such a descriptor name no directory.
-/

namespace ProcessProbe.Report.WorkingDirectory

/-- A line of the report: it is empty, or it starts with the letter of its field. -/
def IsField (line : List Char) : Prop := ∀ tag ∈ line.head?, tag.isAlpha = true

instance : (line : List Char) → Decidable (IsField line)
  | [] => isTrue fun _ h => nomatch h
  | tag :: _ => decidable_of_iff (tag.isAlpha = true) (by simp [IsField])

def StartsRecord (line : List Char) : Prop := line.head? = some 'p' ∨ line.head? = some 'f'

def cwdLine : List Char := "fcwd".toList

/-- What follows these lines belongs to a descriptor `cwd`: none has started since. -/
def InCwd (before : List (List Char)) : Prop :=
  ∃ earlier since, before = earlier ++ cwdLine :: since ∧ ∀ line ∈ since, ¬StartsRecord line

def FirstName (lines : List (List Char)) (name : List Char) : Prop :=
  ∃ before after, lines = before ++ ('n' :: name) :: after ∧ InCwd before ∧
    ∀ earlier other between, before = earlier ++ ('n' :: other) :: between → ¬InCwd earlier

theorem firstName_of_process {process : List Char} (hprocess : process.head? = some 'p') (name : List Char)
    (after : List (List Char)) : FirstName (process :: cwdLine :: ('n' :: name) :: after) name := by
  refine ⟨[process, cwdLine], after, rfl, ⟨[process], [], rfl, by simp⟩, ?_⟩
  intro earlier other between hsplit
  have hmem : 'n' :: other ∈ [process, cwdLine] := hsplit ▸ by simp
  rcases List.mem_cons.1 hmem with rfl | hmem
  · exact absurd (Option.some.inj hprocess) (by decide)
  · simp [cwdLine] at hmem

def flagAfter (inside : Bool) : List Char → Bool
  | 'p' :: _ => false
  | 'f' :: value => value == "cwd".toList
  | _ => inside

private theorem flagAfter_of_startsRecord {inside : Bool} {line : List Char} (h : StartsRecord line) :
    flagAfter inside line = true ↔ line = cwdLine := by
  cases line with
  | nil => simp [StartsRecord] at h
  | cons tag value =>
    rcases h with h | h
    · obtain rfl : tag = 'p' := Option.some.inj h
      simp [flagAfter, cwdLine]
    · obtain rfl : tag = 'f' := Option.some.inj h
      simp [flagAfter, cwdLine]

private theorem flagAfter_of_not_startsRecord (inside : Bool) {line : List Char} (h : ¬StartsRecord line) :
    flagAfter inside line = inside := by
  rw [StartsRecord, not_or] at h
  rw [flagAfter.eq_def]
  split
  · exact absurd rfl h.1
  · exact absurd rfl h.2
  · rfl

theorem not_inCwd_nil : ¬InCwd [] := by
  rintro ⟨earlier, since, h, -⟩
  simp at h

private theorem startsRecord_cwdLine : StartsRecord cwdLine := .inr rfl

theorem inCwd_append_singleton {before : List (List Char)} {line : List Char} :
    InCwd (before ++ [line]) ↔ line = cwdLine ∨ InCwd before ∧ ¬StartsRecord line := by
  constructor
  · rintro ⟨earlier, since, hsplit, hsince⟩
    rcases List.eq_nil_or_concat since with rfl | ⟨since, last, rfl⟩
    · exact .inl (List.append_singleton_inj.1 hsplit).2
    · rw [List.concat_eq_append, ← List.cons_append, ← List.append_assoc] at hsplit
      obtain ⟨rfl, rfl⟩ := List.append_singleton_inj.1 hsplit
      refine .inr ⟨⟨earlier, since, rfl, fun l hl => hsince l ?_⟩, hsince line ?_⟩
      · simp [hl]
      · simp
  · rintro (rfl | ⟨⟨earlier, since, rfl, hsince⟩, hline⟩)
    · exact ⟨before, [], rfl, by simp⟩
    · refine ⟨earlier, since ++ [line], by simp, fun l hl => ?_⟩
      rcases List.mem_append.1 hl with hl | hl
      · exact hsince l hl
      · exact List.mem_singleton.1 hl ▸ hline

/-- The flag tells whether the next line belongs to a descriptor `cwd`. -/
theorem foldl_flagAfter_iff (before : List (List Char)) :
    before.foldl flagAfter false = true ↔ InCwd before := by
  -- The last line decides, so the lines are taken from the end.
  induction before using List.reverseRecOn with
  | nil => exact iff_of_false Bool.false_ne_true not_inCwd_nil
  | append_singleton before line ih =>
    rw [List.foldl_append, List.foldl_cons, List.foldl_nil, inCwd_append_singleton]
    by_cases hline : StartsRecord line
    · rw [flagAfter_of_startsRecord hline]
      simp [hline]
    · rw [flagAfter_of_not_startsRecord _ hline, ih]
      have hne : line ≠ cwdLine := fun heq => hline (heq ▸ startsRecord_cwdLine)
      simp [hne, hline]

theorem ofLines_cons {n : Nat} {inside : Bool} {line : List Char} (rest : List (List Char)) (hfield : IsField line)
    (hname : inside = true → line.head? ≠ some 'n') :
    ofLines n inside (line :: rest) = ofLines (n + 1) (flagAfter inside line) rest := by
  cases line with
  | nil => rfl
  | cons tag value =>
    have halpha : tag.isAlpha = true := hfield tag rfl
    rw [ofLines, halpha]
    simp only [Bool.not_true, Bool.false_eq_true, if_false]
    by_cases hp : tag = 'p'
    · subst hp
      rfl
    by_cases hf : tag = 'f'
    · subst hf
      rfl
    have hflag : flagAfter inside (tag :: value) = inside :=
      flagAfter_of_not_startsRecord inside (by simp [StartsRecord, hp, hf])
    have hskip : ¬(decide (tag = 'n') && inside) = true := by
      rw [Bool.and_eq_true, decide_eq_true_eq]
      rintro ⟨rfl, hinside⟩
      exact hname hinside rfl
    rw [if_neg hp, if_neg hf, if_neg hskip, hflag]

theorem ofLines_append (n : Nat) {inside : Bool} {before : List (List Char)} (rest : List (List Char))
    (hfield : ∀ line ∈ before, IsField line)
    (hname : ∀ earlier other between, before = earlier ++ ('n' :: other) :: between →
      earlier.foldl flagAfter inside = false) :
    ofLines n inside (before ++ rest) = ofLines (n + before.length) (before.foldl flagAfter inside) rest := by
  induction before generalizing n inside with
  | nil => rfl
  | cons line before ih =>
    have hskip : inside = true → line.head? ≠ some 'n' := by
      intro hinside hhead
      obtain ⟨other, rfl⟩ : ∃ other, line = 'n' :: other := List.head?_eq_some_iff.1 hhead
      exact absurd (hname [] other before rfl) (by simp [hinside])
    rw [List.cons_append, ofLines_cons _ (hfield line List.mem_cons_self) hskip, ih]
    · rw [List.foldl_cons, List.length_cons, Nat.add_assoc, Nat.add_comm 1]
    · exact fun l hl => hfield l (List.mem_cons_of_mem line hl)
    · intro earlier other between hsplit
      exact hname (line :: earlier) other between (congrArg (line :: ·) hsplit)

theorem ofLines_of_firstName {lines : List (List Char)} {name : List Char} (hne : name ≠ [])
    (hfield : ∀ line ∈ lines, IsField line) (h : FirstName lines name) :
    ofLines 1 false lines = .ok (some (ofName name)) := by
  obtain ⟨before, after, rfl, hinside, hfirst⟩ := h
  have hbefore : ∀ line ∈ before, IsField line := fun l hl => hfield l (List.mem_append_left _ hl)
  rw [ofLines_append 1 _ hbefore, (foldl_flagAfter_iff before).2 hinside]
  · simp [ofLines, hne]
  · intro earlier other between hsplit
    rw [Bool.eq_false_iff, Ne, foldl_flagAfter_iff]
    exact hfirst earlier other between hsplit

theorem ofLines_of_no_cwdLine {lines : List (List Char)} (hfield : ∀ line ∈ lines, IsField line)
    (h : cwdLine ∉ lines) : ofLines 1 false lines = .ok none := by
  have hout {earlier : List (List Char)} (hsub : earlier ⊆ lines) : earlier.foldl flagAfter false = false := by
    rw [Bool.eq_false_iff, Ne, foldl_flagAfter_iff]
    rintro ⟨a, b, rfl, -⟩
    exact h (hsub (by simp))
  rw [← List.append_nil lines, ofLines_append 1 [] hfield, hout (List.Subset.refl lines)]
  · rfl
  · intro earlier other between hsplit
    exact hout (hsplit ▸ List.subset_append_left _ _)

end ProcessProbe.Report.WorkingDirectory
