import Mathlib.Data.List.TakeDrop
import ProcessProbe.Proofs.Text.Decimal
import ProcessProbe.Proofs.Text.Words
import ProcessProbe.Report.StatRecord

/-!
# The layout of stat records

What is read as a record is a number, a name in parentheses, a state and the number of the parent, with text after it
that holds no closing parenthesis. Main statement: between the name and the state stand one ASCII character of any kind
and any blanks, so the layout is the documented one just when that character is a blank.
-/

namespace ProcessProbe.Report.StatRecord

open Text (isBlank maxU32 words IsNumeral)

/-- What may follow the parent's number: nothing, or more fields after a blank. -/
structure IsTail (tail : List Char) : Prop where
  head_blank : ∀ c ∈ tail.head?, isBlank c = true
  no_close : ')' ∉ tail

/-- A text that is laid out as a record, with `separator` between the name and the word that starts with the state. -/
inductive LaidOut (r : StatRecord) (separator : List Char) : List Char → Prop where
  | mk {margin number gap token blanks parent tail : List Char} (hmargin : ∀ c ∈ margin, isBlank c = true)
      (hnumber : IsNumeral number r.pid) (hgap : ∀ c ∈ gap, isBlank c = true) (hseparator : ')' ∉ separator)
      (hstate : ∀ c ∈ r.state :: token, isBlank c = false ∧ c ≠ ')') (hne : blanks ≠ [])
      (hblanks : ∀ c ∈ blanks, isBlank c = true) (hparent : IsNumeral parent r.ppid) (htail : IsTail tail) :
      LaidOut r separator (margin ++ number ++ gap ++
        '(' :: (r.name ++ ')' :: (separator ++ r.state :: token ++ blanks ++ parent ++ tail)))

/-- The layout that is documented, with blanks between the name and the state. -/
def Documented (r : StatRecord) (text : List Char) : Prop :=
  ∃ separator, separator ≠ [] ∧ (∀ c ∈ separator, isBlank c = true) ∧ LaidOut r separator text

/-! ## Cutting at parentheses -/

theorem cutFirst?_append {c : Char} {x : List Char} (h : c ∉ x) (y : List Char) :
    cutFirst? c (x ++ c :: y) = some (x, y) := by
  have htake : ∀ d ∈ x, (d != c) = true := fun d hd => bne_iff_ne.2 fun he => h (he ▸ hd)
  rw [cutFirst?, List.span_eq_takeWhile_dropWhile, List.takeWhile_append_of_pos htake,
    List.dropWhile_append_of_pos htake, List.takeWhile_cons_of_neg (by simp), List.dropWhile_cons_of_neg (by simp),
    List.append_nil]

theorem cutLast?_append {c : Char} {y : List Char} (h : c ∉ y) (x : List Char) :
    cutLast? c (x ++ c :: y) = some (x, y) := by
  have hrev : (x ++ c :: y).reverse = y.reverse ++ c :: x.reverse := by simp
  rw [cutLast?, hrev, cutFirst?_append fun hc => h (List.mem_reverse.1 hc)]
  simp

theorem eq_of_cutFirst? {c : Char} {s x y : List Char} (h : cutFirst? c s = some (x, y)) :
    s = x ++ c :: y ∧ c ∉ x := by
  rw [cutFirst?, List.span_eq_takeWhile_dropWhile] at h
  cases hrest : s.dropWhile (· != c) with
  | nil => simp [hrest] at h
  | cons d rest =>
    simp only [hrest, Option.some.injEq, Prod.mk.injEq] at h
    obtain ⟨rfl, rfl⟩ := h
    have hd : (d != c) = false := by
      apply Text.eq_false_of_mem_head?_dropWhile (p := (· != c)) (s := s)
      rw [hrest]
      rfl
    obtain rfl : d = c := by simpa using hd
    constructor
    · rw [← hrest, List.takeWhile_append_dropWhile]
    · intro hc
      simpa using List.mem_takeWhile_imp hc

theorem eq_of_cutLast? {c : Char} {s x y : List Char} (h : cutLast? c s = some (x, y)) : s = x ++ c :: y ∧ c ∉ y := by
  obtain ⟨⟨after, before⟩, hcut, hparts⟩ := Option.map_eq_some_iff.1 h
  obtain ⟨hrev, hnot⟩ := eq_of_cutFirst? hcut
  obtain ⟨rfl, rfl⟩ := Prod.mk.injEq .. ▸ hparts
  constructor
  · rw [← List.reverse_reverse s, hrev]
    simp
  · simpa using hnot

/-! ## Reading what is laid out -/

theorem IsTail.trimEnd {tail : List Char} (h : IsTail tail) : IsTail (Text.trimEnd tail) := by
  obtain ⟨pad, hpad⟩ := Text.trimEnd_prefix tail
  refine ⟨?_, fun hc => h.no_close ((Text.trimEnd_prefix tail).subset hc)⟩
  intro c hc
  cases hend : Text.trimEnd tail with
  | nil => rw [hend] at hc; contradiction
  | cons d rest =>
    rw [hend] at hc hpad
    exact h.head_blank c (hpad ▸ hc)

theorem LaidOut.trimEnd {r : StatRecord} {separator text : List Char} (h : LaidOut r separator text) :
    LaidOut r separator (Text.trimEnd text) := by
  obtain ⟨hmargin, hnumber, hgap, hseparator, hstate, hne, hblanks, hparent, htail⟩ := h
  rename_i margin number gap token blanks parent tail
  obtain ⟨x, c, hx⟩ := (List.eq_nil_or_concat' parent).resolve_left hparent.ne_nil
  have hc : isBlank c = false := hparent.not_isBlank (by rw [hx]; simp)
  let before (t : List Char) := margin ++ number ++ gap ++
    '(' :: (r.name ++ ')' :: (separator ++ r.state :: token ++ blanks ++ parent ++ t))
  have hsplit (t : List Char) : before t = (margin ++ number ++ gap ++
      '(' :: (r.name ++ ')' :: (separator ++ r.state :: token ++ blanks ++ x))) ++ c :: t := by
    simp [before, hx]
  have htrim : Text.trimEnd (before tail) = before (Text.trimEnd tail) := by
    rw [hsplit, Text.trimEnd_append_cons hc, hsplit]
  exact htrim ▸ .mk hmargin hnumber hgap hseparator hstate hne hblanks hparent htail.trimEnd

theorem LaidOut.ne_nil {r : StatRecord} {separator text : List Char} (h : LaidOut r separator text) : text ≠ [] := by
  obtain ⟨-, -, -, -, -, -, -, -, -⟩ := h
  simp

/-- A record with one ASCII character and any blanks before its state is read as what it is laid out for. -/
theorem LaidOut.ofLine_eq {r : StatRecord} {c : Char} {pad line : List Char} (h : LaidOut r (c :: pad) line)
    (hc : c.toNat < 128) (hpad : ∀ d ∈ pad, isBlank d = true) (hpid : r.pid ≤ maxU32) (hppid : r.ppid ≤ maxU32) :
    ofLine line = .ok r := by
  obtain ⟨hmargin, hnumber, hgap, hseparator, hstate, hne, hblanks, hparent, htail⟩ := h
  rename_i margin number gap token blanks parent tail
  let before := margin ++ number ++ gap
  let fields := pad ++ r.state :: token ++ blanks ++ parent ++ tail
  have hblank {d : Char} {s : List Char} (hs : ∀ e ∈ s, isBlank e = true) (hd : isBlank d = false) : d ∉ s := by
    intro hmem
    simp [hs d hmem] at hd
  have hopen : '(' ∉ before := by
    simp [before, hblank hmargin (d := '(') (by decide), hblank hgap (d := '(') (by decide),
      hnumber.not_mem (c := '(') (by decide) (by decide)]
  have hclose : ')' ∉ c :: fields := by
    have hword : ')' ∉ r.state :: token := fun hmem => (hstate _ hmem).2 rfl
    have hsep := hseparator
    simp only [List.mem_cons, not_or] at hsep hword
    simp [fields, hsep, hword, hblank hblanks (d := ')') (by decide),
      hparent.not_mem (c := ')') (by decide) (by decide), htail.no_close]
  have hfirst : cutFirst? '(' (before ++ '(' :: (r.name ++ ')' :: c :: fields)) =
      some (before, r.name ++ ')' :: c :: fields) := cutFirst?_append hopen _
  have hlast : cutLast? ')' (before ++ '(' :: (r.name ++ ')' :: c :: fields)) =
      some (before ++ '(' :: r.name, c :: fields) := by
    rw [← cutLast?_append hclose]
    simp
  have htrim : Text.trim before = number := by
    simp only [before, List.append_assoc]
    rw [Text.trim_blanks_append hmargin, Text.trim_append_blanks (fun _ hd => hnumber.not_isBlank hd) hgap]
  have hwords : words fields = (r.state :: token) :: parent :: words tail := by
    simp only [fields, List.append_assoc]
    rw [Text.words_cons_blanks hpad, Text.words_append (List.cons_ne_nil _ _) (fun d hd => (hstate d hd).1),
      Text.words_cons_blanks hblanks, Text.words_append hparent.ne_nil (fun _ hd => hparent.not_isBlank hd)
        htail.head_blank]
    intro d hd
    obtain ⟨b, bs, rfl⟩ := List.exists_cons_of_ne_nil hne
    obtain rfl : b = d := by simpa using hd
    exact hblanks b List.mem_cons_self
  have hpidRead := Text.readU32?_eq_some_iff.2 ⟨hnumber, hpid⟩
  have hppidRead := Text.readU32?_eq_some_iff.2 ⟨hparent, hppid⟩
  have hlength : ¬(before ++ '(' :: r.name).length < before.length := by simp
  have hname : (before ++ '(' :: r.name).drop (before.length + 1) = r.name := by simp
  change ofLine (before ++ '(' :: (r.name ++ ')' :: c :: fields)) = .ok r
  rw [ofLine, hfirst, hlast]
  simp only [hlength, if_false, htrim, hpidRead, afterSeparator?, hc, if_true, hname, hwords, ofFields, hppidRead]

theorem LaidOut.ofText_eq {r : StatRecord} {c : Char} {pad text : List Char} (h : LaidOut r (c :: pad) text)
    (hc : c.toNat < 128) (hpad : ∀ d ∈ pad, isBlank d = true) (hpid : r.pid ≤ maxU32) (hppid : r.ppid ≤ maxU32) :
    ofText text = .ok r := by
  have hline := h.trimEnd
  rw [ofText]
  split
  · exact absurd ‹_› hline.ne_nil
  · rw [hline.ofLine_eq hc hpad hpid hppid]
    rfl

/-! ## What is read is laid out -/

/-- The numbers of a record have 32 bits. -/
def InRange (r : StatRecord) : Prop := r.pid ≤ maxU32 ∧ r.ppid ≤ maxU32

theorem between_marks {a b : Char} (hne : a ≠ b) {x y u v : List Char} (h : x ++ a :: y = u ++ b :: v)
    (hlength : x.length ≤ u.length) : ∃ z, u = x ++ a :: z := by
  rcases List.append_eq_append_iff.1 h with ⟨z, hu, hy⟩ | ⟨z, hx, hv⟩
  · cases z with
    | nil => simp [hne] at hy
    | cons d z =>
      obtain ⟨rfl, -⟩ := List.cons.inj hy
      exact ⟨z, hu⟩
  · obtain rfl : z = [] := by
      have hlengths := congrArg List.length hx
      simp at hlengths
      exact List.length_eq_zero_iff.1 (by omega)
    simp [hne.symm] at hv

theorem eq_of_ofFields {r : StatRecord} {pid : Nat} {name rest : List Char}
    (h : ofFields pid name (words rest) = .ok r) : r.pid = pid ∧ r.name = name ∧ r.ppid ≤ maxU32 ∧
      ∃ pad token blanks parent tail, rest = pad ++ r.state :: token ++ blanks ++ parent ++ tail ∧
        (∀ c ∈ pad, isBlank c = true) ∧ (∀ c ∈ r.state :: token, isBlank c = false) ∧ blanks ≠ [] ∧
        (∀ c ∈ blanks, isBlank c = true) ∧ IsNumeral parent r.ppid ∧ ∀ c ∈ tail.head?, isBlank c = true := by
  have hspaced := Text.spaced_words rest
  rw [ofFields.eq_def] at h
  split at h
  · rename_i state token parent more hwords
    rw [hwords] at hspaced
    cases hread : Text.readU32? parent with
    | none => simp [hread] at h
    | some ppid =>
      simp only [hread, Except.ok.injEq] at h
      subst h
      obtain ⟨hnumeral, hppid⟩ := Text.readU32?_eq_some_iff.1 hread
      cases hspaced with
      | @cons _ _ pad _ hpad _ hstate hhead hrest =>
        cases hrest with
        | @cons _ _ blanks tail hblanks hne hparent htail _ =>
          refine ⟨rfl, rfl, hppid, pad, token, blanks, parent, tail, by simp, hpad, hstate, ?_, hblanks, hnumeral,
            htail⟩
          -- The two words would be one without a blank between them.
          rintro rfl
          obtain ⟨d, ds, rfl⟩ := List.exists_cons_of_ne_nil hne
          have hd := hparent d List.mem_cons_self
          simp [hhead d (by simp)] at hd
  · contradiction
  · contradiction

theorem eq_of_afterSeparator? {after rest : List Char} (h : afterSeparator? after = some rest) :
    ∃ c, c.toNat < 128 ∧ after = c :: rest := by
  cases after with
  | nil => contradiction
  | cons c cs =>
    by_cases hc : c.toNat < 128
    · simp only [afterSeparator?, hc, if_true, Option.some.injEq] at h
      exact ⟨c, hc, by rw [h]⟩
    · simp [afterSeparator?, hc] at h

theorem laidOut_of_ofLine {r : StatRecord} {line : List Char} (h : ofLine line = .ok r) :
    r.InRange ∧ ∃ c pad, c.toNat < 128 ∧ (∀ d ∈ pad, isBlank d = true) ∧ LaidOut r (c :: pad) line := by
  rw [ofLine] at h
  split at h
  · contradiction
  · contradiction
  · rename_i before x upTo after hfirst hlast
    obtain ⟨hline, -⟩ := eq_of_cutFirst? hfirst
    obtain ⟨hline', hclose⟩ := eq_of_cutLast? hlast
    split at h
    · contradiction
    · rename_i hlength
      obtain ⟨name, rfl⟩ := between_marks (by decide) (hline.symm.trans hline') (Nat.not_lt.1 hlength)
      have hname : (before ++ '(' :: name).drop (before.length + 1) = name := by simp
      cases hpid : Text.readU32? (Text.trim before) with
      | none => simp [hpid] at h
      | some pid =>
        cases hrest : afterSeparator? after with
        | none => simp [hpid, hrest] at h
        | some rest =>
          simp only [hpid, hrest, hname] at h
          obtain ⟨rfl, rfl, hppid, pad, token, blanks, parent, tail, rfl, hpad, hstate, hne, hblanks, hparent, htail⟩ :=
            eq_of_ofFields h
          obtain ⟨hnumber, hpid⟩ := Text.readU32?_eq_some_iff.1 hpid
          obtain ⟨margin, gap, hbefore, hmargin, hgap⟩ := Text.exists_blanks_trim before
          obtain ⟨c, hc, rfl⟩ := eq_of_afterSeparator? hrest
          have hparts : ')' ∉ (c :: pad) ++ (r.state :: token) ++ blanks ++ parent ++ tail := hclose
          simp only [List.mem_append, not_or] at hparts
          obtain ⟨⟨⟨⟨hseparator, hword⟩, -⟩, -⟩, hend⟩ := hparts
          have hlaid : LaidOut r (c :: pad) (margin ++ Text.trim before ++ gap ++
              '(' :: (r.name ++ ')' :: (c :: pad ++ r.state :: token ++ blanks ++ parent ++ tail))) :=
            .mk hmargin hnumber hgap hseparator (fun d hd => ⟨hstate d hd, fun he => hword (he ▸ hd)⟩) hne hblanks
              hparent ⟨htail, hend⟩
          refine ⟨⟨hpid, hppid⟩, c, pad, hc, hpad, ?_⟩
          rw [← hbefore] at hlaid
          simpa [hline'] using hlaid

theorem LaidOut.append_blanks {r : StatRecord} {separator text after : List Char} (h : LaidOut r separator text)
    (hafter : ∀ c ∈ after, isBlank c = true) : LaidOut r separator (text ++ after) := by
  obtain ⟨hmargin, hnumber, hgap, hseparator, hstate, hne, hblanks, hparent, htail⟩ := h
  rename_i tail
  have htail' : IsTail (tail ++ after) := by
    constructor
    · intro c hc
      cases tail with
      | nil => exact hafter c (List.mem_of_mem_head? hc)
      | cons d rest => exact htail.head_blank c hc
    · have hclose : ')' ∉ after := fun hc => absurd (hafter _ hc) (by decide)
      simp [htail.no_close, hclose]
  have h := LaidOut.mk hmargin hnumber hgap hseparator hstate hne hblanks hparent htail'
  simpa using h

theorem laidOut_of_ofText {r : StatRecord} {text : List Char} (h : ofText text = .ok r) :
    r.InRange ∧ ∃ c pad, c.toNat < 128 ∧ (∀ d ∈ pad, isBlank d = true) ∧ LaidOut r (c :: pad) text := by
  have hline : ofLine (Text.trimEnd text) = .ok r := by
    rw [ofText] at h
    split at h
    · contradiction
    · cases hread : ofLine (Text.trimEnd text) with
      | error e => simp [hread, Except.mapError] at h
      | ok read => simpa [hread, Except.mapError] using h
  obtain ⟨hrange, c, pad, hc, hpad, hlaid⟩ := laidOut_of_ofLine hline
  obtain ⟨after, htext, hafter⟩ := Text.trimEnd_append_blanks text
  refine ⟨hrange, c, pad, hc, hpad, ?_⟩
  rw [htext]
  exact hlaid.append_blanks hafter

/-! ## The separator -/

theorem LaidOut.cutFirst?_eq {r : StatRecord} {c : Char} {cs text : List Char} (h : LaidOut r (c :: cs) text) :
    ∃ before after, cutFirst? '(' text = some (before, r.name ++ ')' :: c :: after) := by
  obtain ⟨hmargin, hnumber, hgap, -, -, -, -, -, -⟩ := h
  have hopen {s : List Char} (hs : ∀ d ∈ s, isBlank d = true) : '(' ∉ s := fun hmem => absurd (hs _ hmem) (by decide)
  have hnot := hnumber.not_mem (c := '(') (by decide) (by decide)
  exact ⟨_, _, cutFirst?_append (by simp [hopen hmargin, hnot, hopen hgap]) _⟩

/-- The name ends where the separator starts, so two readings of one text agree on the separator's first character. -/
theorem LaidOut.separator_head {r : StatRecord} {c d : Char} {cs ds text : List Char} (h : LaidOut r (c :: cs) text)
    (h' : LaidOut r (d :: ds) text) : c = d := by
  obtain ⟨_, _, hc⟩ := h.cutFirst?_eq
  obtain ⟨_, _, hd⟩ := h'.cutFirst?_eq
  have heq := hc.symm.trans hd
  simp only [Option.some.injEq, Prod.mk.injEq, List.append_cancel_left_eq, List.cons.injEq, true_and] at heq
  exact heq.2.1

theorem LaidOut.documented_iff {r : StatRecord} {c : Char} {pad text : List Char} (h : LaidOut r (c :: pad) text)
    (hpad : ∀ d ∈ pad, isBlank d = true) : Documented r text ↔ isBlank c = true := by
  constructor
  · rintro ⟨separator, hne, hblank, hlaid⟩
    obtain ⟨d, ds, rfl⟩ := List.exists_cons_of_ne_nil hne
    rw [h.separator_head hlaid]
    exact hblank d List.mem_cons_self
  · intro hc
    exact ⟨c :: pad, List.cons_ne_nil _ _, List.forall_mem_cons.2 ⟨hc, hpad⟩, h⟩

/-- A text is read as a record just when it is laid out as that record with numbers of 32 bits, with one ASCII character
of any kind and any blanks between the name and the state. The layout is the documented one just when that character is
a blank. -/
theorem ofText_eq_ok_iff_laidOut (text : List Char) (r : StatRecord) :
    ofText text = .ok r ↔ r.InRange ∧ ∃ c pad, c.toNat < 128 ∧ (∀ d ∈ pad, isBlank d = true) ∧
      LaidOut r (c :: pad) text ∧ (Documented r text ↔ isBlank c = true) := by
  constructor
  · intro h
    obtain ⟨hrange, c, pad, hc, hpad, hlaid⟩ := laidOut_of_ofText h
    exact ⟨hrange, c, pad, hc, hpad, hlaid, hlaid.documented_iff hpad⟩
  · rintro ⟨⟨hpid, hppid⟩, c, pad, hc, hpad, hlaid, -⟩
    exact hlaid.ofText_eq hc hpad hpid hppid

/-- The separator is skipped unseen: a letter that stands right after the name is taken for it. -/
theorem separator_unseen : ofText "5 (a)RS 1".toList = .ok ⟨5, ['a'], 'S', 1⟩ ∧
    ¬Documented ⟨5, ['a'], 'S', 1⟩ "5 (a)RS 1".toList := by
  constructor
  · decide
  · rintro ⟨separator, hne, hblank, hlaid⟩
    obtain ⟨c, cs, rfl⟩ := List.exists_cons_of_ne_nil hne
    obtain ⟨before, after, hcut⟩ := hlaid.cutFirst?_eq
    have hname : cutFirst? '(' "5 (a)RS 1".toList = some ("5 ".toList, "a)RS 1".toList) := by decide
    obtain ⟨-, rfl, -⟩ : "5 ".toList = before ∧ 'R' = c ∧ "S 1".toList = after := by
      simpa using hname.symm.trans hcut
    exact absurd (hblank 'R' List.mem_cons_self) (by decide)

end ProcessProbe.Report.StatRecord
