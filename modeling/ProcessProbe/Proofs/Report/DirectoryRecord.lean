import ProcessProbe.Proofs.Report.WorkingDirectory
import ProcessProbe.Proofs.Text.Lines

/-!
# Records of the working directory

A report is read up to the first line that settles it: one that is no field line, or the first name inside a descriptor
`cwd`. Main statements: of field lines, the name that is returned is exactly that name, as it stands in the text; and
the reading fails just when a flaw stands before any name that is returned, where a record without a name is no flaw to
it unless the report ends with it.
-/

namespace ProcessProbe.Report.WorkingDirectory

/-! ## Where the reading ends -/

/-- Field lines, none of which gives a name inside a descriptor `cwd`. -/
structure Passed (lines : List (List Char)) : Prop where
  isField : ∀ line ∈ lines, IsField line
  not_inCwd : ∀ earlier name later, lines = earlier ++ ('n' :: name) :: later → ¬InCwd earlier

/-- The line after `before` is no field line, or it gives a name inside a descriptor `cwd`. -/
def Settles (before : List (List Char)) (line : List Char) : Prop :=
  ¬IsField line ∨ InCwd before ∧ ∃ name, line = 'n' :: name

theorem passed_nil : Passed [] where
  isField := fun _ h => absurd h List.not_mem_nil
  not_inCwd := fun earlier name later h => absurd h (by simp)

theorem Passed.append_singleton {before : List (List Char)} {line : List Char} (h : Passed before)
    (hline : ¬Settles before line) : Passed (before ++ [line]) where
  isField := by
    intro l hl
    rcases List.mem_append.1 hl with hl | hl
    · exact h.isField l hl
    · rw [List.mem_singleton.1 hl]
      exact Classical.not_not.1 fun hstray => hline (.inl hstray)
  not_inCwd := by
    intro earlier name later hsplit hin
    rcases List.eq_nil_or_concat' later with rfl | ⟨later, last, rfl⟩
    · obtain ⟨rfl, rfl⟩ := List.append_singleton_inj.1 hsplit
      exact hline (.inr ⟨hin, name, rfl⟩)
    · rw [← List.cons_append, ← List.append_assoc] at hsplit
      exact h.not_inCwd earlier name later (List.append_singleton_inj.1 hsplit).1 hin

theorem passed_or_settles (lines : List (List Char)) :
    Passed lines ∨ ∃ before line after, lines = before ++ line :: after ∧ Passed before ∧ Settles before line := by
  induction lines using List.reverseRecOn with
  | nil => exact .inl passed_nil
  | append_singleton lines line ih =>
    rcases ih with hpassed | ⟨before, other, after, rfl, hpassed, hsettles⟩
    · by_cases hline : Settles lines line
      · exact .inr ⟨lines, line, [], rfl, hpassed, hline⟩
      · exact .inl (hpassed.append_singleton hline)
    · exact .inr ⟨before, other, after ++ [line], by simp, hpassed, hsettles⟩

/-- What lines are read as, by where the reading ends. -/
inductive Reads : List (List Char) → Except Defect (Option WorkingDirectory) → Prop where
  | stray {before after : List (List Char)} {line : List Char} (hpassed : Passed before) (hline : ¬IsField line) :
      Reads (before ++ line :: after)
        (.error (.malformed (before.length + 1) s!"not a field line: {Defect.excerpt line}"))
  | unnamed {before after : List (List Char)} (hpassed : Passed before) (hin : InCwd before) :
      Reads (before ++ ['n'] :: after) (.error (.malformed (before.length + 1) "empty name for cwd"))
  | named {before after : List (List Char)} {name : List Char} (hpassed : Passed before) (hin : InCwd before)
      (hne : name ≠ []) : Reads (before ++ ('n' :: name) :: after) (.ok (some (ofName name)))
  | dangling {lines : List (List Char)} (hpassed : Passed lines) (hin : InCwd lines) :
      Reads lines (.error (.malformed lines.length "cwd descriptor without a name"))
  | nothing {lines : List (List Char)} (hpassed : Passed lines) (hout : ¬InCwd lines) : Reads lines (.ok none)

theorem Passed.ofLines_append {before : List (List Char)} (h : Passed before) (rest : List (List Char)) :
    ofLines 1 false (before ++ rest) = ofLines (before.length + 1) (before.foldl flagAfter false) rest := by
  rw [Nat.add_comm, WorkingDirectory.ofLines_append 1 rest h.isField]
  intro earlier name later hsplit
  rw [Bool.eq_false_iff, Ne, foldl_flagAfter_iff]
  exact h.not_inCwd earlier name later hsplit

theorem ofLines_stray {n : Nat} {inside : Bool} {line : List Char} (h : ¬IsField line) (rest : List (List Char)) :
    ofLines n inside (line :: rest) =
      .error (.malformed n s!"not a field line: {Defect.excerpt line}") := by
  cases line with
  | nil => exact absurd (fun tag htag => absurd htag (by simp)) h
  | cons tag value =>
    have htag : tag.isAlpha = false := by
      rw [← Bool.not_eq_true]
      intro halpha
      apply h
      intro c hc
      obtain rfl : tag = c := by simpa using hc
      exact halpha
    simp [ofLines, htag]

theorem reads_ofLines (lines : List (List Char)) : Reads lines (ofLines 1 false lines) := by
  rcases passed_or_settles lines with hpassed | ⟨before, line, after, rfl, hpassed, hsettles⟩
  · have hend := hpassed.ofLines_append []
    rw [List.append_nil] at hend
    by_cases hin : InCwd lines
    · rw [hend, (foldl_flagAfter_iff lines).2 hin]
      exact .dangling hpassed hin
    · rw [hend, Bool.eq_false_iff.2 ((foldl_flagAfter_iff lines).not.2 hin)]
      exact .nothing hpassed hin
  · rw [hpassed.ofLines_append]
    rcases hsettles with hstray | ⟨hin, name, rfl⟩
    · rw [ofLines_stray hstray]
      exact .stray hpassed hstray
    · rw [(foldl_flagAfter_iff before).2 hin]
      cases name with
      | nil => exact .unnamed hpassed hin
      | cons c cs => exact .named hpassed hin (List.cons_ne_nil c cs)

theorem reads_ofText (text : List Char) : Reads (Text.lines text) (ofText text) := reads_ofLines _

/-! ## The name that is returned -/

/-- The tool adds to a name that the caller may not follow it. -/
def IsAnnotated (name : List Char) : Prop :=
  "(readlink: Permission denied)".toList <:+ name ∨ "(stat: Permission denied)".toList <:+ name

/-- What a name is returned as. -/
def IsReadAs (name : List Char) (named : WorkingDirectory) : Prop :=
  IsAnnotated name ∧ named = .denied name ∨ ¬IsAnnotated name ∧ named = .path name

theorem isDenied_iff {name : List Char} : isDenied name = true ↔ IsAnnotated name := by
  rw [isDenied, Bool.or_eq_true, List.isSuffixOf_iff_suffix, List.isSuffixOf_iff_suffix, IsAnnotated]

theorem isReadAs_iff {name : List Char} {named : WorkingDirectory} : IsReadAs name named ↔ named = ofName name := by
  rw [IsReadAs, ofName]
  by_cases h : IsAnnotated name
  · rw [if_pos (isDenied_iff.2 h)]
    simp [h]
  · rw [if_neg (isDenied_iff.not.2 h)]
    simp [h]

theorem Reads.firstName {lines : List (List Char)} {named : WorkingDirectory}
    (h : Reads lines (.ok (some named))) : ∃ name, name ≠ [] ∧ FirstName lines name ∧ named = ofName name := by
  cases h with
  | named hpassed hin hne => exact ⟨_, hne, ⟨_, _, rfl, hin, hpassed.not_inCwd⟩, rfl⟩

/-- Of field lines the first name inside a descriptor `cwd` is returned as it stands in the text, as denied when it is
annotated and as a path otherwise. Nothing else is ever returned: no other line matters, and without such a name there
is no answer. -/
theorem first_name_returned_verbatim {lines : List (List Char)} {text : List Char} (htext : Text.Ended lines text)
    (hfield : ∀ line ∈ lines, IsField line) (named : WorkingDirectory) :
    ofText text = .ok (some named) ↔ ∃ name, name ≠ [] ∧ FirstName lines name ∧ IsReadAs name named := by
  have hlines : Text.lines text = lines := htext.lines_eq
  constructor
  · intro hread
    have hreads := reads_ofText text
    rw [hread, hlines] at hreads
    obtain ⟨name, hne, hname, hnamed⟩ := hreads.firstName
    exact ⟨name, hne, hname, isReadAs_iff.2 hnamed⟩
  · intro h
    obtain ⟨name, hne, hname, hnamed⟩ := h
    rw [ofText, hlines, ofLines_of_firstName hne hfield hname, isReadAs_iff.1 hnamed]

/-- A report with both line ends, a blank line, and names of other descriptors around the one that is wanted. -/
def mixedText : List Char := "p5\r\nftxt\nn/bin/sh\nfcwd\n\nn/srv (1)\nn/tmp".toList

def mixedLines : List (List Char) :=
  ["p5".toList, "ftxt".toList, "n/bin/sh".toList, cwdLine, [], "n/srv (1)".toList, "n/tmp".toList]

theorem first_name_returned_verbatim_mixed : Text.Ended mixedLines mixedText ∧ (∀ line ∈ mixedLines, IsField line) ∧
    ofText mixedText = .ok (some (.path "/srv (1)".toList)) ∧ FirstName mixedLines "/srv (1)".toList := by
  have htext : Text.Ended mixedLines mixedText := Text.lines_eq_iff.1 (by decide)
  have hfield : ∀ line ∈ mixedLines, IsField line := by decide
  have hread : ofText mixedText = .ok (some (.path "/srv (1)".toList)) := by decide
  obtain ⟨name, -, hname, hpath⟩ := (first_name_returned_verbatim htext hfield _).1 hread
  refine ⟨htext, hfield, hread, ?_⟩
  rcases hpath with ⟨-, hdenied⟩ | ⟨-, hplain⟩
  · cases hdenied
  · obtain rfl := WorkingDirectory.path.inj hplain
    exact hname

/-! ## Flaws -/

instance : DecidablePred StartsRecord := fun _ => inferInstanceAs (Decidable (_ ∨ _))

/-- The lines of a record: those before the next process or descriptor. -/
def record (lines : List (List Char)) : List (List Char) := lines.takeWhile fun line => ¬StartsRecord line

def name? : List Char → Option (List Char)
  | 'n' :: name => some name
  | _ => none

def names (lines : List (List Char)) : List (List Char) := lines.filterMap name?

/-- A line that is no field line, or one that starts a descriptor `cwd` without a name or with an empty first one. -/
def Flaw (line : List Char) (after : List (List Char)) : Prop :=
  ¬IsField line ∨ line = cwdLine ∧ ∀ name ∈ (names (record after)).head?, name = []

/-- A descriptor `cwd` without a name, and another record after it. -/
def CutOff (line : List Char) (after : List (List Char)) : Prop :=
  line = cwdLine ∧ names (record after) = [] ∧ ∃ next ∈ after, StartsRecord next

/-- A descriptor `cwd` in these lines has a name that is not empty. -/
def Answered (lines : List (List Char)) : Prop :=
  ∃ earlier name later, lines = earlier ++ ('n' :: name) :: later ∧ InCwd earlier ∧ name ≠ []

def Flawed (lines : List (List Char)) : Prop := ∃ before line after, lines = before ++ line :: after ∧ Flaw line after

/-- There is a flaw that is not a record cut off by another one, and no name in a descriptor `cwd` before it. -/
def FlawNoticed (lines : List (List Char)) : Prop :=
  ∃ before line after, lines = before ++ line :: after ∧ Flaw line after ∧ ¬CutOff line after ∧ ¬Answered before

theorem mem_names {lines : List (List Char)} {name : List Char} : name ∈ names lines ↔ 'n' :: name ∈ lines := by
  rw [names, List.mem_filterMap]
  constructor
  · intro h
    obtain ⟨line, hline, hname⟩ := h
    rw [name?.eq_def] at hname
    split at hname
    · obtain rfl := Option.some.inj hname
      exact hline
    · contradiction
  · intro h
    exact ⟨_, h, rfl⟩

theorem Passed.not_answered {lines : List (List Char)} (h : Passed lines) : ¬Answered lines := by
  intro hanswered
  obtain ⟨earlier, name, later, hsplit, hin, -⟩ := hanswered
  exact h.not_inCwd earlier name later hsplit hin

theorem Passed.of_append {before after : List (List Char)} (h : Passed (before ++ after)) : Passed before where
  isField := fun line hline => h.isField line (List.mem_append_left _ hline)
  not_inCwd := by
    intro earlier name later hsplit
    exact h.not_inCwd earlier name (later ++ after) (by rw [hsplit]; simp)

theorem Passed.names_eq_nil {before since after : List (List Char)} (h : Passed (before ++ cwdLine :: (since ++ after)))
    (hsince : ∀ line ∈ since, ¬StartsRecord line) : names since = [] := by
  rw [List.eq_nil_iff_forall_not_mem]
  intro name hname
  obtain ⟨early, late, rfl⟩ := List.append_of_mem (mem_names.1 hname)
  have hin : InCwd (before ++ cwdLine :: early) :=
    ⟨before, early, rfl, fun line hline => hsince line (List.mem_append_left _ hline)⟩
  exact h.not_inCwd _ name (late ++ after) (by simp) hin

theorem record_of_forall {since : List (List Char)} (h : ∀ line ∈ since, ¬StartsRecord line)
    (after : List (List Char)) : record (since ++ after) = since ++ record after :=
  List.takeWhile_append_of_pos fun line hline => decide_eq_true (h line hline)

theorem not_startsRecord_of_mem_record {lines : List (List Char)} {line : List Char} (h : line ∈ record lines) :
    ¬StartsRecord line :=
  of_decide_eq_true (List.mem_takeWhile_imp (p := fun line => decide ¬StartsRecord line) h)

theorem Passed.names_record {before after : List (List Char)} (h : Passed (before ++ cwdLine :: after)) :
    names (record after) = [] := by
  have hsplit : record after ++ (after.dropWhile fun line => ¬StartsRecord line) = after := List.takeWhile_append_dropWhile
  rw [← hsplit] at h
  exact h.names_eq_nil fun line => not_startsRecord_of_mem_record

theorem names_append (lines more : List (List Char)) : names (lines ++ more) = names lines ++ names more :=
  List.filterMap_append

theorem names_record_cons (name : List Char) (more : List (List Char)) :
    names (record (('n' :: name) :: more)) = name :: names (record more) := by
  have hkept : ¬StartsRecord ('n' :: name) := by simp [StartsRecord]
  rw [record, List.takeWhile_cons_of_pos (p := fun line => decide ¬StartsRecord line) (decide_eq_true hkept)]
  rfl

theorem record_append_of_exists {lines : List (List Char)} (h : ∃ next ∈ lines, StartsRecord next)
    (more : List (List Char)) : record (lines ++ more) = record lines := by
  obtain ⟨next, hnext, hstarts⟩ := h
  rw [record, List.takeWhile_append, if_neg]
  · rfl
  · intro hlength
    have hall : lines.takeWhile (fun line => ¬StartsRecord line) = lines :=
      (List.takeWhile_prefix _).eq_of_length hlength
    have hrecord : next ∈ record lines := by rwa [record, hall]
    exact not_startsRecord_of_mem_record hrecord hstarts

/-! ## When the reading fails -/

theorem flawNoticed_of_inCwd {before after : List (List Char)} (hpassed : Passed before) (hin : InCwd before)
    (hafter : after = [] ∨ ∃ more, after = ['n'] :: more) : FlawNoticed (before ++ after) := by
  obtain ⟨earlier, since, rfl, hsince⟩ := hin
  have hpassed' : Passed (earlier ++ cwdLine :: (since ++ [])) := by rwa [List.append_nil]
  have hnames : names (record (since ++ after)) = names (record after) := by
    rw [record_of_forall hsince, names_append, hpassed'.names_eq_nil hsince, List.nil_append]
  refine ⟨earlier, cwdLine, since ++ after, by simp, ?_⟩
  rw [Flaw, CutOff, hnames]
  rcases hafter with rfl | ⟨more, rfl⟩
  · refine ⟨.inr ⟨rfl, by simp [record, names]⟩, ?_, hpassed.of_append.not_answered⟩
    intro hcut
    obtain ⟨-, -, next, hnext, hstarts⟩ := hcut
    rw [List.append_nil] at hnext
    exact hsince next hnext hstarts
  · rw [names_record_cons]
    refine ⟨.inr ⟨rfl, by simp⟩, ?_, hpassed.of_append.not_answered⟩
    intro hcut
    exact absurd hcut.2.1 (List.cons_ne_nil _ _)

theorem Reads.flawNoticed {lines : List (List Char)} {defect : Defect} (h : Reads lines (.error defect)) :
    FlawNoticed lines := by
  cases h with
  | @stray before after line hpassed hline =>
    refine ⟨before, line, after, rfl, .inl hline, ?_, hpassed.not_answered⟩
    intro hcut
    apply hline
    rw [hcut.1]
    decide
  | unnamed hpassed hin => exact flawNoticed_of_inCwd hpassed hin (.inr ⟨_, rfl⟩)
  | dangling hpassed hin =>
    rw [← List.append_nil lines]
    exact flawNoticed_of_inCwd hpassed hin (.inl rfl)

/-- Once all lines have passed, the only flaw that is not cut off is the record that the report ends with. -/
theorem Passed.inCwd_of_flawNoticed {lines : List (List Char)} (h : Passed lines) (hflaw : FlawNoticed lines) :
    InCwd lines := by
  obtain ⟨before, line, after, rfl, hflaw, hcut, -⟩ := hflaw
  rcases hflaw with hstray | ⟨rfl, -⟩
  · exact absurd (h.isField line (by simp)) hstray
  · refine ⟨before, after, rfl, ?_⟩
    intro next hnext hstarts
    exact hcut ⟨rfl, h.names_record, next, hnext, hstarts⟩

/-- A descriptor with a name behind it is a flaw only if another record cuts it off before that name. -/
theorem Passed.cutOff {earlier between after : List (List Char)} {name : List Char}
    (h : Passed (earlier ++ cwdLine :: between)) (hne : name ≠ [])
    (hflaw : ∀ first ∈ (names (record (between ++ ('n' :: name) :: after))).head?, first = []) :
    CutOff cwdLine (between ++ ('n' :: name) :: after) := by
  by_cases hstart : ∃ next ∈ between, StartsRecord next
  · have hnames : names (record (between ++ ('n' :: name) :: after)) = [] := by
      rw [record_append_of_exists hstart, h.names_record]
    obtain ⟨next, hnext, hstarts⟩ := hstart
    exact ⟨rfl, hnames, next, List.mem_append_left _ hnext, hstarts⟩
  · have hbetween : ∀ next ∈ between, ¬StartsRecord next := fun next hnext hs => hstart ⟨next, hnext, hs⟩
    rw [← List.append_nil between] at h
    rw [record_of_forall hbetween, names_append, h.names_eq_nil hbetween, names_record_cons] at hflaw
    exact absurd (hflaw name rfl) hne

theorem not_flaw_name (name : List Char) (after : List (List Char)) : ¬Flaw ('n' :: name) after := by
  intro hflaw
  rcases hflaw with hstray | ⟨hcwd, -⟩
  · apply hstray
    intro tag htag
    obtain rfl : 'n' = tag := by simpa using htag
    decide
  · simp [cwdLine] at hcwd

/-- No flaw is noticed in a record that a name has been returned from, nor behind that name. -/
theorem not_flawNoticed_of_named {before after : List (List Char)} {name : List Char} (hpassed : Passed before)
    (hin : InCwd before) (hne : name ≠ []) : ¬FlawNoticed (before ++ ('n' :: name) :: after) := by
  intro hnoticed
  obtain ⟨earlier, line, later, hsplit, hflaw, hcut, hanswered⟩ := hnoticed
  rcases List.append_eq_append_iff.1 hsplit with ⟨between, rfl, hrest⟩ | ⟨between, rfl, hrest⟩
  -- The flaw stands behind the name, unless `between` is empty and it stands in its place.
  · cases between with
    | nil =>
      obtain ⟨rfl, -⟩ := List.cons.inj hrest
      exact not_flaw_name name _ hflaw
    | cons other between =>
      rw [List.cons_append] at hrest
      obtain ⟨rfl, -⟩ := List.cons.inj hrest
      exact hanswered ⟨before, name, between, rfl, hin, hne⟩
  -- The flaw stands before the name.
  · cases between with
    | nil =>
      obtain ⟨rfl, -⟩ := List.cons.inj hrest
      exact not_flaw_name name _ hflaw
    | cons other between =>
      rw [List.cons_append] at hrest
      obtain ⟨rfl, rfl⟩ := List.cons.inj hrest
      rcases hflaw with hstray | ⟨rfl, hempty⟩
      · exact hstray (hpassed.isField line (by simp))
      · exact hcut (hpassed.cutOff hne hempty)

/-- The reading fails just when a flaw is noticed. -/
theorem malformed_iff (text : List Char) :
    (∃ n reason, ofText text = .error (.malformed n reason)) ↔ FlawNoticed (Text.lines text) := by
  have hreads := reads_ofText text
  constructor
  · intro h
    obtain ⟨n, reason, hread⟩ := h
    rw [hread] at hreads
    exact hreads.flawNoticed
  · intro hflaw
    generalize ofText text = result at hreads
    generalize Text.lines text = lines at hreads hflaw
    cases hreads with
    | stray => exact ⟨_, _, rfl⟩
    | unnamed => exact ⟨_, _, rfl⟩
    | dangling => exact ⟨_, _, rfl⟩
    | named hpassed hin hne => exact absurd hflaw (not_flawNoticed_of_named hpassed hin hne)
    | nothing hpassed hout => exact absurd (hpassed.inCwd_of_flawNoticed hflaw) hout

end ProcessProbe.Report.WorkingDirectory
