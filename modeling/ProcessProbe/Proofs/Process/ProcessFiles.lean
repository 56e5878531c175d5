import ProcessProbe.Proofs.Process.Enumeration
import ProcessProbe.Proofs.Process.Parentage
import ProcessProbe.Proofs.Query.Failures

/-!
# The walk over the process files

A root of the process file system, as the walk sees it: the names in it, and what reading the stat record of each number
gives. Main statement: the table has a row for each listed number whose record shows a live process, however the numbers
are listed, and an entry that can no longer be used takes its own row with it and no other.
-/

namespace ProcessProbe.RelationTable

open Report (StatRecord)
open Text (IsNumeral maxU32)

/-! ## Names -/

/-- The name of an entry that stands for a number: a numeral of 32 bits. -/
def NamedBy (name : Bytes) (d : Nat) : Prop := ∃ text, Utf8.encode text = name ∧ IsNumeral text d ∧ d ≤ maxU32

theorem pidOfName?_eq_some_iff {name : Bytes} {d : Nat} : pidOfName? name = some d ↔ NamedBy name d := by
  rw [pidOfName?, Option.bind_eq_some_iff]
  simp only [Utf8.decode?_eq_some_iff, Text.readU32?_eq_some_iff]
  rfl

def Listed (names : List Bytes) (d : Nat) : Prop := ∃ name ∈ names, NamedBy name d

theorem mem_numbers_iff {names : List Bytes} {d : Nat} : d ∈ names.filterMap pidOfName? ↔ Listed names d := by
  rw [List.mem_filterMap]
  simp only [pidOfName?_eq_some_iff]
  rfl

theorem numbers_isEmpty_iff {names : List Bytes} :
    (names.filterMap pidOfName?).isEmpty = true ↔ ∀ d, ¬Listed names d := by
  rw [List.isEmpty_iff, List.eq_nil_iff_forall_not_mem]
  simp only [mem_numbers_iff]

/-! ## Records -/

/-- What reading the stat record of each number gives. -/
abbrev Records : Type := Nat → Except SystemError Bytes

variable {records records' : Records} {names names' : List Bytes} {d n : Nat} {r : Relation} {t t' : RelationTable}

/-- Each record that can be read is that of the process whose number it is kept under. -/
def Records.Own (records : Records) : Prop :=
  ∀ d text record, records d = .ok (Utf8.encode text) → StatRecord.ofText text = .ok record → record.pid = d

/-- The record of `d` shows a live process, with the relation `r` to its parent. -/
inductive Yields (records : Records) (d : Nat) (r : Relation) : Prop where
  | intro {text : List Char} {record : StatRecord} (hread : records d = .ok (Utf8.encode text))
      (hrecord : StatRecord.ofText text = .ok record) (hstate : record.state ≠ zombie)
      (hppid : record.ppid ≠ record.pid) (hprocess : r.process.pid = record.pid)
      (hparent : r.parent = Handle.ofNat? record.ppid)

/-- An answer that shows no live process: the record has vanished or cannot be read, is no text, is garbled, or is that
of a zombie. -/
inductive Spoiled : Except SystemError Bytes → Prop where
  | unreadable (error : SystemError) : Spoiled (.error error)
  | notText {bytes : Bytes} (hbytes : ∀ text, Utf8.encode text ≠ bytes) : Spoiled (.ok bytes)
  | garbled {text : List Char} {defect : Defect} (hrecord : StatRecord.ofText text = .error defect) :
      Spoiled (.ok (Utf8.encode text))
  | ofZombie {text : List Char} {record : StatRecord} (hrecord : StatRecord.ofText text = .ok record)
      (hstate : record.state = zombie) : Spoiled (.ok (Utf8.encode text))

theorem ofPids?_eq_some_iff {pid ppid : Nat} : Relation.ofPids? pid ppid = some r ↔
    ppid ≠ pid ∧ r.process.pid = pid ∧ r.parent = Handle.ofNat? ppid := by
  rw [Relation.ofPids?]
  by_cases hown : pid = ppid
  · simp [hown]
  · rw [if_neg hown, Option.map_eq_some_iff]
    constructor
    · intro h
      obtain ⟨process, hprocess, rfl⟩ := h
      exact ⟨Ne.symm hown, Handle.ofNat?_eq_some_iff.1 hprocess, rfl⟩
    · intro h
      obtain ⟨-, hprocess, hparent⟩ := h
      exact ⟨r.process, Handle.ofNat?_eq_some_iff.2 hprocess, by rw [← hparent]⟩

theorem relationIn?_eq_some_iff : relationIn? (records d) = some r ↔ Yields records d r := by
  rw [relationIn?]
  cases htext : Liveness.textIn (records d) with
  | error error =>
    simp only [reduceCtorEq, false_iff]
    intro h
    obtain ⟨hread, -, -, -, -, -⟩ := h
    rw [Liveness.textIn_eq_ok_iff.2 hread] at htext
    contradiction
  | ok text =>
    have hread := Liveness.textIn_eq_ok_iff.1 htext
    have hsame {text' : List Char} (hread' : records d = .ok (Utf8.encode text')) : text' = text :=
      Except.ok.inj ((Liveness.textIn_eq_ok_iff.2 hread').symm.trans htext)
    cases hrecord : StatRecord.ofText text with
    | error defect =>
      simp only [hrecord, reduceCtorEq, false_iff]
      intro h
      obtain ⟨hread', hrecord', -, -, -, -⟩ := h
      rw [hsame hread', hrecord] at hrecord'
      contradiction
    | ok record =>
      simp only [hrecord, StatRecord.isZombie, beq_iff_eq, Option.ite_none_left_eq_some, ofPids?_eq_some_iff]
      constructor
      · intro h
        obtain ⟨hstate, hppid, hprocess, hparent⟩ := h
        exact .intro hread hrecord hstate hppid hprocess hparent
      · intro h
        obtain ⟨hread', hrecord', hstate, hppid, hprocess, hparent⟩ := h
        rw [hsame hread', hrecord] at hrecord'
        obtain rfl := Except.ok.inj hrecord'
        exact ⟨hstate, hppid, hprocess, hparent⟩

theorem relationIn?_of_spoiled {answer : Except SystemError Bytes} (h : Spoiled answer) : relationIn? answer = none := by
  have hread {text : List Char} : Liveness.textIn (.ok (Utf8.encode text)) = .ok text :=
    Liveness.textIn_eq_ok_iff.2 rfl
  cases h with
  | unreadable error => rfl
  | notText hbytes => rw [relationIn?, Liveness.textIn_of_forall_ne hbytes]
  | garbled hrecord => simp [relationIn?, hread, hrecord]
  | ofZombie hrecord hstate => simp [relationIn?, hread, hrecord, StatRecord.isZombie, hstate]

theorem Yields.pid_eq (hown : records.Own) (h : Yields records d r) : r.process.pid = d := by
  obtain ⟨hread, hrecord, -, -, hprocess, -⟩ := h
  rw [hprocess, hown _ _ _ hread hrecord]

theorem Yields.unique (h : Yields records d r) {q : Relation} (h' : Yields records d q) : q = r :=
  Option.some.inj ((relationIn?_eq_some_iff.2 h').symm.trans (relationIn?_eq_some_iff.2 h))

/-! ## The table -/

/-- The table of the listed numbers and their records. -/
def walked (names : List Bytes) (records : Records) : RelationTable :=
  ofList ((names.filterMap pidOfName?).filterMap fun d => relationIn? (records d))

/-- Names that stand for one number read one record, so no process has two different rows. -/
theorem mem_walked (hown : records.Own) :
    r ∈ (walked names records).rows ↔ Listed names r.process.pid ∧ Yields records r.process.pid r := by
  have hmem {q : Relation} : q ∈ (names.filterMap pidOfName?).filterMap (fun d => relationIn? (records d)) ↔
      Listed names q.process.pid ∧ Yields records q.process.pid q := by
    rw [List.mem_filterMap]
    simp only [mem_numbers_iff, relationIn?_eq_some_iff]
    constructor
    · intro h
      obtain ⟨d, hlisted, hyields⟩ := h
      obtain rfl := hyields.pid_eq hown
      exact ⟨hlisted, hyields⟩
    · intro h
      exact ⟨q.process.pid, h⟩
  rw [walked, mem_ofList_of_functional, hmem]
  intro r hr q hq hprocess
  have hyields := (hmem.1 hq).2
  rw [hprocess] at hyields
  exact (hmem.1 hr).2.unique hyields

theorem filterMap_spoiled (hown : records.Own) (hoff : ∀ n, n ≠ d → records' n = records n)
    (hspoiled : Spoiled (records' d)) (numbers : List Nat) :
    numbers.filterMap (fun n => relationIn? (records' n)) =
      (numbers.filterMap fun n => relationIn? (records n)).filter (!·.process.pid == d) := by
  rw [List.filter_filterMap]
  apply List.filterMap_congr
  intro n _
  by_cases hn : n = d
  · subst hn
    rw [relationIn?_of_spoiled hspoiled]
    cases hrelation : relationIn? (records n) with
    | none => rfl
    | some r => simp [Option.filter_some, (relationIn?_eq_some_iff.1 hrelation).pid_eq hown]
  · rw [hoff n hn]
    cases hrelation : relationIn? (records n) with
    | none => rfl
    | some r => simp [Option.filter_some, (relationIn?_eq_some_iff.1 hrelation).pid_eq hown, hn]

theorem walked_spoiled (hown : records.Own) (hoff : ∀ n, n ≠ d → records' n = records n)
    (hspoiled : Spoiled (records' d)) : walked names records' = (walked names records).without (·.pid == d) := by
  rw [walked, walked, filterMap_spoiled hown hoff hspoiled]
  exact ofList_filter _ (·.pid == d)

theorem Distinct.answers_eq (ht : t.Distinct) (ht' : t'.Distinct) (hrows : ∀ r, r ∈ t'.rows ↔ r ∈ t.rows)
    (h : Handle) :
    t'.contains h = t.contains h ∧ t'.parentOf? h = t.parentOf? h ∧ ∀ c, c ∈ t'.childrenOf h ↔ c ∈ t.childrenOf h := by
  refine ⟨?_, ?_, fun c => ?_⟩
  · rw [Bool.eq_iff_iff, contains_iff, contains_iff]
    simp only [hrows]
  · apply Option.ext
    intro p
    rw [ht'.parentOf?_eq_some_iff, ht.parentOf?_eq_some_iff]
    simp only [hrows]
  · rw [mem_childrenOf, mem_childrenOf]
    simp only [hrows]

/-! ## The walk -/

section Walk

variable {σ : Type} {host : Host σ} {steady : σ → Prop} {s : σ} {procRoot : Path}
  {listing : Except SystemError (List Bytes)}

/-- A host on which the root of the process file system has this listing and these records. -/
structure Shows (host : Host σ) (steady : σ → Prop) (procRoot : Path) (listing : Except SystemError (List Bytes))
    (records : Records) : Prop where
  keeps : host.Keeps steady
  list : ∀ s, steady s → (host.answer (.list procRoot) s).1 = listing
  read : ∀ d s, steady s → (host.answer (.readFile (Liveness.entry procRoot d "stat")) s).1 = records d

/-- No diagnostic of the caller runs. -/
def Quiet (host : Host σ) (steady : σ → Prop) : Prop :=
  ∀ since s, steady s → (host.answer (.diagnosticsSince since) s).1 = []

theorem Shows.eq_error_of_unlisted {error : SystemError} (hshows : Shows host steady procRoot (.error error) records)
    (hs : steady s) : ((fromProcfs procRoot).outcome.run host s).1 =
      .error (.backendUnavailable "procfs" s!"cannot list {procRoot.shown}: {error.message}") := by
  have hwalk : Query.ComesTo host steady (fromProcfs procRoot)
      (· = .error (.backendUnavailable "procfs" s!"cannot list {procRoot.shown}: {error.message}")) := by
    refine Query.ComesTo.bind_lift_any hshows.keeps fun since => ?_
    have hlist : Inquiry.ComesTo host steady (Inquiry.list procRoot) (· = .error error) := hshows.list
    refine Query.ComesTo.bind_lift hshows.keeps hlist fun answer hanswer => ?_
    rw [hanswer]
    exact Query.ComesTo.throw rfl
  exact hwalk s hs

theorem Shows.eq_error_of_unnamed (hshows : Shows host steady procRoot (.ok names) records)
    (hnone : ∀ d, ¬Listed names d) (hs : steady s) : ((fromProcfs procRoot).outcome.run host s).1 =
      .error (.backendUnavailable "procfs" s!"no process entries under {procRoot.shown}") := by
  have hwalk := fromProcfs_comesTo (P := (· = names)) (Q := fun _ => True) hshows.keeps
    (fun s hs => ⟨names, hshows.list s hs, rfl⟩) (fun d s hs => congrArg relationIn? (hshows.read d s hs))
    (fun _ _ _ => trivial)
  obtain ⟨_, rfl, houtcome⟩ := hwalk s hs
  rwa [if_pos (numbers_isEmpty_iff.2 hnone)] at houtcome

theorem Shows.exists_diagnostics (hshows : Shows host steady procRoot (.ok names) records)
    (hsome : ∃ d, Listed names d) {Q : List Nat → Prop}
    (hspared : ∀ since s, steady s → Q (host.answer (.diagnosticsSince since) s).1) (hs : steady s) :
    ∃ diagnostics, Q diagnostics ∧ ((fromProcfs procRoot).outcome.run host s).1 =
      .ok ((walked names records).withoutPids none diagnostics) := by
  have hwalk := fromProcfs_comesTo (P := (· = names)) hshows.keeps
    (fun s hs => ⟨names, hshows.list s hs, rfl⟩) (fun d s hs => congrArg relationIn? (hshows.read d s hs)) hspared
  obtain ⟨_, rfl, houtcome⟩ := hwalk s hs
  obtain ⟨d, hd⟩ := hsome
  rwa [if_neg fun hempty => numbers_isEmpty_iff.1 hempty d hd] at houtcome

theorem withoutPids_nil (t : RelationTable) : t.withoutPids none [] = t := by
  simp [withoutPids, RelationTable.without]

theorem Shows.eq_walked (hshows : Shows host steady procRoot (.ok names) records) (hquiet : Quiet host steady)
    (hsome : ∃ d, Listed names d) (hs : steady s) :
    ((fromProcfs procRoot).outcome.run host s).1 = .ok (walked names records) := by
  obtain ⟨_, rfl, houtcome⟩ := hshows.exists_diagnostics (Q := (· = [])) hsome hquiet hs
  rw [houtcome, withoutPids_nil]

/-- The walk over the process files. It fails just when the root cannot be listed or no name stands for a number. If
not, and no diagnostic runs, the table has one row for each listed number whose record shows a live process, with the
parent in that record. So the order of the names and other names for the same numbers do not matter to any answer, and
an entry whose record vanishes, becomes unreadable or garbled, or turns into that of a zombie, takes its own row away. -/
theorem walk_tolerates_entries (hshows : Shows host steady procRoot listing records) (hown : records.Own) (hs : steady s)
    {outcome : Except Failure RelationTable} (houtcome : ((fromProcfs procRoot).outcome.run host s).1 = outcome) :
    ((∃ failure, outcome = .error failure) ↔
        (∃ error, listing = .error error) ∨ ∃ names, listing = .ok names ∧ ∀ d, ¬Listed names d) ∧
      ∀ names, listing = .ok names → (∃ d, Listed names d) → Quiet host steady →
        ∃ t, outcome = .ok t ∧ t.Distinct ∧
          (∀ r, r ∈ t.rows ↔ Listed names r.process.pid ∧ Yields records r.process.pid r) ∧
          ∀ (τ : Type) (host' : Host τ) steady' procRoot' names' records' s',
            Shows host' steady' procRoot' (.ok names') records' → Quiet host' steady' → steady' s' →
            ((∀ d, Listed names' d ↔ Listed names d) → records' = records →
              ∃ t', ((fromProcfs procRoot').outcome.run host' s').1 = .ok t' ∧ ∀ h, t'.contains h = t.contains h ∧
                t'.parentOf? h = t.parentOf? h ∧ ∀ c, c ∈ t'.childrenOf h ↔ c ∈ t.childrenOf h) ∧
            ∀ d, names' = names → (∀ n, n ≠ d → records' n = records n) → Spoiled (records' d) →
              ((fromProcfs procRoot').outcome.run host' s').1 = .ok (t.without (·.pid == d)) := by
  subst houtcome
  constructor
  · cases listing with
    | error error => simp [hshows.eq_error_of_unlisted hs]
    | ok names =>
      by_cases hsome : ∃ d, Listed names d
      · obtain ⟨diagnostics, -, hok⟩ := hshows.exists_diagnostics (Q := fun _ => True) hsome (fun _ _ _ => trivial) hs
        simp [hok, hsome]
      · have hnone : ∀ d, ¬Listed names d := not_exists.1 hsome
        simp [hshows.eq_error_of_unnamed hnone hs, hnone]
  · rintro names rfl hsome hquiet
    refine ⟨walked names records, hshows.eq_walked hquiet hsome hs, distinct_ofList _, fun r => mem_walked hown, ?_⟩
    intro τ host' steady' procRoot' names' records' s' hshows' hquiet' hs'
    constructor
    · rintro hsame rfl
      have hsome' : ∃ d, Listed names' d := by simpa only [hsame] using hsome
      refine ⟨walked names' records', hshows'.eq_walked hquiet' hsome' hs', fun h => ?_⟩
      apply (distinct_ofList _).answers_eq (distinct_ofList _)
      intro r
      rw [← walked, ← walked, mem_walked hown, mem_walked hown, hsame]
    · rintro d rfl hoff hspoiled
      rw [hshows'.eq_walked hquiet' hsome hs', walked_spoiled hown hoff hspoiled]

end Walk

/-! ## A root with other names for its numbers -/

/-- The records that are kept for some numbers; there is none for another. -/
def recordsOf (kept : List (Nat × List Char)) : Records := fun d =>
  match kept.find? (·.1 == d) with
  | some (_, text) => .ok (Utf8.encode text)
  | none => .error .noSuchEntry

/-- A host whose root has these names and records, and on which no diagnostic runs. -/
def rootHost (names : List Bytes) (kept : List (Nat × List Char)) : Host Unit where
  answer
    | .list _, s => (.ok names, s)
    | .readFile path, s =>
      match kept.find? fun k => Liveness.entry Settings.defaultProcRoot k.1 "stat" == path with
      | some (_, text) => (.ok (Utf8.encode text), s)
      | none => (.error .noSuchEntry, s)
    | .diagnosticsSince _, s => ([], s)
    | request, s => Inspector.emptyHost.answer request s

theorem shows_rootHost (names : List Bytes) (kept : List (Nat × List Char)) :
    Shows (rootHost names kept) (fun _ => True) Settings.defaultProcRoot (.ok names) (recordsOf kept) where
  keeps := fun _ _ _ => trivial
  list := fun _ _ => rfl
  read := by
    intro d s _
    simp only [rootHost, Liveness.entry_stat_beq, recordsOf]
    cases kept.find? (·.1 == d) <;> rfl

theorem quiet_rootHost (names : List Bytes) (kept : List (Nat × List Char)) :
    Quiet (rootHost names kept) fun _ => True := fun _ _ _ => rfl

def aliases : List Bytes := ["self", "+5", "7", "005"].map Bytes.ofString

def shell : Nat × List Char := (5, "5 (sh) S 1".toList)

def shellChild : Nat × List Char := (7, "7 (cat) R 5".toList)

theorem own_shell : (recordsOf [shell, shellChild]).Own := by
  intro d text record hread hrecord
  have hshell : StatRecord.ofText shell.2 = .ok ⟨5, "sh".toList, 'S', 1⟩ := by decide
  have hchild : StatRecord.ofText shellChild.2 = .ok ⟨7, "cat".toList, 'R', 5⟩ := by decide
  by_cases hfive : d = 5
  · subst hfive
    obtain rfl := Utf8.encode_injective (Except.ok.inj hread)
    rw [← Except.ok.inj (hshell.symm.trans hrecord)]
  · by_cases hseven : d = 7
    · subst hseven
      obtain rfl := Utf8.encode_injective (Except.ok.inj hread)
      rw [← Except.ok.inj (hchild.symm.trans hrecord)]
    · simp [recordsOf, shell, shellChild, Ne.symm hfive, Ne.symm hseven] at hread

theorem listed_aliases : Listed aliases 5 :=
  ⟨Bytes.ofString "+5", by decide, "+5".toList, rfl, Text.readU32?_eq_some_iff.1 (by decide)⟩

/-- 5 stands in the root twice, and neither time by its own digits. The names may be turned round, and when the record
of 5 has vanished, 7 keeps its row. -/
theorem walk_tolerates_entries_aliases : ∃ t,
    ((fromProcfs Settings.defaultProcRoot).outcome.run (rootHost aliases [shell, shellChild]) ()).1 = .ok t ∧
      t.contains Inspector.nobody = true ∧
      (∃ t', ((fromProcfs Settings.defaultProcRoot).outcome.run (rootHost aliases.reverse [shell, shellChild]) ()).1 =
        .ok t' ∧ ∀ h, t'.contains h = t.contains h) ∧
      ((fromProcfs Settings.defaultProcRoot).outcome.run (rootHost aliases [shellChild]) ()).1 =
        .ok (t.without (·.pid == 5)) := by
  obtain ⟨-, hwalk⟩ :=
    walk_tolerates_entries (s := ()) (shows_rootHost aliases [shell, shellChild]) own_shell trivial rfl
  obtain ⟨t, hok, -, hrows, hother⟩ := hwalk aliases rfl ⟨5, listed_aliases⟩ (quiet_rootHost _ _)
  let row : Relation := ⟨Inspector.nobody, Handle.ofNat? 1⟩
  have hyields : Yields (recordsOf [shell, shellChild]) 5 row := by
    have hrecord : StatRecord.ofText shell.2 = .ok ⟨5, "sh".toList, 'S', 1⟩ := by decide
    exact .intro rfl hrecord (by decide) (by decide) rfl rfl
  refine ⟨t, hok, contains_iff.2 ⟨row, (hrows row).2 ⟨listed_aliases, hyields⟩, rfl⟩, ?_, ?_⟩
  · obtain ⟨hsame, -⟩ := hother Unit _ _ _ aliases.reverse _ () (shows_rootHost _ _) (quiet_rootHost _ _) trivial
    obtain ⟨t', hok', hanswers⟩ := hsame (fun d => by simp [Listed]) rfl
    exact ⟨t', hok', fun h => (hanswers h).1⟩
  · obtain ⟨-, hspoiled⟩ := hother Unit _ _ _ aliases _ () (shows_rootHost _ _) (quiet_rootHost _ _) trivial
    refine hspoiled 5 rfl (fun n hn => ?_) (.unreadable .noSuchEntry)
    simp [recordsOf, shell, Ne.symm hn]

end ProcessProbe.RelationTable
