import ProcessProbe.Proofs.Process.Parentage
import ProcessProbe.Proofs.Report.TableLines

/-!
# The table that a report is read as

A line shows a live process when it spells a row of it that is neither a zombie nor its own parent. Main statement: the
table has the processes that are shown, each with the parent of the first line that shows it, in the order of these
lines. So the rows of zombies change nothing, not even those of a process that is also shown.
-/

namespace ProcessProbe

open Report (TableRow)
open Report.ProcessTable (rowsIn)
open Text (IsTextOf Inserted)

def Report.TableRow.isLive (r : TableRow) : Bool := r.pid != r.ppid && !r.isZombie

namespace RelationTable

/-- The row of a live process that a line spells. -/
def liveRow? (line : List Char) : Option TableRow := (TableRow.ofLine? line).filter (·.isLive)

def shows (h : Handle) (line : List Char) : Bool := (liveRow? line).any (·.pid == h.pid)

/-- The relation that a line shows, unless its process has no handle. -/
def shownRelation? (line : List Char) : Option Relation :=
  (liveRow? line).bind fun r => Relation.ofPids? r.pid r.ppid

theorem liveRow?_eq_some_iff {line : List Char} {r : TableRow} :
    liveRow? line = some r ↔ r.Spelled line ∧ r.ppid ≠ r.pid ∧ r.state ≠ some zombie := by
  rw [liveRow?, Option.filter_eq_some_iff, TableRow.ofLine?_eq_some_iff]
  simp [TableRow.isLive, TableRow.isZombie, ne_comm]

theorem shows_iff {h : Handle} {line : List Char} :
    shows h line = true ↔ ∃ r, liveRow? line = some r ∧ r.pid = h.pid := by
  rw [shows, Option.any_eq_true]
  simp

theorem ofPids?_of_ne {r : TableRow} {h : Handle} (hne : r.ppid ≠ r.pid) (hpid : r.pid = h.pid) :
    Relation.ofPids? r.pid r.ppid = some ⟨h, Handle.ofNat? r.ppid⟩ := by
  rw [Relation.ofPids?, if_neg hne.symm, hpid, Handle.ofNat?_pid]
  rfl

theorem shownRelation?_eq_some_iff {line : List Char} {q : Relation} : shownRelation? line = some q ↔
    ∃ r, liveRow? line = some r ∧ r.pid = q.process.pid ∧ q.parent = Handle.ofNat? r.ppid := by
  rw [shownRelation?, Option.bind_eq_some_iff]
  constructor
  · intro h
    obtain ⟨r, hrow, hpids⟩ := h
    have hne : r.pid ≠ r.ppid := (liveRow?_eq_some_iff.1 hrow).2.1.symm
    rw [Relation.ofPids?, if_neg hne, Option.map_eq_some_iff] at hpids
    obtain ⟨process, hprocess, rfl⟩ := hpids
    exact ⟨r, hrow, (Handle.ofNat?_eq_some_iff.1 hprocess).symm, rfl⟩
  · intro h
    obtain ⟨r, hrow, hpid, hparent⟩ := h
    refine ⟨r, hrow, ?_⟩
    rw [ofPids?_of_ne (liveRow?_eq_some_iff.1 hrow).2.1 hpid, ← hparent]

theorem any_shownRelation? (h : Handle) (line : List Char) :
    ((shownRelation? line).any fun q => q.process == h) = shows h line := by
  rw [Bool.eq_iff_iff, Option.any_eq_true, shows_iff]
  constructor
  · intro hany
    obtain ⟨q, hshown, hprocess⟩ := hany
    obtain ⟨r, hrow, hpid, -⟩ := shownRelation?_eq_some_iff.1 hshown
    exact ⟨r, hrow, eq_of_beq hprocess ▸ hpid⟩
  · intro hrow
    obtain ⟨r, hrow, hpid⟩ := hrow
    exact ⟨⟨h, Handle.ofNat? r.ppid⟩, shownRelation?_eq_some_iff.2 ⟨r, hrow, hpid, rfl⟩, beq_self_eq_true h⟩

/-! ## The first line that shows a process -/

theorem relation?_ofList (relations : List Relation) (h : Handle) :
    (ofList relations).relation? h = relations.find? (·.process == h) := by
  apply Option.ext
  intro r
  rw [(distinct_ofList relations).relation?_eq_some_iff, mem_ofList]
  constructor
  · intro hr
    rw [← hr.2]
    exact hr.1
  · intro hfind
    have hprocess : r.process = h := by simpa using List.find?_some hfind
    exact ⟨hprocess ▸ hfind, hprocess⟩

theorem findIdx_filterMap_lt {α β : Type} {f : α → Option β} {p q : β → Bool} {xs : List α}
    (h : (xs.filterMap f).findIdx p < (xs.filterMap f).findIdx q) :
    xs.findIdx (fun x => (f x).any p) < xs.findIdx fun x => (f x).any q := by
  induction xs with
  | nil => contradiction
  | cons x xs ih =>
    -- An element from which nothing is picked moves both places by one.
    cases hx : f x with
    | none =>
      rw [List.filterMap_cons_none hx] at h
      simpa [List.findIdx_cons, hx] using ih h
    | some b =>
      rw [List.filterMap_cons_some hx] at h
      simp only [List.findIdx_cons, hx, Option.any_some] at h ⊢
      cases hp : p b with
      | true =>
        cases hq : q b with
        | true => simp [hp, hq] at h
        | false => simp
      | false =>
        cases hq : q b with
        | true => simp [hp, hq] at h
        | false =>
          rw [hp, hq] at h
          simpa using ih (by simpa using h)

/-- The table has the live processes of the lines, with the first parent of each and in the order of the first lines that
show them. -/
structure IsLivePart (lines : List (List Char)) (t : RelationTable) : Prop where
  contains_iff : ∀ pid : Nat, (∃ h : Handle, h.pid = pid ∧ t.contains h = true) ↔
    (1 ≤ pid ∧ pid ≤ 2147483647) ∧ ∃ line ∈ lines, ∃ r : TableRow, r.Spelled line ∧ r.pid = pid ∧ r.ppid ≠ pid ∧
      r.state ≠ some 'Z'
  parentOf?_eq : ∀ h : Handle, t.parentOf? h =
    ((lines.find? (shows h)).bind liveRow?).bind fun r => Handle.ofNat? r.ppid
  in_order : t.rows.Pairwise fun r q => lines.findIdx (shows r.process) < lines.findIdx (shows q.process)

theorem isLivePart_ofList (lines : List (List Char)) : IsLivePart lines (ofList (lines.filterMap shownRelation?)) where
  contains_iff := by
    intro pid
    have hshown (h : Handle) : (ofList (lines.filterMap shownRelation?)).contains h = true ↔
        ∃ line ∈ lines, shows h line = true := by
      rw [contains_ofList, List.any_filterMap, List.any_eq_true]
      simp only [← any_shownRelation? h, Option.any]
      rfl
    constructor
    · intro hcontains
      obtain ⟨h, rfl, hcontains⟩ := hcontains
      obtain ⟨line, hline, hshows⟩ := (hshown h).1 hcontains
      obtain ⟨r, hrow, hpid⟩ := shows_iff.1 hshows
      obtain ⟨hspelled, hne, hstate⟩ := liveRow?_eq_some_iff.1 hrow
      exact ⟨⟨h.pid_pos, h.pid_le⟩, line, hline, r, hspelled, hpid, hpid ▸ hne, hstate⟩
    · intro hlive
      obtain ⟨hrange, line, hline, r, hspelled, hpid, hne, hstate⟩ := hlive
      have hshows : shows ⟨pid, hrange.1, hrange.2⟩ line = true :=
        shows_iff.2 ⟨r, liveRow?_eq_some_iff.2 ⟨hspelled, hpid.symm ▸ hne, hstate⟩, hpid⟩
      exact ⟨⟨pid, hrange.1, hrange.2⟩, rfl, (hshown _).2 ⟨line, hline, hshows⟩⟩
  parentOf?_eq := by
    intro h
    rw [parentOf?, relation?_ofList, List.find?_filterMap]
    simp only [any_shownRelation?]
    cases hfind : lines.find? (shows h) with
    | none => rfl
    | some line =>
      obtain ⟨r, hrow, hpid⟩ := shows_iff.1 (List.find?_some hfind)
      have hshown : shownRelation? line = some ⟨h, Handle.ofNat? r.ppid⟩ :=
        shownRelation?_eq_some_iff.2 ⟨r, hrow, hpid, rfl⟩
      simp [hrow, hshown]
  in_order := by
    refine (pairwise_firstIndex_ofList _).imp fun {r q} hlt => ?_
    have hlines := findIdx_filterMap_lt hlt
    simpa only [any_shownRelation?] using hlines

/-! ## The table of a report -/

theorem shownRelation?_eq_bind (line : List Char) : shownRelation? line =
    (((TableRow.ofLine? line).filter fun r => r.pid != r.ppid).filter (!·.isZombie)).bind fun r =>
      Relation.ofPids? r.pid r.ppid := by
  rw [shownRelation?, liveRow?, Option.filter_filter]
  rfl

theorem ofReport_eq_ok_iff {lines : List (List Char)} {text : List Char} (htext : IsTextOf lines text)
    {t : RelationTable} :
    ofReport text = .ok t ↔ rowsIn lines ≠ [] ∧ t = ofList (lines.filterMap shownRelation?) := by
  have hrelations (skipped : Nat) :
      (⟨rowsIn lines, skipped⟩ : Report.ProcessTable).relations = ofList (lines.filterMap shownRelation?) := by
    simp only [Report.ProcessTable.relations, rowsIn, List.filter_filterMap, List.filterMap_filterMap,
      ← shownRelation?_eq_bind]
  have hblank : lines.countP Report.ProcessTable.isFilled = 0 → rowsIn lines = [] := by
    intro hblank
    have hcount := Report.ProcessTable.countP_isFilled lines
    apply List.length_eq_zero_iff.1
    omega
  rw [ofReport, Report.ProcessTable.ofText_eq htext]
  by_cases hrows : rowsIn lines = []
  · by_cases hempty : lines.countP Report.ProcessTable.isFilled = 0
    · simp [hempty, hrows]
    · simp [hempty, hrows]
  · have hempty : lines.countP Report.ProcessTable.isFilled ≠ 0 := mt hblank hrows
    simp [hempty, hrows, hrelations, eq_comm]

def IsZombieRow (line : List Char) : Prop := ∃ r : TableRow, r.Spelled line ∧ r.state = some 'Z'

theorem shownRelation?_of_isZombieRow {line : List Char} (h : IsZombieRow line) : shownRelation? line = none := by
  obtain ⟨r, hspelled, hstate⟩ := h
  rw [shownRelation?, liveRow?, TableRow.ofLine?_eq_some_iff.2 hspelled]
  simp [TableRow.isLive, TableRow.isZombie, zombie, hstate]

theorem ofReport_of_inserted {lines more : List (List Char)} {text longer : List Char} (htext : IsTextOf lines text)
    (hmore : Inserted IsZombieRow lines more) (hlonger : IsTextOf more longer) {t : RelationTable}
    (h : ofReport text = .ok t) : ofReport longer = .ok t := by
  obtain ⟨hrows, rfl⟩ := (ofReport_eq_ok_iff htext).1 h
  have hsame : more.filterMap shownRelation? = lines.filterMap shownRelation? :=
    hmore.filterMap_eq fun _ => shownRelation?_of_isZombieRow
  have hstill : rowsIn more ≠ [] := by
    intro hnone
    apply hrows
    rw [Report.ProcessTable.rowsIn_eq_nil_iff] at hnone ⊢
    intro line hline
    exact hnone line (hmore.subset hline)
  rw [ofReport_eq_ok_iff hlonger, hsame]
  exact ⟨hstill, rfl⟩

/-- Every text is one of lines, and a table that is read from it is the live part of them. Rows of zombies may be put
in anywhere, and the same table is read. -/
theorem reported_table_is_live_part (text : List Char) : (∃ lines, IsTextOf lines text) ∧
    ∀ lines t, IsTextOf lines text → ofReport text = .ok t → IsLivePart lines t ∧
      ∀ more longer, Inserted IsZombieRow lines more → IsTextOf more longer → ofReport longer = .ok t := by
  constructor
  · exact ⟨_, Text.isTextOf_split text⟩
  · intro lines t htext h
    constructor
    · obtain ⟨-, rfl⟩ := (ofReport_eq_ok_iff htext).1 h
      exact isLivePart_ofList lines
    · intro more longer hmore hlonger
      exact ofReport_of_inserted htext hmore hlonger h

/-- The process 7 ended by its first row, but not by the two after it. -/
def liveAmongZombies : List (List Char) := ["7 5 Z".toList, "9 7".toList, "7 0 S".toList, "7 3".toList]

theorem reported_table_is_live_part_mixed : ∃ t, ofReport (Text.unlines liveAmongZombies) = .ok t ∧
    (∃ h : Handle, h.pid = 7 ∧ t.contains h = true) ∧
    ofReport (Text.unlines ("7 9 Z".toList :: liveAmongZombies)) = .ok t := by
  have hlines : IsTextOf liveAmongZombies (Text.unlines liveAmongZombies) := ⟨by decide, .inl rfl⟩
  have hread : ofReport (Text.unlines liveAmongZombies) =
      .ok ⟨[⟨⟨9, by decide, by decide⟩, some ⟨7, by decide, by decide⟩⟩, ⟨⟨7, by decide, by decide⟩, none⟩]⟩ := by
    decide
  have hrow : (⟨7, 0, 'S'⟩ : TableRow).Spelled "7 0 S".toList := TableRow.ofLine?_eq_some_iff.1 (by decide)
  have hzombie : IsZombieRow "7 9 Z".toList := ⟨⟨7, 9, 'Z'⟩, TableRow.ofLine?_eq_some_iff.1 (by decide), rfl⟩
  have hmore : Inserted IsZombieRow liveAmongZombies ("7 9 Z".toList :: liveAmongZombies) :=
    .insert hzombie (.keep _ (.keep _ (.keep _ (.keep _ .nil))))
  obtain ⟨hpart, hsame⟩ := (reported_table_is_live_part _).2 liveAmongZombies _ hlines hread
  have hlive := (hpart.contains_iff 7).2
    ⟨by decide, "7 0 S".toList, by decide, ⟨7, 0, 'S'⟩, hrow, rfl, by decide, by decide⟩
  exact ⟨_, hread, hlive, hsame _ _ hmore ⟨by decide, .inl rfl⟩⟩

end RelationTable

end ProcessProbe
