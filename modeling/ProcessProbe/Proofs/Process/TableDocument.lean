import Mathlib.Data.List.Forall2
import ProcessProbe.Proofs.Json.Written
import ProcessProbe.Proofs.Process.Parentage

/-!
# Tables in JSON

A document gives a number for each process and for its parent. A table that is read from it has one row for each item,
whatever the other items are. Main statement: such a table is a function from processes to parents just when the
document gives no process twice and none as its own parent. Reading does not see to that, since there is a text for
every table.
-/

namespace ProcessProbe

theorem Handle.ofJson?_eq_some_iff {v : Json} {h : Handle} : ofJson? v = some h ↔ v = .integer h.pid := by
  cases v with
  | integer n =>
    rw [Json.integer.injEq, ofJson?]
    refine Iff.trans ?_ ofInt_eq_ok_iff
    cases ofInt n <;> simp [Except.toOption]
  | _ => simp [ofJson?]

namespace Relation

/-- What a document may give for the parent of a process: its number, or null or nothing for one without a handle. -/
def GivesParent (parent : Option Handle) (given : Option Json) : Prop :=
  match parent with
  | some h => given = some (.integer h.pid)
  | none => given = none ∨ given = some .null

theorem absent?_handle_eq_some_iff {given : Option Json} {parent : Option Handle} :
    Json.absent? Handle.ofJson? given = some parent ↔ GivesParent parent given := by
  have hvalue {v : Json} (hv : v ≠ .null) : Json.optional? Handle.ofJson? v = (Handle.ofJson? v).map some := by
    rw [Json.optional?]
    exact hv
  cases given with
  | none => cases parent <;> simp [Json.absent?, GivesParent]
  | some v =>
    by_cases hv : v = .null
    · subst hv
      cases parent <;> simp [Json.absent?, Json.optional?, GivesParent]
    · rw [Json.absent?, hvalue hv]
      cases parent <;> simp [GivesParent, Handle.ofJson?_eq_some_iff, hv]

/-- What an item of a document gives for the process and for its parent. -/
def givenIn (item : Json) : Option Json × Option Json :=
  match Json.record? ["pid", "ppid"] item with
  | some [pid, ppid] => (pid, ppid)
  | _ => (none, none)

structure GivenBy (r : Relation) (item : Json) : Prop where
  process : (givenIn item).1 = some (.integer r.process.pid)
  parent : GivesParent r.parent (givenIn item).2

theorem ofJson?_eq_some_iff {item : Json} {r : Relation} : ofJson? item = some r ↔ r.GivenBy item := by
  have hgiven : r.GivenBy item ↔
      (givenIn item).1 = some (.integer r.process.pid) ∧ GivesParent r.parent (givenIn item).2 :=
    ⟨fun h => ⟨h.process, h.parent⟩, fun h => ⟨h.1, h.2⟩⟩
  rw [hgiven, ofJson?, givenIn]
  cases Json.record? ["pid", "ppid"] item with
  | none => simp
  | some fields =>
    rcases fields with _ | ⟨pid, _ | ⟨ppid, _ | ⟨_, _⟩⟩⟩
    · simp
    · simp
    · obtain ⟨process, parent⟩ := r
      have hprocess : Json.required? Handle.ofJson? pid = some process ↔ pid = some (.integer process.pid) := by
        cases pid <;> simp [Json.required?, Handle.ofJson?_eq_some_iff]
      simp only [← hprocess, ← absent?_handle_eq_some_iff]
      simp only [Option.bind_eq_bind, Option.bind_some, Option.bind_eq_some_iff, Option.pure_def, Option.some.injEq,
        Relation.mk.injEq]
      constructor
      · rintro ⟨_, hread, _, hparent, rfl, rfl⟩
        exact ⟨hread, hparent⟩
      · rintro ⟨hread, hparent⟩
        exact ⟨process, hread, parent, hparent, rfl, rfl⟩
    · simp

theorem GivenBy.own_parent_iff {r : Relation} {item : Json} (h : r.GivenBy item) :
    (givenIn item).2 = (givenIn item).1 ↔ r.parent = some r.process := by
  have hparent := h.parent
  rw [h.process]
  cases hr : r.parent with
  | none =>
    rw [hr] at hparent
    rcases hparent with hp | hp <;> simp [hp]
  | some q =>
    rw [hr] at hparent
    have hq : (givenIn item).2 = some (.integer q.pid) := hparent
    simp only [hq, Option.some.injEq, Json.integer.injEq, Int.natCast_inj]
    exact ⟨Handle.eq_of_pid_eq, congrArg Handle.pid⟩

theorem ofJson?_toJson (r : Relation) : ofJson? r.toJson = some r := by
  rw [ofJson?_eq_some_iff]
  obtain ⟨process, parent⟩ := r
  cases parent with
  | none => exact ⟨rfl, .inr rfl⟩
  | some h => exact ⟨rfl, rfl⟩

theorem plain_toJson (r : Relation) : r.toJson.Plain := by
  obtain ⟨process, parent⟩ := r
  have hnames : "pid" < "ppid" := by decide
  have hsorted : Json.Sorted [("pid", process.toJson), ("ppid", Json.ofOption Handle.toJson parent)] :=
    List.pairwise_pair.2 hnames
  refine .object hsorted ?_
  intro f hf
  simp only [List.mem_cons, List.not_mem_nil, or_false] at hf
  rcases hf with rfl | rfl
  · exact .integer _
  · cases parent with
    | none => exact .null
    | some h => exact .integer _

end Relation

namespace RelationTable

/-- The table that a text is read as. -/
def ofText? (text : String) : Option RelationTable := (Json.ofString? text).bind ofJson?

/-- The items that a document has for the rows of a table. -/
def itemsIn? (document : Json) : Option (List Json) :=
  match Json.record? ["relations"] document with
  | some [some (.array items)] => some items
  | _ => none

private theorem mapM_eq_some_iff {α β : Type} {f : α → Option β} {xs : List α} {ys : List β} :
    xs.mapM f = some ys ↔ List.Forall₂ (fun y x => f x = some y) ys xs := by
  induction xs generalizing ys with
  | nil => cases ys <;> simp
  | cons x xs ih => cases ys <;> simp [List.mapM_cons, Option.bind_eq_some_iff, ih]

theorem ofJson?_eq_some_iff {document : Json} {t : RelationTable} :
    ofJson? document = some t ↔
      ∃ items, itemsIn? document = some items ∧ List.Forall₂ Relation.GivenBy t.rows items := by
  have hrows (items : List Json) : List.Forall₂ Relation.GivenBy t.rows items ↔
      items.mapM Relation.ofJson? = some t.rows := by
    simp only [mapM_eq_some_iff, Relation.ofJson?_eq_some_iff]
  simp only [hrows]
  rw [ofJson?, itemsIn?]
  cases Json.record? ["relations"] document with
  | none => simp
  | some fields =>
    rcases fields with _ | ⟨rows, _ | ⟨_, _⟩⟩
    · simp
    · obtain ⟨table⟩ := t
      cases rows with
      | none => simp [Json.required?]
      | some v => cases v <;> simp [Json.required?, Json.array?, Option.bind_eq_some_iff]
    · simp

theorem plain_toJson (t : RelationTable) : t.toJson.Plain := by
  have hrows : (Json.ofList Relation.toJson t.rows).Plain := by
    refine .array ?_
    intro v hv
    obtain ⟨r, -, rfl⟩ := List.mem_map.1 hv
    exact r.plain_toJson
  exact .object (List.pairwise_singleton _ _) (List.forall_mem_singleton.2 hrows)

theorem ofJson?_toJson (t : RelationTable) : ofJson? t.toJson = some t := by
  rw [ofJson?_eq_some_iff]
  refine ⟨t.rows.map Relation.toJson, rfl, ?_⟩
  rw [List.forall₂_map_right_iff]
  exact List.forall₂_same.2 fun r _ => Relation.ofJson?_eq_some_iff.1 r.ofJson?_toJson

/-! ## What a document has to see to -/

/-- A document that gives no process twice, and none as its own parent. -/
structure Orderly (items : List Json) : Prop where
  pids_differ : (items.map fun item => (Relation.givenIn item).1).Nodup
  no_own_parent : ∀ item ∈ items, (Relation.givenIn item).2 ≠ (Relation.givenIn item).1

/-- A table that is a function from processes to parents, and that making a table of its rows does not change. -/
structure Sound (t : RelationTable) : Prop where
  coherent : t.Coherent
  remade : ofList t.rows = t

theorem sound_iff (t : RelationTable) : t.Sound ↔ t.Distinct ∧ ∀ r ∈ t.rows, r.parent ≠ some r.process := by
  constructor
  · intro h
    exact ⟨h.coherent.distinct, h.coherent.parent_ne⟩
  · rintro ⟨hdistinct, hparent⟩
    exact ⟨hdistinct.coherent hparent, ofList_rows_of_distinct hdistinct⟩

theorem distinct_iff_pids_differ {t : RelationTable} {items : List Json}
    (h : List.Forall₂ Relation.GivenBy t.rows items) :
    t.Distinct ↔ (items.map fun item => (Relation.givenIn item).1).Nodup := by
  have hpids : items.map (fun item => (Relation.givenIn item).1) =
      (t.rows.map (·.process)).map fun process => some (.integer process.pid) := by
    generalize t.rows = rows at h
    induction h with
    | nil => rfl
    | cons hrow _ ih => rw [List.map_cons, List.map_cons, List.map_cons, ih, hrow.process]
  have hinjective : Function.Injective fun process : Handle => some (Json.integer process.pid) := by
    intro h k heq
    have hpid : (h.pid : Int) = k.pid := by simpa using heq
    exact Handle.eq_of_pid_eq (Int.ofNat.inj hpid)
  rw [hpids, List.nodup_map_iff hinjective, Distinct]

theorem parent_ne_iff_no_own_parent {t : RelationTable} {items : List Json}
    (h : List.Forall₂ Relation.GivenBy t.rows items) :
    (∀ r ∈ t.rows, r.parent ≠ some r.process) ↔
      ∀ item ∈ items, (Relation.givenIn item).2 ≠ (Relation.givenIn item).1 := by
  generalize t.rows = rows at h
  induction h with
  | nil => simp
  | cons hrow _ ih => simp only [List.forall_mem_cons, ih, ne_eq, hrow.own_parent_iff]

/-- Reading refuses no table: every one is read from what is written of it, whether it is sound or not. -/
theorem ofText?_compact (t : RelationTable) : ofText? t.toJson.compact = some t := by
  rw [ofText?, Json.compact, t.plain_toJson.ofString?_writeAt none]
  exact t.ofJson?_toJson

/-- A table that is read from a text has the rows that the text gives, and it is sound just when the text gives no
process twice and none as its own parent. -/
theorem read_tables_sound_iff_orderly {text : String} {t : RelationTable} (h : ofText? text = some t) :
    ∃ document items, Json.ofString? text = some document ∧ itemsIn? document = some items ∧
      List.Forall₂ Relation.GivenBy t.rows items ∧ (t.Sound ↔ Orderly items) := by
  obtain ⟨document, hdocument, htable⟩ := Option.bind_eq_some_iff.1 h
  obtain ⟨items, hitems, hrows⟩ := ofJson?_eq_some_iff.1 htable
  refine ⟨document, items, hdocument, hitems, hrows, ?_⟩
  rw [sound_iff, distinct_iff_pids_differ hrows, parent_ne_iff_no_own_parent hrows]
  exact ⟨fun h => ⟨h.1, h.2⟩, fun h => ⟨h.pids_differ, h.no_own_parent⟩⟩

def outsider : Handle := ⟨60, by decide, by decide⟩

def head : Handle := ⟨61, by decide, by decide⟩

def child : Handle := ⟨62, by decide, by decide⟩

def sibling : Handle := ⟨63, by decide, by decide⟩

/-- The text of a family of three, 61 with its children 62 and 63. -/
def familyText : String :=
  "\x7b\"relations\":[\x7b\"pid\":61,\"ppid\":null\x7d,\x7b\"pid\":62,\"ppid\":61\x7d,\x7b\"pid\":63,\"ppid\":61\x7d]\x7d"

def familyTable : RelationTable := ⟨[⟨head, none⟩, ⟨child, some head⟩, ⟨sibling, some head⟩]⟩

theorem read_tables_sound_iff_orderly_family : ofText? familyText = some familyTable ∧ familyTable.Sound ∧
    familyTable.parentOf? sibling = some head := by
  have hwritten : familyTable.toJson.compact = familyText := rfl
  have hread : ofText? familyText = some familyTable := hwritten ▸ ofText?_compact familyTable
  obtain ⟨document, items, -, -, hrows, hsound⟩ := read_tables_sound_iff_orderly hread
  refine ⟨hread, hsound.2 ⟨?_, ?_⟩, by decide⟩
  · rw [← distinct_iff_pids_differ hrows, Distinct]
    decide
  · rw [← parent_ne_iff_no_own_parent hrows]
    decide

/-- The text of a process 61 that is a child of 60 and a child of 62, and of a process 62 that is its own parent. -/
def muddledText : String :=
  "\x7b\"relations\":[\x7b\"pid\":61,\"ppid\":60\x7d,\x7b\"pid\":61,\"ppid\":62\x7d,\x7b\"pid\":62,\"ppid\":62\x7d]\x7d"

def muddledTable : RelationTable := ⟨[⟨head, some outsider⟩, ⟨head, some child⟩, ⟨child, some child⟩]⟩

/-- The text is read as a table in which a child of 62 has another parent and 62 is its own. A row is lost when a table
is made of the rows. -/
theorem muddled_table_read : ofText? muddledText = some muddledTable ∧ ¬muddledTable.Sound ∧
    head ∈ muddledTable.childrenOf child ∧ muddledTable.parentOf? head = some outsider ∧
    muddledTable.parentOf? child = some child ∧ (ofList muddledTable.rows).size < muddledTable.size := by
  have hwritten : muddledTable.toJson.compact = muddledText := rfl
  have hread : ofText? muddledText = some muddledTable := hwritten ▸ ofText?_compact muddledTable
  have hunsound : ¬muddledTable.Sound := by
    rw [sound_iff, Distinct]
    decide
  exact ⟨hread, hunsound, by decide, by decide, by decide, by decide⟩

end RelationTable

end ProcessProbe
