import ProcessProbe.Proofs.Query.Order
import ProcessProbe.Proofs.Query.Reported
import ProcessProbe.Query.Inspector

/-!
# Names and the process file system

A name is any sequence of bytes, but a stat record is read as a text. So the process file system shows a live process
exactly when its name is UTF-8.
-/

namespace ProcessProbe.Snapshot

variable {σ : Type} {host : Host σ} {steady : σ → Prop} {snapshot : Snapshot}

/-- A table of the live processes whose names are texts. -/
def Shows (snapshot : Snapshot) (t : RelationTable) : Prop :=
  ∀ r, r ∈ t.rows ↔ ∃ p ∈ snapshot.processes, p.isLive = true ∧ p.hasTextName = true ∧ p.relation = r

namespace Shows

variable {t : RelationTable} (ht : snapshot.Shows t)

include ht

theorem contains_iff (k : Handle) :
    t.contains k = true ↔ ∃ p ∈ snapshot.processes, p.handle = k ∧ p.isLive = true ∧ p.hasTextName = true := by
  rw [RelationTable.contains_iff]
  constructor
  · rintro ⟨r, hr, rfl⟩
    obtain ⟨p, hp, hlive, htext, rfl⟩ := (ht r).1 hr
    exact ⟨p, hp, rfl, hlive, htext⟩
  · rintro ⟨p, hp, rfl, hlive, htext⟩
    exact ⟨p.relation, (ht _).2 ⟨p, hp, hlive, htext, rfl⟩, rfl⟩

theorem contains_eq {p : Process} (hp : p ∈ snapshot.processes) (hlive : p.isLive = true) :
    t.contains p.handle = p.hasTextName := by
  rw [Bool.eq_iff_iff, ht.contains_iff]
  constructor
  · rintro ⟨q, hq, heq, -, htext⟩
    rwa [← snapshot.eq_of_handle_eq hq hp heq]
  · exact fun htext => ⟨p, hp, rfl, hlive, htext⟩

theorem mem_childrenOf_iff {p : Process} (hp : p ∈ snapshot.processes) (hlive : p.isLive = true) {k : Handle}
    (hk : k.pid = p.ppid) : p.handle ∈ t.childrenOf k ↔ p.hasTextName = true := by
  rw [RelationTable.mem_childrenOf]
  constructor
  · rintro ⟨r, hr, -, heq⟩
    rw [← ht.contains_eq hp hlive, RelationTable.contains_iff]
    exact ⟨r, hr, heq⟩
  · exact fun htext =>
      ⟨p.relation, (ht _).2 ⟨p, hp, hlive, htext, rfl⟩, (p.parent_eq_some_iff k).2 hk.symm, rfl⟩

theorem ofTable_eq_notFound_iff {p : Process} (hp : p ∈ snapshot.processes) (hlive : p.isLive = true) :
    Subprocesses.ofTable t p.handle = .error (.notFound p.handle.pid) ↔ p.hasTextName = false := by
  rw [Subprocesses.ofTable, ht.contains_eq hp hlive]
  cases p.hasTextName <;> simp

end Shows

/-- The answer of the process file system is that of a table that shows the snapshot. -/
theorem InProcfs.hasSubprocessesVia_comesTo (i : Inspector) (h : snapshot.InProcfs host steady i.settings.procRoot)
    (k : Handle) :
    Query.ComesTo host steady (i.hasSubprocessesVia .procfs k) fun outcome =>
      ∃ t, snapshot.Shows t ∧ outcome = Subprocesses.ofTable t k := by
  refine Query.ComesTo.within h.keeps _ (Query.ComesTo.bind h.keeps h.fromProcfs_comesTo (fun t ht => ?_) (by simp))
  obtain ⟨_, heq, hrows⟩ := ht
  cases heq
  exact Query.ComesTo.ofExcept ⟨t, hrows, rfl⟩

/-- The walk comes to a table, whatever the names are, and a live process is in it exactly when its name is a text.
One with another name is not found, and no child of its parent. -/
theorem live_shown_iff_text_name (i : Inspector) (h : snapshot.InProcfs host steady i.settings.procRoot) {s : σ}
    (hs : steady s) :
    ∃ t, ((RelationTable.fromProcfs i.settings.procRoot).outcome.run host s).1 = .ok t ∧
      (∀ k, t.contains k = true ↔
        ∃ p ∈ snapshot.processes, p.handle = k ∧ p.isLive = true ∧ p.hasTextName = true) ∧
      ∀ p ∈ snapshot.processes, p.isLive = true →
        (((i.hasSubprocessesVia .procfs p.handle).outcome.run host s).1 = .error (.notFound p.handle.pid) ↔
          p.hasTextName = false) ∧
        ∀ k : Handle, k.pid = p.ppid → (p.handle ∈ t.childrenOf k ↔ p.hasTextName = true) := by
  obtain ⟨t, houtcome, ht⟩ := h.fromProcfs_comesTo s hs
  have hshows : snapshot.Shows t := ht
  refine ⟨t, houtcome, hshows.contains_iff, fun p hp hlive => ⟨?_, fun k hk => hshows.mem_childrenOf_iff hp hlive hk⟩⟩
  obtain ⟨t', hshows', hanswer⟩ := h.hasSubprocessesVia_comesTo i p.handle s hs
  rw [hanswer]
  exact hshows'.ofTable_eq_notFound_iff hp hlive

def bareInspector : Inspector := ⟨.default, .none ⟨"linux", none, "x86_64"⟩ ""⟩

theorem live_shown_iff_text_name_family :
    ∃ t, ((RelationTable.fromProcfs Settings.defaultProcRoot).outcome.run familyHost ()).1 = .ok t ∧
      t.contains parent = true ∧ parent ∈ t.childrenOf elder ∧
      ((bareInspector.hasSubprocessesVia .procfs parent).outcome.run familyHost ()).1 ≠ .error (.notFound 5) := by
  have hprocfs : family.InProcfs familyHost (fun _ => True) bareInspector.settings.procRoot :=
    family_reported.toInProcfs
  have hsteady : (fun _ : Unit => True) () := trivial
  obtain ⟨t, houtcome, hcontains, hshown⟩ := live_shown_iff_text_name bareInspector hprocfs hsteady
  have hmem : .childOf elder parent (Bytes.ofString "a) b") (by decide) ∈ family.processes := by simp [family]
  have htext := family_reported.text_name _ hmem
  obtain ⟨hnotFound, hchild⟩ := hshown _ hmem rfl
  refine ⟨t, houtcome, (hcontains parent).2 ⟨_, hmem, rfl, rfl, htext⟩, (hchild elder rfl).2 htext, ?_⟩
  exact mt hnotFound.1 (by rw [htext]; simp)

/-! ## A name that is no text -/

/-- A live process whose name is a byte that starts no character. -/
def nameless : Process := .childOf elder ⟨5000001, by decide, by decide⟩ [0xFF] (by decide)

theorem hasTextName_nameless : nameless.hasTextName = false := by
  have hnext : Utf8.next 0xFF [] = (.invalid [0xFF], []) := by decide
  simp [Process.hasTextName, nameless, Process.childOf, Utf8.decode?, Utf8.pieces_cons, hnext, Utf8.Piece.char?]

def namelessFamily : Snapshot where
  processes := [.init, nameless]
  nonempty := by decide
  distinct := by decide

/-- The process is live, and yet it is not in the table, not found, and no child of its parent. -/
theorem nameless_lost :
    namelessFamily.hasLive nameless.handle = true ∧ ∃ t,
      ((RelationTable.fromProcfs Settings.defaultProcRoot).outcome.run
        (namelessFamily.host Settings.defaultProcRoot) ()).1 = .ok t ∧
      t.contains nameless.handle = false ∧ nameless.handle ∉ t.childrenOf elder ∧
      ((bareInspector.hasSubprocessesVia .procfs nameless.handle).outcome.run
        (namelessFamily.host Settings.defaultProcRoot) ()).1 = .error (.notFound 5000001) := by
  have hprocfs : namelessFamily.InProcfs (namelessFamily.host Settings.defaultProcRoot) (fun _ => True)
      bareInspector.settings.procRoot := namelessFamily.inProcfs_host Settings.defaultProcRoot
  have hmem : nameless ∈ namelessFamily.processes := by simp [namelessFamily]
  obtain ⟨t, houtcome, ht⟩ := hprocfs.fromProcfs_comesTo () trivial
  obtain ⟨t', hshows', hanswer⟩ := hprocfs.hasSubprocessesVia_comesTo bareInspector nameless.handle () trivial
  have hshows : namelessFamily.Shows t := ht
  refine ⟨rfl, t, houtcome, ?_, ?_, hanswer.trans ?_⟩
  · rw [hshows.contains_eq hmem rfl, hasTextName_nameless]
  · rw [hshows.mem_childrenOf_iff hmem rfl rfl, hasTextName_nameless]
    exact Bool.false_ne_true
  · exact (hshows'.ofTable_eq_notFound_iff hmem rfl).2 hasTextName_nameless

end ProcessProbe.Snapshot
