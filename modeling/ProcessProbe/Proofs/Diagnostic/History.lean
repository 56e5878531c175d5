import ProcessProbe.Proofs.Diagnostic.Schedule

/-!
# What the registry remembers

Records of diagnostics enter the registry, are dropped, and are asked for, by any threads, one operation at a time. The
registry forgets a dropped record some time later, when another one enters. Main statement: if no process number enters
again before the former record of it is dropped, the answer about a recent time is made of the numbers of the records
that have not been dropped before it.
-/

namespace ProcessProbe.Diagnostic

/-- What a run of a diagnostic holds while it lasts. Several runs may have the same process number. -/
structure Record where
  serial : Nat
  pid : Nat
  deriving Repr, DecidableEq

inductive Operation where
  | register (record : Record) (now : Instant)
  | drop (record : Record) (now : Instant)
  | query (since now : Instant)
  deriving Repr, DecidableEq

namespace Operation

def now : Operation → Instant
  | register _ now | drop _ now | query _ now => now

def apply (r : Registry) : Operation → Registry
  | register record now => r.register now record.pid
  | drop record now => r.markReaped now record.pid
  | query _ _ => r

def entered? : Operation → Option Record
  | register record _ => some record
  | drop _ _ | query _ _ => none

def dropped? : Operation → Option (Record × Instant)
  | drop record now => some (record, now)
  | register _ _ | query _ _ => none

end Operation

/-- Operations in their order. -/
abbrev History := List Operation

namespace History

def registry (ops : History) : Registry := ops.foldl Operation.apply .empty

def records (ops : History) : List Record := ops.filterMap Operation.entered?

def drops (ops : History) : List (Record × Instant) := ops.filterMap Operation.dropped?

def dropped (ops : History) : List Record := (drops ops).map Prod.fst

def mark? (ops : History) (record : Record) : Option Instant := (drops ops).lookup record

/-- What the registry should hold of a record. -/
def item (ops : History) (record : Record) : Registry.Item := ⟨record.pid, mark? ops record⟩

/-- An operation that may come next. The clock does not run backwards. A record enters once, when all former ones of its
number have been dropped, and is dropped once after that. -/
def Follows (before : History) (op : Operation) : Prop :=
  (∀ past ∈ before, past.now ≤ op.now) ∧
    match op with
    | .register record _ =>
      record ∉ records before ∧ ∀ other ∈ records before, other.pid = record.pid → other ∈ dropped before
    | .drop record _ => record ∈ records before ∧ record ∉ dropped before
    | .query _ _ => True

instance (before : History) (op : Operation) : Decidable (Follows before op) := by
  cases op <;> exact inferInstanceAs (Decidable (_ ∧ _))

inductive Orderly : History → Prop
  | nil : Orderly []
  | snoc {before : History} {op : Operation} (h : Orderly before) (hop : Follows before op) : Orderly (before ++ [op])

variable {ops before after : History} {op : Operation} {record other : Record} {t now since : Instant}

theorem Orderly.of_snoc (h : Orderly (before ++ [op])) : Orderly before ∧ Follows before op := by
  generalize hops : before ++ [op] = ops at h
  cases h with
  | nil => simp at hops
  | snoc hbefore hop =>
    obtain ⟨rfl, hlast⟩ := List.append_inj' hops rfl
    obtain rfl := List.singleton_inj.1 hlast
    exact ⟨hbefore, hop⟩

theorem Orderly.of_append (h : Orderly (before ++ after)) : Orderly before := by
  induction after generalizing before with
  | nil => simpa using h
  | cons op after ih =>
    have hsnoc : Orderly (before ++ [op]) := ih (by simpa using h)
    exact hsnoc.of_snoc.1

/-! ## Entering and dropping -/

@[simp] theorem registry_snoc (ops : History) (op : Operation) : registry (ops ++ [op]) = op.apply (registry ops) := by
  simp [registry]

@[simp] theorem records_append (before after : History) : records (before ++ after) = records before ++ records after :=
  List.filterMap_append

@[simp] theorem records_cons (op : Operation) (ops : History) :
    records (op :: ops) = op.entered?.toList ++ records ops := by
  cases hop : op.entered? <;> simp [records, hop]

@[simp] theorem drops_append (before after : History) : drops (before ++ after) = drops before ++ drops after :=
  List.filterMap_append

@[simp] theorem drops_cons (op : Operation) (ops : History) :
    drops (op :: ops) = op.dropped?.toList ++ drops ops := by
  cases hop : op.dropped? <;> simp [drops, hop]

@[simp] theorem records_nil : records [] = [] := rfl

@[simp] theorem drops_nil : drops [] = [] := rfl

theorem mark?_snoc_of_dropped?_eq_none (before : History) (record : Record) (hop : op.dropped? = none) :
    mark? (before ++ [op]) record = mark? before record := by
  simp [mark?, hop]

theorem mark?_snoc_drop (before : History) (dropping record : Record) (now : Instant) :
    mark? (before ++ [.drop dropping now]) record =
      (mark? before record).or (if record = dropping then some now else none) := by
  rw [mark?, drops_append, List.lookup_append, mark?]
  by_cases heq : record = dropping
  · simp [Operation.dropped?, heq]
  · have hne : (record == dropping) = false := beq_false_of_ne heq
    simp [Operation.dropped?, List.lookup_cons, heq, hne]

theorem mem_of_mem_drops (h : (record, t) ∈ drops ops) : .drop record t ∈ ops := by
  obtain ⟨op, hop, hdropped⟩ := List.mem_filterMap.1 h
  cases op with
  | register _ _ | query _ _ => simp [Operation.dropped?] at hdropped
  | drop dropping now =>
    obtain ⟨rfl, rfl⟩ : dropping = record ∧ now = t := by simpa [Operation.dropped?] using hdropped
    exact hop

theorem mark?_eq_none_iff : mark? ops record = none ↔ record ∉ dropped ops := by
  simp only [mark?, dropped, List.lookup_eq_none_iff, List.mem_map, not_exists, not_and, bne_iff_ne]
  exact ⟨fun h entry hentry heq => h entry hentry heq.symm, fun h entry hentry heq => h entry hentry heq.symm⟩

theorem Orderly.entered (h : Orderly ops) (hrecord : record ∈ dropped ops) : record ∈ records ops := by
  induction h with
  | nil => exact absurd hrecord List.not_mem_nil
  | @snoc before op _ hop ih =>
    rw [dropped, drops_append, List.map_append, List.mem_append] at hrecord
    rw [records_append]
    apply List.mem_append_left
    rcases hrecord with hold | hnew
    · exact ih hold
    · cases op with
      | register _ _ | query _ _ => simp [Operation.dropped?] at hnew
      | drop dropping now =>
        obtain rfl : record = dropping := by simpa [Operation.dropped?] using hnew
        exact hop.2.1

theorem Orderly.mark?_eq_some_iff (h : Orderly ops) : mark? ops record = some t ↔ (record, t) ∈ drops ops := by
  induction h with
  | nil => simp [mark?]
  | @snoc before op _ hop ih =>
    rw [drops_append, List.mem_append, ← ih]
    cases op with
    | register _ _ | query _ _ =>
      rw [mark?_snoc_of_dropped?_eq_none before record rfl]
      simp [Operation.dropped?]
    | drop dropping now =>
      have hnone : mark? before dropping = none := mark?_eq_none_iff.2 hop.2.2
      rw [mark?_snoc_drop]
      by_cases heq : record = dropping
      · subst heq
        simp [hnone, Operation.dropped?, eq_comm]
      · simp [heq, Operation.dropped?]

theorem Orderly.eq_of_pid_eq (h : Orderly ops) (hrecord : record ∈ records ops) (hother : other ∈ records ops)
    (hpid : other.pid = record.pid) (hundropped : record ∉ dropped ops) (hundropped' : other ∉ dropped ops) :
    other = record := by
  induction h with
  | nil => exact absurd hrecord List.not_mem_nil
  | @snoc before op hbefore hop ih =>
    simp only [dropped, drops_append, List.map_append, List.mem_append, not_or] at hundropped hundropped'
    simp only [records_append, records_cons, records_nil, List.append_nil, List.mem_append] at hrecord hother
    cases op with
    | drop _ _ | query _ _ =>
      have hrecord := hrecord.resolve_right List.not_mem_nil
      have hother := hother.resolve_right List.not_mem_nil
      exact ih hrecord hother hundropped.1 hundropped'.1
    | register entering now =>
      have hformer {former : Record} (hmem : former ∈ records before) (hdropped : former ∉ dropped before) :
          former.pid ≠ entering.pid :=
        fun heq => hdropped (hop.2.2 former hmem heq)
      rcases hrecord with hold | hnew
      · rcases hother with hold' | hnew'
        · exact ih hold hold' hundropped.1 hundropped'.1
        · obtain rfl := List.mem_singleton.1 hnew'
          exact absurd hpid.symm (hformer hold hundropped.1)
      · obtain rfl := List.mem_singleton.1 hnew
        rcases hother with hold' | hnew'
        · exact absurd hpid (hformer hold' hundropped'.1)
        · exact List.mem_singleton.1 hnew'

/-! ## What is kept -/

/-- The registry holds what became of these records. Each other one was forgotten, long after it was dropped. -/
structure Kept (ops : History) (kept : List Record) : Prop where
  sublist : kept.Sublist (records ops)
  items : (registry ops).items = kept.map (item ops)
  forgotten : ∀ record ∈ records ops, record ∉ kept → ∃ t ∈ mark? ops record, ∃ op ∈ ops, t + Registry.memory ≤ op.now

theorem Kept.nil : Kept [] [] where
  sublist := .refl _
  items := rfl
  forgotten := fun _ hrecord => absurd hrecord List.not_mem_nil

theorem Kept.query {kept : List Record} (h : Kept before kept) (since now : Instant) :
    Kept (before ++ [.query since now]) kept := by
  have hmark (record : Record) : mark? (before ++ [.query since now]) record = mark? before record :=
    mark?_snoc_of_dropped?_eq_none before record rfl
  have hitem : item (before ++ [.query since now]) = item before := by
    funext record
    rw [item, item, hmark]
  have hrecords : records (before ++ [.query since now]) = records before := by
    simp [Operation.entered?]
  refine ⟨hrecords ▸ h.sublist, ?_, fun record hrecord hgone => ?_⟩
  · rw [registry_snoc, Operation.apply, hitem, h.items]
  · obtain ⟨t, ht, op, hop, hlong⟩ := h.forgotten record (hrecords ▸ hrecord) hgone
    exact ⟨t, (hmark record).symm ▸ ht, op, List.mem_append_left _ hop, hlong⟩

theorem Kept.register {kept : List Record} (h : Kept before kept) (hbefore : Orderly before)
    (hop : Follows before (.register record now)) :
    Kept (before ++ [.register record now])
      (kept.filter (fun former => (item before former).isFresh now) ++ [record]) := by
  have hmark (former : Record) : mark? (before ++ [.register record now]) former = mark? before former :=
    mark?_snoc_of_dropped?_eq_none before former rfl
  have hitem : item (before ++ [.register record now]) = item before := by
    funext former
    rw [item, item, hmark]
  have hnew : item before record = ⟨record.pid, none⟩ := by
    rw [item, mark?_eq_none_iff.2 fun hdropped => hop.2.1 (hbefore.entered hdropped)]
  have hrecords : records (before ++ [.register record now]) = records before ++ [record] := by
    simp [Operation.entered?]
  refine ⟨?_, ?_, fun former hformer hgone => ?_⟩
  · rw [hrecords]
    exact (List.filter_sublist.trans h.sublist).append (.refl _)
  · rw [registry_snoc, Operation.apply, Registry.register, h.items, List.filter_map, hitem, List.map_append,
      List.map_singleton, hnew]
    rfl
  · simp only [hrecords, List.mem_append, List.mem_singleton, List.mem_filter, not_or, not_and] at hformer hgone
    have hold : former ∈ records before := hformer.resolve_right hgone.2
    rw [hmark]
    by_cases hkept : former ∈ kept
    · obtain ⟨t, ht, hlong⟩ := Registry.long_of_not_isFresh (hgone.1 hkept)
      exact ⟨t, ht, .register record now, List.mem_append_right _ List.mem_cons_self, hlong⟩
    · obtain ⟨t, ht, op, hmem, hlong⟩ := h.forgotten former hold hkept
      exact ⟨t, ht, op, List.mem_append_left _ hmem, hlong⟩

theorem Kept.drop {kept : List Record} (h : Kept before kept) (hbefore : Orderly before)
    (hop : Follows before (.drop record now)) : Kept (before ++ [.drop record now]) kept := by
  have hrecords : records (before ++ [.drop record now]) = records before := by
    simp [Operation.entered?]
  have hmarked {other : Record} (hother : other ∈ kept) (hmark : mark? before other = none) :
      other.pid = record.pid ↔ other = record := by
    constructor
    · intro hpid
      exact hbefore.eq_of_pid_eq hop.2.1 (h.sublist.subset hother) hpid hop.2.2 (mark?_eq_none_iff.1 hmark)
    · rintro rfl
      rfl
  refine ⟨hrecords ▸ h.sublist, ?_, fun former hformer hgone => ?_⟩
  · rw [registry_snoc, Operation.apply, Registry.markReaped, h.items, List.map_map]
    apply List.map_congr_left
    intro other hother
    rw [Function.comp_apply, item, item, mark?_snoc_drop]
    cases hmark : mark? before other with
    | some t => simp
    | none => by_cases heq : other = record <;> simp [hmarked hother hmark, heq]
  · obtain ⟨t, ht, op, hmem, hlong⟩ := h.forgotten former (hrecords ▸ hformer) hgone
    rw [Option.mem_def] at ht
    exact ⟨t, by simp [mark?_snoc_drop, ht], op, List.mem_append_left _ hmem, hlong⟩

theorem Orderly.exists_kept (h : Orderly ops) : ∃ kept, Kept ops kept := by
  induction h with
  | nil => exact ⟨[], .nil⟩
  | @snoc before op hbefore hop ih =>
    obtain ⟨kept, hkept⟩ := ih
    cases op with
    | register record now => exact ⟨_, hkept.register hbefore hop⟩
    | drop record now => exact ⟨_, hkept.drop hbefore hop⟩
    | query since now => exact ⟨_, hkept.query since now⟩

/-! ## Answers about a recent time -/

/-- The record has entered, and is not yet dropped or was dropped from then on. -/
def Lasts (ops : History) (since : Instant) (record : Record) : Prop :=
  record ∈ records ops ∧ ((∀ t, (record, t) ∉ drops ops) ∨ ∃ t, since ≤ t ∧ (record, t) ∈ drops ops)

theorem Orderly.lasts_iff (h : Orderly ops) :
    Lasts ops since record ↔ record ∈ records ops ∧ ∀ t ∈ mark? ops record, since ≤ t := by
  simp only [Lasts, ← h.mark?_eq_some_iff, Option.mem_def]
  refine and_congr_right fun _ => ?_
  cases mark? ops record <;> simp

/-- What comes before a query is what it tells of, up to what was forgotten. -/
theorem Kept.mem_of_lasts {kept : List Record} (h : Kept ops kept) (hops : Orderly ops)
    (hnow : ∀ op ∈ ops, op.now ≤ now) (hrecent : now < since + Registry.memory) (hlasts : Lasts ops since record) :
    record ∈ kept := by
  obtain ⟨hrecord, hlate⟩ := hops.lasts_iff.1 hlasts
  by_contra hgone
  obtain ⟨t, ht, op, hop, hlong⟩ := h.forgotten record hrecord hgone
  have hmemory : since + Registry.memory ≤ now :=
    calc
      since + Registry.memory ≤ t + Registry.memory := Nat.add_le_add_right (hlate t ht) _
      _ ≤ op.now := hlong
      _ ≤ now := hnow op hop
  exact absurd hmemory (Nat.not_le.2 hrecent)

theorem Kept.mem_since_iff {kept : List Record} (h : Kept ops kept) (hops : Orderly ops)
    (hnow : ∀ op ∈ ops, op.now ≤ now) (hrecent : now < since + Registry.memory) {n : Nat} :
    n ∈ (registry ops).since since ↔ ∃ record, Lasts ops since record ∧ record.pid = n := by
  simp only [Registry.mem_since_iff, h.items, List.mem_map]
  constructor
  · rintro ⟨_, ⟨record, hrecord, rfl⟩, hpid, hlate⟩
    exact ⟨record, hops.lasts_iff.2 ⟨h.sublist.subset hrecord, hlate⟩, hpid⟩
  · rintro ⟨record, hlasts, hpid⟩
    exact ⟨_, ⟨record, h.mem_of_lasts hops hnow hrecent hlasts, rfl⟩, hpid, (hops.lasts_iff.1 hlasts).2⟩

/-- A record that lasts, of the number of one that was dropped too early to last, has entered after that. -/
theorem Orderly.entered_later (h : Orderly ops) (hdrop : (record, t) ∈ drops ops) (hearly : t < since)
    (hlasts : Lasts ops since other) (hpid : other.pid = record.pid) :
    ∃ earlier later, ops = earlier ++ .drop record t :: later ∧ other ∈ records later := by
  obtain ⟨earlier, later, rfl⟩ := List.append_of_mem (mem_of_mem_drops hdrop)
  refine ⟨earlier, later, rfl, ?_⟩
  have hsplit : Orderly (earlier ++ [.drop record t] ++ later) := by simpa using h
  obtain ⟨hearlier, hpast, hentered, hundropped⟩ := hsplit.of_append.of_snoc
  obtain ⟨hother, hlate⟩ := h.lasts_iff.1 hlasts
  have hne : other ≠ record := by
    rintro rfl
    exact absurd (hlate t (h.mark?_eq_some_iff.2 hdrop)) (Nat.not_le.2 hearly)
  by_contra hnot
  -- It would have entered before the drop, and so would have been dropped before as well.
  have hold : other ∈ records earlier := by
    simpa [Operation.entered?, hnot] using hother
  have hdropped : other ∈ dropped earlier := by
    by_contra hundropped'
    exact hne (hearlier.eq_of_pid_eq hentered hold hpid hundropped hundropped')
  obtain ⟨⟨_, t'⟩, hdrop', rfl⟩ := List.mem_map.1 hdropped
  have hsince : since ≤ t' := hlate t' (h.mark?_eq_some_iff.2 (by simp [hdrop']))
  have htime : t' ≤ t := hpast _ (mem_of_mem_drops hdrop')
  exact absurd (Nat.le_trans hsince htime) (Nat.not_le.2 hearly)

/-- The answer about a recent time has the numbers of exactly those records that have entered and are not dropped, or
were dropped from that time on. None of these has been forgotten. A record dropped before is told of only under the
number of one that lasts and has entered after the drop. -/
theorem recent_records_remembered (h : Orderly (before ++ .query since now :: after))
    (hrecent : now < since + Registry.memory) :
    (∀ n, n ∈ (registry before).since since ↔ ∃ record, Lasts before since record ∧ record.pid = n) ∧
      (∃ kept : List Record, kept.Sublist (records before) ∧ (registry before).items = kept.map (item before) ∧
        ∀ record, Lasts before since record → record ∈ kept) ∧
      ∀ record t, (record, t) ∈ drops before → t < since → record.pid ∈ (registry before).since since →
        ∃ earlier later other, before = earlier ++ .drop record t :: later ∧ other ∈ records later ∧
          other.pid = record.pid ∧ Lasts before since other := by
  have hsplit : Orderly (before ++ [.query since now] ++ after) := by simpa using h
  obtain ⟨hbefore, hquery⟩ := hsplit.of_append.of_snoc
  obtain ⟨kept, hkept⟩ := hbefore.exists_kept
  have hanswer (n : Nat) := hkept.mem_since_iff hbefore hquery.1 hrecent (n := n)
  refine ⟨hanswer, ⟨kept, hkept.sublist, hkept.items, fun record hlasts => ?_⟩, fun record t hdrop hearly htold => ?_⟩
  · exact hkept.mem_of_lasts hbefore hquery.1 hrecent hlasts
  · obtain ⟨other, hlasts, hpid⟩ := (hanswer record.pid).1 htold
    obtain ⟨earlier, later, hbefore', hother⟩ := hbefore.entered_later hdrop hearly hlasts hpid
    exact ⟨earlier, later, other, hbefore', hother, hpid, hlasts⟩

/-- A number enters again after its record was dropped. That record is forgotten when another number enters. -/
def reused : History :=
  [.register ⟨0, 41⟩ 0, .drop ⟨0, 41⟩ 5, .register ⟨1, 41⟩ 10, .register ⟨2, 42⟩ (Registry.memory + 20),
    .drop ⟨1, 41⟩ (Registry.memory + 30)]

theorem orderly_of_follows (h : ∀ n (hn : n < ops.length), Follows (ops.take n) ops[n]) : Orderly ops := by
  have htake (n : Nat) : Orderly (ops.take n) := by
    induction n with
    | zero => exact .nil
    | succ n ih =>
      by_cases hn : n < ops.length
      · rw [List.take_succ_eq_append_getElem hn]
        exact ih.snoc (h n hn)
      · rwa [List.take_of_length_le (by omega), ← List.take_of_length_le (Nat.le_of_not_lt hn)]
  exact List.take_length (l := ops) ▸ htake ops.length

theorem recent_records_remembered_reused :
    Orderly (reused ++ [.query (Registry.memory + 25) (Registry.memory + 40)]) ∧
      Registry.memory + 40 < Registry.memory + 25 + Registry.memory ∧
      (41 ∈ (registry reused).since (Registry.memory + 25) ∧ 42 ∈ (registry reused).since (Registry.memory + 25)) ∧
      ∃ earlier later other, reused = earlier ++ .drop ⟨0, 41⟩ 5 :: later ∧ other ∈ records later ∧ other.pid = 41 ∧
        Lasts reused (Registry.memory + 25) other := by
  have horderly : Orderly (reused ++ [.query (Registry.memory + 25) (Registry.memory + 40)]) :=
    orderly_of_follows (by decide)
  have hrecent : Registry.memory + 40 < Registry.memory + 25 + Registry.memory := by decide
  obtain ⟨hanswer, -, hlater⟩ := recent_records_remembered horderly hrecent
  have hlasts : Lasts reused (Registry.memory + 25) ⟨1, 41⟩ :=
    ⟨by decide, .inr ⟨Registry.memory + 30, by decide, by decide⟩⟩
  have hlasts' : Lasts reused (Registry.memory + 25) ⟨2, 42⟩ :=
    ⟨by decide, .inl fun t => by simp [reused, Operation.dropped?]⟩
  have htold := (hanswer 41).2 ⟨_, hlasts, rfl⟩
  exact ⟨horderly, hrecent, ⟨htold, (hanswer 42).2 ⟨_, hlasts', rfl⟩⟩,
    hlater ⟨0, 41⟩ 5 (by decide) (by decide) htold⟩

end History

end ProcessProbe.Diagnostic
