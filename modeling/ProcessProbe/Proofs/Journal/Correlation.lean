import ProcessProbe.Proofs.Journal.Events
import ProcessProbe.Proofs.Journal.Recorded

/-!
# Correlation of lines

An event is written with the values that tie it to its run, and these may come from the spans around it. Main statement:
the line of an event has each of them from the event, or else from the innermost span that records one, and it has
nothing else of the spans. Entries that leave each span that they enter make no difference to later lines.
-/

namespace ProcessProbe.Journal

/-- The value under a name in the first of some scopes that records one; the innermost scope comes first. -/
inductive Carries (name : String) : List Fields → Json → Prop
  | here {fields : Fields} {outer : List Fields} {v : Json} (h : recorded? fields name = some v) :
    Carries name (fields :: outer) v
  | outer {fields : Fields} {outer : List Fields} {v : Json} (h : recorded? fields name = none)
    (hrest : Carries name outer v) : Carries name (fields :: outer) v

theorem carries_iff {name : String} {scopes : List Fields} {v : Json} :
    Carries name scopes v ↔ scopes.findSome? (recorded? · name) = some v := by
  constructor
  · intro h
    induction h with
    | here h => simp [h]
    | outer h _ ih => simpa [h] using ih
  · intro h
    induction scopes with
    | nil => contradiction
    | cons fields scopes ih =>
      rw [List.findSome?_cons] at h
      cases hfields : recorded? fields name with
      | some w =>
        rw [hfields] at h
        exact .here (hfields.trans h)
      | none =>
        rw [hfields] at h
        exact .outer hfields (ih h)

/-- The values that fields record under other names than those of correlating values and that of the message, each name
once. -/
structure HoldsOthers (fields : Fields) (others : Recorded) : Prop where
  distinct : others.names.Nodup
  mem_iff : ∀ name v, (name, v) ∈ others ↔ name ∉ "message" :: correlationKeys ∧ recorded? fields name = some v

theorem mem_others_ofFields_iff {fields : Fields} {name : String} {v : Json} :
    (name, v) ∈ (Recorded.ofFields fields).others ↔ name ∉ correlationKeys ∧ recorded? fields name = some v := by
  rw [Recorded.mem_others_iff, Recorded.mem_iff_find?_eq (Recorded.nodup_ofFields fields), Recorded.find?_ofFields]

theorem holdsOthers_ofFields (fields : Fields) :
    HoldsOthers fields ((Recorded.ofFields fields).others.without "message") where
  distinct := Recorded.nodup_without (Recorded.nodup_others (Recorded.nodup_ofFields fields))
  mem_iff name v := by
    rw [Recorded.mem_without_iff, mem_others_ofFields_iff, List.mem_cons, not_or, and_assoc]

theorem HoldsOthers.eq_nil_iff {fields : Fields} {others : Recorded} (h : HoldsOthers fields others) :
    others = [] ↔ ∀ name, name ∉ "message" :: correlationKeys → recorded? fields name = none := by
  constructor
  · intro hnil name hname
    apply Option.eq_none_iff_forall_ne_some.2
    intro v hv
    have hmem : (name, v) ∈ others := (h.mem_iff name v).2 ⟨hname, hv⟩
    simp [hnil] at hmem
  · intro hnone
    apply List.eq_nil_iff_forall_not_mem.2
    intro f hf
    obtain ⟨hname, hv⟩ := (h.mem_iff f.1 f.2).1 hf
    rw [hnone f.1 hname] at hv
    contradiction

/-- What is written of an event inside spans, the innermost first. No name occurs twice, and all names are known. The
message is the value that the event records under that name. -/
structure WrittenFor (time : String) (spans : List Span) (e : Event) (top : Recorded) : Prop where
  distinct : top.names.Nodup
  ts : top.find? "ts" = some (.text time)
  level : top.find? "level" = some (.text e.level.name)
  event : top.find? "event" = some (.text e.target)
  message : top.find? "message" = recorded? e.values "message"
  correlation : ∀ key ∈ correlationKeys, ∀ w, top.find? key = some w ↔
    ∃ v, Carries key (e.values :: spans.map (·.fields)) v ∧ Lifts key v w
  fields : ∀ w, top.find? "fields" = some w → ∃ others : Recorded, w = .object others ∧ HoldsOthers e.values others
  no_fields : top.find? "fields" = none ↔
    ∀ name, name ∉ "message" :: correlationKeys → recorded? e.values name = none
  known : ∀ name ∈ top.names, name ∈ ["ts", "level", "event", "message", "fields"] ∨ name ∈ correlationKeys

/-! ## Parts of a line -/

variable {time : String} {spans : List Span} {e : Event}

/-- The correlating values of an event inside spans. -/
def correlationAt (spans : List Span) (e : Event) : Recorded :=
  (correlationOf (spans.map fun span => (Recorded.ofFields span.fields).correlation)).overlay
    (Recorded.ofFields e.values).correlation

theorem nodup_correlationAt (spans : List Span) (e : Event) : (correlationAt spans e).names.Nodup :=
  Recorded.nodup_overlay (nodup_correlationOf _)

theorem find?_correlationAt (spans : List Span) (e : Event) (key : String) : (correlationAt spans e).find? key =
    if key ∈ correlationKeys then
      ((e.values :: spans.map (·.fields)).findSome? (recorded? · key)).map (normalize key)
    else none := by
  have hscopes : correlationAt spans e = correlationOf
      ((e.values :: spans.map (·.fields)).map fun fields => (Recorded.ofFields fields).correlation) := by
    simp [correlationAt, correlationOf, Function.comp_def]
  have hdistinct : ∀ r ∈ (e.values :: spans.map (·.fields)).map fun fields => (Recorded.ofFields fields).correlation,
      r.names.Nodup := by
    simp [Recorded.nodup_correlation]
  rw [hscopes, find?_correlationOf hdistinct, List.findSome?_map]
  by_cases hkey : key ∈ correlationKeys
  · simp only [Function.comp_def, Recorded.find?_correlation, hkey, if_true, Recorded.find?_ofFields]
    induction e.values :: spans.map (·.fields) with
    | nil => rfl
    | cons fields scopes ih =>
      simp only [List.findSome?_cons, ih]
      cases recorded? fields key <;> rfl
  · simp [Function.comp_def, Recorded.find?_correlation, hkey]

theorem mem_correlationKeys_of_correlationAt {key : String} (h : key ∈ (correlationAt spans e).names) :
    key ∈ correlationKeys := by
  obtain ⟨v, hv⟩ := Recorded.mem_names_iff.1 h
  rw [find?_correlationAt] at hv
  by_contra hkey
  simp [hkey] at hv

theorem find?_correlationAt_eq_some_iff {key : String} (hkey : key ∈ correlationKeys) {w : Json} :
    (correlationAt spans e).find? key = some w ↔
      ∃ v, Carries key (e.values :: spans.map (·.fields)) v ∧ Lifts key v w := by
  simp only [find?_correlationAt, hkey, if_true, Option.map_eq_some_iff, carries_iff, normalize_eq_iff]

def headPart (time : String) (e : Event) : Recorded :=
  [("ts", .text time), ("level", .text e.level.name), ("event", .text e.target)]

def message? (e : Event) : Option Json := (Recorded.ofFields e.values).others.find? "message"

theorem message?_eq (e : Event) : message? e = recorded? e.values "message" := by
  have hdistinct := Recorded.nodup_others (Recorded.nodup_ofFields e.values)
  apply Option.ext
  intro v
  rw [message?, ← Recorded.mem_iff_find?_eq hdistinct, mem_others_ofFields_iff]
  exact and_iff_right (by decide)

/-- The fields of an event that are no correlating values, as one value; none if there are none. -/
def others? (e : Event) : Option Json :=
  let others := (Recorded.ofFields e.values).others.without "message"
  if others.isEmpty then none else some (.object others)

theorem others?_eq_none_iff (e : Event) :
    others? e = none ↔ (Recorded.ofFields e.values).others.without "message" = [] := by
  simp [others?]

theorem eq_object_of_others? {w : Json} (h : others? e = some w) :
    w = .object ((Recorded.ofFields e.values).others.without "message") := by
  rw [others?] at h
  split at h
  · contradiction
  · exact (Option.some.inj h).symm

/-- The values at the top of the line of an event inside spans. -/
def topOf (time : String) (spans : List Span) (e : Event) : Recorded :=
  headPart time e ++ (correlationAt spans e ++
    (Recorded.optional "message" (message? e) ++ Recorded.optional "fields" (others? e)))

theorem find?_topOf (time : String) (spans : List Span) (e : Event) (name : String) :
    (topOf time spans e).find? name = ((headPart time e).find? name).or (((correlationAt spans e).find? name).or
      ((if name = "message" then message? e else none).or (if name = "fields" then others? e else none))) := by
  rw [topOf, Recorded.find?_append, Recorded.find?_append, Recorded.find?_append, Recorded.find?_optional,
    Recorded.find?_optional]

theorem find?_topOf_of_not_mem {name : String} (hname : name ∉ correlationKeys) : (topOf time spans e).find? name =
    ((headPart time e).find? name).or
      ((if name = "message" then message? e else none).or (if name = "fields" then others? e else none)) := by
  have hnone : (correlationAt spans e).find? name = none := by simp [find?_correlationAt, hname]
  rw [find?_topOf, hnone, Option.none_or]

theorem find?_topOf_of_mem {name : String} (hname : name ∈ correlationKeys) :
    (topOf time spans e).find? name = (correlationAt spans e).find? name := by
  have hrest : (headPart time e).find? name = none ∧ name ≠ "message" ∧ name ≠ "fields" := by
    simp only [headPart, Recorded.find?_cons, Recorded.find?_nil]
    revert hname
    simp only [correlationKeys, List.mem_cons, List.not_mem_nil, or_false]
    rintro (rfl | rfl | rfl | rfl | rfl) <;> simp
  simp [find?_topOf, hrest]

theorem nodup_topOf (time : String) (spans : List Span) (e : Event) : (topOf time spans e).names.Nodup := by
  have hkeys {name : String} (h : name ∈ (correlationAt spans e).names) : name ≠ "message" ∧ name ≠ "fields" := by
    have hmem := mem_correlationKeys_of_correlationAt h
    constructor <;> intro heq <;> simp [heq, correlationKeys] at hmem
  apply Recorded.nodup_append
  · simp [headPart, Recorded.names]
  · apply Recorded.nodup_append (nodup_correlationAt spans e)
    · apply Recorded.nodup_append (Recorded.nodup_optional _ _) (Recorded.nodup_optional _ _)
      intro name hname
      simp [Recorded.find?_optional, Recorded.eq_of_mem_optional hname]
    · intro name hname
      obtain ⟨hmessage, hfields⟩ := hkeys hname
      simp [Recorded.find?_append, Recorded.find?_optional, hmessage, hfields]
  · intro name hname
    have hhead : name = "ts" ∨ name = "level" ∨ name = "event" := by simpa [headPart, Recorded.names] using hname
    rcases hhead with rfl | rfl | rfl <;>
      simp [Recorded.find?_append, Recorded.find?_optional, find?_correlationAt, correlationKeys]

theorem line_eq (time : String) (spans : List Span) (e : Event) :
    line time (spans.map fun span => (Recorded.ofFields span.fields).correlation) e = .object (topOf time spans e) := by
  have hothers : Recorded.optional "fields" (others? e) =
      if ((Recorded.ofFields e.values).others.without "message").isEmpty then []
      else [("fields", .object ((Recorded.ofFields e.values).others.without "message"))] := by
    rw [others?]
    split <;> rfl
  rw [topOf, hothers]
  simp [line, headPart, correlationAt, message?, Recorded.optional]

theorem writtenFor_topOf (time : String) (spans : List Span) (e : Event) :
    WrittenFor time spans e (topOf time spans e) where
  distinct := nodup_topOf time spans e
  ts := by simp [find?_topOf, headPart]
  level := by simp [find?_topOf, headPart]
  event := by simp [find?_topOf, headPart]
  message := by
    have hname : "message" ∉ correlationKeys := by decide
    simp [find?_topOf_of_not_mem hname, headPart, message?_eq]
  correlation key hkey w := by
    rw [find?_topOf_of_mem hkey]
    exact find?_correlationAt_eq_some_iff hkey
  fields w hw := by
    have hname : "fields" ∉ correlationKeys := by decide
    have hothers : others? e = some w := by simpa [find?_topOf_of_not_mem hname, headPart] using hw
    exact ⟨_, eq_object_of_others? hothers, holdsOthers_ofFields e.values⟩
  no_fields := by
    have hname : "fields" ∉ correlationKeys := by decide
    rw [← (holdsOthers_ofFields e.values).eq_nil_iff, ← others?_eq_none_iff]
    simp [find?_topOf_of_not_mem hname, headPart]
  known name hname := by
    simp only [topOf, Recorded.names, List.map_append, List.mem_append] at hname
    rcases hname with hname | hname | hname | hname
    · left
      simp [headPart] at hname
      rcases hname with rfl | rfl | rfl <;> decide
    · exact .inr (mem_correlationKeys_of_correlationAt hname)
    · simp [Recorded.eq_of_mem_optional hname]
    · simp [Recorded.eq_of_mem_optional hname]

/-! ## Open spans -/

/-- The open spans after an entry, the innermost first. -/
def spansAfter (spans : List Span) : Entry → List Span
  | .enter span => span :: spans
  | .leave => spans.tail
  | .event _ => spans

def openSpans (entries : List Entry) : List Span := entries.foldl spansAfter []

/-- The scopes of open spans. -/
def Filter.scopesOf (filter : Filter) : List Span → List Scope
  | [] => []
  | span :: spans => Scope.enter filter (filter.scopesOf spans) span :: filter.scopesOf spans

/-- The open spans that are written. -/
def Filter.shown (filter : Filter) : List Span → List Span
  | [] => []
  | span :: spans =>
    if filter.admitsSpan ((filter.scopesOf spans).map (·.threshold)) span then span :: filter.shown spans
    else filter.shown spans

theorem Filter.scopesAfter_scopesOf (filter : Filter) (spans : List Span) (entry : Entry) :
    scopesAfter filter (filter.scopesOf spans) entry = filter.scopesOf (spansAfter spans entry) := by
  cases entry with
  | enter span => rfl
  | leave => cases spans <;> rfl
  | event e => rfl

theorem Filter.foldl_scopesAfter (filter : Filter) (entries : List Entry) :
    entries.foldl (scopesAfter filter) [] = filter.scopesOf (openSpans entries) := by
  have hfold (spans : List Span) : entries.foldl (scopesAfter filter) (filter.scopesOf spans) =
      filter.scopesOf (entries.foldl spansAfter spans) := by
    induction entries generalizing spans with
    | nil => rfl
    | cons entry entries ih => rw [List.foldl_cons, List.foldl_cons, filter.scopesAfter_scopesOf, ih]
  exact hfold []

/-- A span that is not written has no correlating values, so it is as if it was not there. -/
theorem Filter.correlationOf_scopesOf (filter : Filter) (spans : List Span) :
    correlationOf ((filter.scopesOf spans).map (·.correlation)) =
      correlationOf ((filter.shown spans).map fun span => (Recorded.ofFields span.fields).correlation) := by
  induction spans with
  | nil => rfl
  | cons span spans ih =>
    have hstep (r : Recorded) (rs : List Recorded) : correlationOf (r :: rs) = (correlationOf rs).overlay r := rfl
    rw [Filter.scopesOf, Filter.shown, List.map_cons, hstep, ih, Scope.enter]
    split
    · rw [List.map_cons, hstep]
    · rfl

theorem Filter.shown_everything (spans : List Span) : everything.shown spans = spans := by
  have hadmits (around : List Threshold) (span : Span) : everything.admitsSpan around span = true := by
    have hlevel : Threshold.admits (.upTo .trace) span.level = true := by cases span.level <;> rfl
    have hstatic : staticallyAdmits [⟨.upTo .trace, none, none, none⟩] span.target span.level = true := hlevel
    simp [admitsSpan, everything, ofThreshold, hlevel, hstatic]
  induction spans with
  | nil => rfl
  | cons span spans ih => rw [Filter.shown, if_pos (hadmits _ span), ih]

/-- Entries that leave each span that they enter, and no other. -/
inductive Balanced : List Entry → Prop
  | nil : Balanced []
  | event (e : Event) {rest : List Entry} (hrest : Balanced rest) : Balanced (.event e :: rest)
  | span (span : Span) {inner rest : List Entry} (hinner : Balanced inner) (hrest : Balanced rest) :
    Balanced (.enter span :: inner ++ .leave :: rest)

theorem Balanced.foldl_spansAfter {entries : List Entry} (h : Balanced entries) (spans : List Span) :
    entries.foldl spansAfter spans = spans := by
  induction h generalizing spans with
  | nil => rfl
  | event e _ ih => exact ih spans
  | span span _ _ ihinner ihrest =>
    rw [List.cons_append, List.foldl_cons, List.foldl_append, ihinner, List.foldl_cons]
    exact ihrest spans

theorem Balanced.openSpans_append {inner : List Entry} (h : Balanced inner) (before : List Entry) :
    openSpans (before ++ inner) = openSpans before := by
  rw [openSpans, List.foldl_append, h.foldl_spansAfter]
  rfl

/-! ## Lines -/

theorem getElem?_linesFrom (filter : Filter) (time : String) (scopes : List Scope) (before : List Entry)
    (entry : Entry) (after : List Entry) :
    (linesFrom filter time scopes (before ++ entry :: after))[before.length]? =
      some (lineOf? filter time (before.foldl (scopesAfter filter) scopes) entry) := by
  induction before generalizing scopes with
  | nil => rfl
  | cons first before ih =>
    rw [List.cons_append, linesFrom, List.length_cons, List.getElem?_cons_succ, ih]
    rfl

theorem line_scopesOf (filter : Filter) (time : String) (spans : List Span) (e : Event) :
    line time ((filter.scopesOf spans).map (·.correlation)) e = .object (topOf time (filter.shown spans) e) := by
  rw [← line_eq, line, line, filter.correlationOf_scopesOf]

/-- The line of an event stands at its place, if the event is written, and is told by the open spans. -/
theorem getElem?_lines_event (filter : Filter) (time : String) (before : List Entry) (e : Event) (after : List Entry) :
    (lines filter time (before ++ .event e :: after))[before.length]? =
      some (if filter.admitsEvent ((filter.scopesOf (openSpans before)).map (·.threshold)) e then
        some (.object (topOf time (filter.shown (openSpans before)) e)) else none) := by
  rw [lines, getElem?_linesFrom, filter.foldl_scopesAfter, lineOf?, line_scopesOf]

/-- Without a filter, each event has one line, which is that of the event inside the open spans. With a filter it has
one at most, inside those that are written. Entries that leave the spans they enter make no difference to a later line.
-/
theorem event_lines_correlated (time : String) (before : List Entry) (e : Event) (after : List Entry) :
    (∃ top, (lines .everything time (before ++ .event e :: after))[before.length]? = some (some (.object top)) ∧
      WrittenFor time (openSpans before) e top) ∧
    (∀ filter v, (lines filter time (before ++ .event e :: after))[before.length]? = some (some v) →
      ∃ top, v = .object top ∧ WrittenFor time (filter.shown (openSpans before)) e top) ∧
    ∀ filter inner, Balanced inner → openSpans (before ++ inner) = openSpans before ∧
      (lines filter time (before ++ inner ++ .event e :: after))[(before ++ inner).length]? =
        (lines filter time (before ++ .event e :: after))[before.length]? := by
  refine ⟨?_, ?_, ?_⟩
  · have hadmits := Filter.admitsAll_everything ((Filter.everything.scopesOf (openSpans before)).map (·.threshold)) e
    refine ⟨topOf time (openSpans before) e, ?_, writtenFor_topOf time _ e⟩
    rw [getElem?_lines_event, if_pos hadmits, Filter.shown_everything]
  · intro filter v hv
    rw [getElem?_lines_event] at hv
    split at hv
    · exact ⟨_, (Option.some.inj (Option.some.inj hv)).symm, writtenFor_topOf time _ e⟩
    · simp at hv
  · intro filter inner hinner
    have hspans := hinner.openSpans_append before
    refine ⟨hspans, ?_⟩
    rw [getElem?_lines_event, getElem?_lines_event, hspans]

/-- A run with a query inside that records a process number as a text, and a stage of its own. -/
def nested : List Entry :=
  [.enter ⟨.info, "run", "run", [("run_id", .text "r1"), ("stage", .text "init")]⟩,
    .enter ⟨.info, "query", "query", [("stage", .text "detect"), ("pid", .text "77"), ("note", .text "hidden")]⟩]

def answered : Event := ⟨.info, "strategy.answered", some (.text "done"), [("strategy", .text "procfs")]⟩

/-- A query that is entered and left again before the event. -/
def passed : List Entry :=
  [.enter ⟨.info, "query", "query", [("pid", .text "12")]⟩, .event answered, .leave]

theorem event_lines_correlated_nested : Balanced passed ∧
    (∃ top, (lines .everything "now" (nested ++ .event answered :: []))[2]? = some (some (.object top)) ∧
      WrittenFor "now" (openSpans nested) answered top ∧ top.find? "pid" = some (.integer 77)) ∧
    openSpans (nested ++ passed) = openSpans nested := by
  have hpassed : Balanced passed := .span _ (.event answered .nil) .nil
  obtain ⟨⟨top, hline, hwritten⟩, -, hbalanced⟩ := event_lines_correlated "now" nested answered []
  have hpid : Carries "pid" (answered.values :: (openSpans nested).map (·.fields)) (.text "77") :=
    .outer rfl (.here rfl)
  have hlifts : Lifts "pid" (.text "77") (.integer 77) :=
    .number rfl (.bare (Text.isDigits_decimal 77)) (by decide)
  exact ⟨hpassed, ⟨top, hline, hwritten, (hwritten.correlation "pid" (by decide) _).2 ⟨_, hpid, hlifts⟩⟩,
    (hbalanced .everything passed hpassed).1⟩

end ProcessProbe.Journal
