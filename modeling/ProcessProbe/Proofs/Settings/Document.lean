import ProcessProbe.Proofs.CommandLine.Settings
import ProcessProbe.Proofs.Json.Written

/-!
# Settings in JSON

A document holds the timeout in whole milliseconds. Main statement: settings with a timeout that 64 bits of milliseconds
hold, and with a root that is a text, are written and read back with the timeout rounded down. Those of an environment
and of a command line are read back as they are.
-/

namespace ProcessProbe

namespace Json

theorem nat?_eq_some_iff {high n : Nat} {v : Json} : nat? high v = some n ↔ v = .ofNat n ∧ n ≤ high := by
  cases v with
  | integer m =>
    rw [nat?, ofNat]
    split
    · simp only [Option.some.injEq, Json.integer.injEq]
      omega
    · simp only [Json.integer.injEq, reduceCtorEq, false_iff]
      omega
  | _ => simp [nat?, ofNat]

theorem text?_eq_some_iff {v : Json} {s : String} : text? v = some s ↔ v = .text s := by
  cases v <;> simp [text?]

end Json

namespace Settings

variable {s t : Settings}

/-- The settings that a text is read as. -/
def ofText? (text : String) : Option Settings := (Json.ofString? text).bind ofJson?

/-- Settings of which a document keeps all but a part of a millisecond. -/
structure Writable (s : Settings) : Prop where
  timeout : s.toolTimeout.nanoseconds < (Text.maxU64 + 1) * 1000000
  output : s.maxOutputBytes ≤ Text.maxU64
  root : ∃ text, s.procRoot = .ofString text

/-- The settings with their timeout rounded down to whole milliseconds. -/
def rounded (s : Settings) : Settings := { s with toolTimeout := .ofMillis s.toolTimeout.toMillis }

theorem toMillis_rounded (s : Settings) : s.rounded.toolTimeout.toMillis = s.toolTimeout.toMillis :=
  Duration.toMillis_ofMillis _

theorem nanoseconds_rounded_le (s : Settings) : s.rounded.toolTimeout.nanoseconds ≤ s.toolTimeout.nanoseconds := by
  rw [rounded, Duration.ofMillis, Duration.toMillis]
  exact Nat.div_mul_le_self _ _

theorem Writable.toMillis_le (h : s.Writable) : s.toolTimeout.toMillis ≤ Text.maxU64 := by
  have htimeout := h.timeout
  rw [Duration.toMillis]
  omega

theorem Writable.timeoutMillis_eq (h : s.Writable) : s.timeoutMillis = s.toolTimeout.toMillis :=
  Nat.mod_eq_of_lt (Nat.lt_succ_of_le h.toMillis_le)

theorem Writable.rounded (h : s.Writable) : s.rounded.Writable :=
  ⟨Nat.lt_of_le_of_lt s.nanoseconds_rounded_le h.timeout, h.output, h.root⟩

theorem rounded_eq_of_ofMillis {ms : Nat} (h : s.toolTimeout = .ofMillis ms) : s.rounded = s := by
  rw [rounded, h, Duration.toMillis_ofMillis, ← h]

/-! ## Documents -/

/-- The object that is written for settings with a timeout in milliseconds, a limit and a root. -/
def document (ms output : Nat) (root : String) : Json :=
  .object [("tool_timeout_ms", .ofNat ms), ("max_output_bytes", .ofNat output), ("proc_root", .text root)]

/-- The same object with its fields in order. -/
def sortedDocument (ms output : Nat) (root : String) : Json :=
  .object [("max_output_bytes", .ofNat output), ("proc_root", .text root), ("tool_timeout_ms", .ofNat ms)]

/-- The values that a document has for the timeout, the limit and the root. -/
def valuesIn (v : Json) : Option (List (Option Json)) :=
  Json.record? ["tool_timeout_ms", "max_output_bytes", "proc_root"] v

@[simp] theorem valuesIn_document (ms output : Nat) (root : String) : valuesIn (document ms output root) =
    some [some (.ofNat ms), some (.ofNat output), some (.text root)] := by
  simp [valuesIn, document, Json.record?, Json.repeats]

@[simp] theorem valuesIn_sortedDocument (ms output : Nat) (root : String) :
    valuesIn (sortedDocument ms output root) = some [some (.ofNat ms), some (.ofNat output), some (.text root)] := by
  simp [valuesIn, sortedDocument, Json.record?, Json.repeats]

/-- Settings are read from a document that has a number of 64 bits for the timeout and for the limit, and a text for the
root. -/
theorem ofJson?_eq_some_iff {v : Json} : ofJson? v = some s ↔
    ∃ ms root, valuesIn v = some [some (.ofNat ms), some (.ofNat s.maxOutputBytes), some (.text root)] ∧
      ms ≤ Text.maxU64 ∧ s.maxOutputBytes ≤ Text.maxU64 ∧ s.toolTimeout = .ofMillis ms ∧
      s.procRoot = .ofString root := by
  rw [ofJson?, ← valuesIn]
  cases valuesIn v with
  | none => simp
  | some values =>
    rcases values with _ | ⟨timeout, _ | ⟨output, _ | ⟨root, _ | ⟨_, _⟩⟩⟩⟩
    · simp
    · simp
    · simp
    · obtain ⟨toolTimeout, maxOutputBytes, procRoot⟩ := s
      simp only [Option.bind_eq_bind, Option.bind_some, Json.required?, Option.bind_eq_some_iff, Option.pure_def,
        Option.some.injEq, Json.nat?_eq_some_iff, Json.text?_eq_some_iff, Settings.mk.injEq, List.cons.injEq, and_true]
      constructor
      · rintro ⟨ms, ⟨_, htimeout, rfl, hms⟩, n, ⟨_, houtput, rfl, hn⟩, text, ⟨_, hroot, rfl⟩, rfl, rfl, rfl⟩
        exact ⟨ms, text, ⟨htimeout, houtput, hroot⟩, hms, hn, rfl, rfl⟩
      · rintro ⟨ms, text, ⟨htimeout, houtput, hroot⟩, hms, hn, rfl, rfl⟩
        exact ⟨ms, ⟨_, htimeout, rfl, hms⟩, _, ⟨_, houtput, rfl, hn⟩, text, ⟨_, hroot, rfl⟩, rfl, rfl, rfl⟩
    · simp

theorem exists_of_ofText? {text : String} (h : ofText? text = some s) :
    ∃ ms ≤ Text.maxU64, s.toolTimeout = .ofMillis ms := by
  obtain ⟨v, -, hv⟩ := Option.bind_eq_some_iff.1 h
  obtain ⟨ms, -, -, hms, -, htimeout, -⟩ := ofJson?_eq_some_iff.1 hv
  exact ⟨ms, hms, htimeout⟩

theorem toJson?_of_root {root : String} (h : s.procRoot = .ofString root) :
    s.toJson? = some (document s.timeoutMillis s.maxOutputBytes root) := by
  rw [toJson?, h, pathToJson?_ofString]
  rfl

/-- By `ofString?_writeAt_object`: the fields are read in order, and found by their names all the same. -/
theorem ofString?_writeAt_document (indent : Option Nat) (ms output : Nat) (root : String) :
    Json.ofString? ((document ms output root).writeAt indent) = some (sortedDocument ms output root) := by
  have hsorted : Json.sortFields [("tool_timeout_ms", Json.ofNat ms), ("max_output_bytes", .ofNat output),
      ("proc_root", .text root)] =
      [("max_output_bytes", .ofNat output), ("proc_root", .text root), ("tool_timeout_ms", .ofNat ms)] := by
    simp only [Json.sortFields, Json.insertField, List.foldl_cons, List.foldl_nil, String.reduceLT, String.reduceEq,
      reduceIte]
  have hplain : ∀ f ∈ [("tool_timeout_ms", Json.ofNat ms), ("max_output_bytes", .ofNat output),
      ("proc_root", .text root)], f.2.Plain := by
    simp only [List.forall_mem_cons, List.not_mem_nil, false_imp_iff, implies_true, and_true]
    exact ⟨.integer _, .integer _, .text _⟩
  rw [document, Json.ofString?_writeAt_object hplain, hsorted]
  rfl

/-- The settings are written as a value, others are read from it and from its text in each form of that, and these are
written as the same value. -/
structure ReadBack (s t : Settings) (v : Json) : Prop where
  written : s.toJson? = some v
  read : ofJson? v = some t
  read_text : ∀ indent, ofText? (v.writeAt indent) = some t
  again : t.toJson? = some v

theorem Writable.readBack (h : s.Writable) : ∃ v, s.ReadBack s.rounded v := by
  obtain ⟨root, hroot⟩ := h.root
  have hread {v : Json} (hv : valuesIn v =
      some [some (.ofNat s.toolTimeout.toMillis), some (.ofNat s.maxOutputBytes), some (.text root)]) :
      ofJson? v = some s.rounded :=
    ofJson?_eq_some_iff.2 ⟨_, root, hv, h.toMillis_le, h.output, rfl, hroot⟩
  refine ⟨_, toJson?_of_root hroot, ?_, ?_, ?_⟩
  · exact hread (h.timeoutMillis_eq ▸ valuesIn_document _ _ _)
  · intro indent
    rw [ofText?, ofString?_writeAt_document]
    exact hread (h.timeoutMillis_eq ▸ valuesIn_sortedDocument _ _ _)
  · rw [toJson?_of_root (s := s.rounded) hroot, h.rounded.timeoutMillis_eq, h.timeoutMillis_eq, toMillis_rounded]
    rfl

theorem IsUsable.writable (h : s.IsUsable) : s.Writable := by
  obtain ⟨ms, -, hms, htimeout⟩ := h.timeout
  refine ⟨?_, h.output_le, h.text⟩
  rw [htimeout]
  exact Nat.mul_lt_mul_of_pos_right (Nat.lt_succ_of_le hms) (by decide)

theorem Entered.readBack (h : s.Entered) : ∃ v, s.ReadBack s v := by
  obtain ⟨ms, -, -, htimeout⟩ := h.isUsable.timeout
  have hback := h.isUsable.writable.readBack
  rw [rounded_eq_of_ofMillis htimeout] at hback
  exact hback

/-- Settings are read back from what is written of them, with the timeout rounded down, and they run the diagnostics
with the same limits then. Those of an environment or a command line are read back as they are, and an environment
gives settings just when each variable that is set is valid. -/
theorem settings_survive_documents :
    (∀ s : Settings, s.Writable → (∃ v, s.ReadBack s.rounded v) ∧
      s.rounded.policy = ⟨.ofMillis s.toolTimeout.toMillis, s.maxOutputBytes, Diagnostic.tools⟩) ∧
    (∀ s : Settings, s.Entered → s.Writable ∧ ∃ v, s.ReadBack s v) ∧
    ∀ lookup, ((∃ s, ofEnvironment lookup = .ok s) ↔ Valid lookup) ∧
      ∀ s, ofEnvironment lookup = .ok s → s.IsOf lookup ∧ s.IsUsable ∧
        ∀ other t, ofEnvironment other = .ok t → s.AgreeOn t lookup other := by
  refine ⟨?_, ?_, ?_⟩
  · intro s hs
    exact ⟨hs.readBack, rfl⟩
  · intro s hs
    exact ⟨hs.isUsable.writable, hs.readBack⟩
  · intro lookup
    refine ⟨exists_ofEnvironment_iff, ?_⟩
    intro s hs
    have hof := ofEnvironment_eq_ok_iff.1 hs
    refine ⟨hof, hof.isUsable, ?_⟩
    intro other t ht
    exact hof.agreeOn (ofEnvironment_eq_ok_iff.1 ht)

/-- A timeout of 2.5 ms, and a root with a letter that takes two bytes. -/
def fractional : Settings := ⟨⟨2500000⟩, 4096, .ofString "/procé"⟩

/-- An environment that only sets the timeout, to the greatest number of 64 bits. -/
def longestLookup (name : String) : Option String :=
  if name = timeoutVariable then some "18446744073709551615" else none

theorem settings_survive_documents_fractional :
    fractional.Writable ∧ (∃ v, fractional.ReadBack ⟨.ofMillis 2, 4096, .ofString "/procé"⟩ v) ∧
      ∃ s, ofEnvironment longestLookup = .ok s ∧ (∃ v, s.ReadBack s v) ∧ s.toolTimeout = .ofMillis Text.maxU64 := by
  have hwritable : fractional.Writable := ⟨by decide, by decide, "/procé", rfl⟩
  obtain ⟨hround, hentered, henvironment⟩ := settings_survive_documents
  have hgiven : ofEnvironment longestLookup = .ok ⟨.ofMillis Text.maxU64, 10 * 1024 * 1024, defaultProcRoot⟩ := by
    decide
  exact ⟨hwritable, (hround fractional hwritable).1, _, hgiven, (hentered _ (.environment hgiven)).2, rfl⟩

end Settings

end ProcessProbe
