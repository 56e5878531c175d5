import Mathlib
import ProcessProbe.Capability.Detection
import ProcessProbe.Machine.Basic
import ProcessProbe.Proofs.Diagnostic.Policy
import ProcessProbe.Proofs.Host.Started
import ProcessProbe.Proofs.Query.Failures
import ProcessProbe.Proofs.Text.Words

/-!
# What detection tells of the diagnostics

A diagnostic that stands in a directory of the search path, as a regular file that somebody may execute, is run once, to
answer a question about the caller. Main statement: what a snapshot tells of each diagnostic is told by the search path
and by that run alone, so a strategy that depends on one is open just when its run passed. What is not on the search
path is never run.
-/

namespace ProcessProbe

open Diagnostic (Policy Output)

variable {σ : Type}

/-- A host whose search path, entries and caller do not change. What becomes of its diagnostics is open. -/
structure Host.Offers (host : Host σ) (steady : σ → Prop) (path? : Option Bytes)
    (metadata : Path → Except SystemError Metadata) (pid : Nat) : Prop where
  keeps : host.Keeps steady
  searchPath : ∀ s, steady s → (host.answer (.environment "PATH") s).1 = path?
  metadata : ∀ s, steady s → ∀ p, (host.answer (.metadata p) s).1 = metadata p
  ownPid : ∀ s, steady s → (host.answer .ownPid s).1 = pid

namespace Machine

/-- The machine has the same files, the same environment and the same caller. -/
structure Like (m m' : Machine) : Prop where
  files : m'.files = m.files
  environment : m'.environment = m.environment
  caller : m'.caller = m.caller

theorem keeps_like (m : Machine) : host.Keeps m.Like := by
  intro request m' h
  cases request with
  | run i =>
    change m.Like (m'.start i).2
    rw [start]
    split
    · exact h
    · exact ⟨h.files, h.environment, h.caller⟩
  | clock | record _ => exact ⟨h.files, h.environment, h.caller⟩
  | _ => exact h

theorem offers (m : Machine) :
    host.Offers m.Like ((m.environment.find? (·.1 == "PATH")).map (·.2)) m.metadata m.caller where
  keeps := m.keeps_like
  searchPath m' h := by rw [← h.environment]; rfl
  metadata m' h p := by
    change m'.metadata p = m.metadata p
    rw [metadata, metadata, entry, entry, h.files]
  ownPid _ h := h.caller

end Machine

/-- The diagnostic ended in time, with an output and a status that meet a check. -/
def Run.Passes (check : List Char → Option Int → Prop) : Run → Prop
  | .finished _ stdout _ _ exit => check (Utf8.decodeLossy stdout) exit
  | .notStarted _ | .failed _ => False

namespace Capabilities

/-! ## Checks -/

/-- The number stands in the output alone, perhaps with blanks around it, and all went well. -/
def PrintsNumber (pid : Nat) (text : List Char) (exit : Option Int) : Prop :=
  exit = some 0 ∧ ∃ before after, text = before ++ Text.decimal pid ++ after ∧
    (∀ c ∈ before, Text.isBlank c = true) ∧ ∀ c ∈ after, Text.isBlank c = true

/-- The diagnostic found something or nothing. -/
def FoundOrNot (_ : List Char) (exit : Option Int) : Prop := exit = some 0 ∨ exit = some 1

/-- A line of the output names a working directory, and all went well. -/
def ListsDirectory (text : List Char) (exit : Option Int) : Prop := exit = some 0 ∧ "fcwd".toList ∈ Text.lines text

theorem printsNumber_iff {pid : Nat} {text : List Char} {exit : Option Int} :
    PrintsNumber pid text exit ↔ exit = some 0 ∧ Text.trim text = Text.decimal pid := by
  have hword : ∀ c ∈ Text.decimal pid, Text.isBlank c = false := fun c hc => Text.not_isBlank_of_mem_decimal hc
  apply and_congr_right
  intro _
  constructor
  · intro h
    obtain ⟨before, after, rfl, hbefore, hafter⟩ := h
    rw [List.append_assoc, Text.trim_blanks_append hbefore, Text.trim_append_blanks hword hafter]
  · intro h
    obtain ⟨before, after, htext, hbefore, hafter⟩ := Text.exists_blanks_trim text
    exact ⟨before, after, h ▸ htext, hbefore, hafter⟩

/-! ## Probes -/

/-- A diagnostic that is asked about the caller, for five seconds and with 64 KiB of its output kept. -/
def probe (name : String) (args : List String) : Invocation := ⟨name, args, .ofMillis 5000, 64 * 1024⟩

def psProbe (pid : Nat) : Invocation := probe "ps" ["-o", "pid=", "-p", toString pid]

def pgrepProbe (pid : Nat) : Invocation := probe "pgrep" ["-P", toString pid]

def lsofProbe (pid : Nat) : Invocation := probe "lsof" ["-a", "-p", toString pid, "-d", "cwd", "-Ffn"]

def statesProbe (pid : Nat) : Invocation := probe "pgrep" ["-r", Diagnostic.liveStates, "-P", toString pid]

/-- The runs of a probe: one if it is due, and none otherwise. -/
structure AskedIf (due : Bool) (i : Invocation) (runs : List (Invocation × Run)) : Prop where
  asked : due = true → ∃ run, runs = [(i, run)]
  not_asked : due = false → runs = []

def ProbePassed (i : Invocation) (check : List Char → Option Int → Prop) (runs : List (Invocation × Run)) : Prop :=
  ∃ run, runs = [(i, run)] ∧ run.Passes check

variable {i : Invocation} {check : List Char → Option Int → Prop} {runs : List (Invocation × Run)} {run : Run}

theorem askedIf_true (i : Invocation) (run : Run) : AskedIf true i [(i, run)] := by
  constructor <;> simp

theorem askedIf_false (i : Invocation) : AskedIf false i [] := by
  constructor <;> simp

theorem probePassed_singleton_iff : ProbePassed i check [(i, run)] ↔ run.Passes check := by
  simp [ProbePassed]

theorem not_probePassed_nil : ¬ProbePassed i check [] := by
  simp [ProbePassed]

theorem AskedIf.of_mem {due : Bool} (h : AskedIf due i runs) {start : Invocation × Run} (hstart : start ∈ runs) :
    due = true ∧ start.1 = i := by
  cases due with
  | false => simp [h.not_asked rfl] at hstart
  | true =>
    obtain ⟨run, hruns⟩ := h.asked rfl
    simp_all

/-! ## The search path -/

/-- The directories of a search path, in order; none without one. -/
def directories (path? : Option Bytes) : List Path := path?.elim [] searchPath

/-- A regular file that its owner, its group or all others may execute: bit 6, 3 or 0 of its mode is set. -/
structure IsProgram (data : Metadata) : Prop where
  file : data.kind = .file
  executable : ∃ bit ∈ [6, 3, 0], data.mode.toNat.testBit bit = true

/-- A directory has a program of this name. -/
def Holds (metadata : Path → Except SystemError Metadata) (name : String) (dir : Path) : Prop :=
  ∃ data, metadata (dir.join (.ofString name)) = .ok data ∧ IsProgram data

/-- The first directory that has a program of this name. -/
def firstHolding? (metadata : Path → Except SystemError Metadata) (name : String) (dirs : List Path) : Option Path :=
  dirs.find? fun dir => (metadata (dir.join (.ofString name))).toOption.any Metadata.isExecutable

variable {metadata : Path → Except SystemError Metadata} {name : String} {dirs : List Path} {dir : Path}

theorem testBit_executeMask_iff {bit : Nat} : Nat.testBit 0o111 bit = true ↔ bit ∈ [6, 3, 0] := by
  have hlow : ∀ bit < 7, (Nat.testBit 0o111 bit = true ↔ bit ∈ [6, 3, 0]) := by decide
  by_cases hbit : bit < 7
  · exact hlow bit hbit
  · have hmask : 0o111 < 2 ^ bit := Nat.lt_of_lt_of_le (by decide : 0o111 < 2 ^ 7)
      (Nat.pow_le_pow_right (by decide) (Nat.le_of_not_lt hbit))
    rw [Nat.testBit_lt_two_pow hmask]
    simp only [Bool.false_eq_true, List.mem_cons, List.not_mem_nil, or_false, false_iff]
    omega

theorem and_executeMask_ne_zero_iff {mode : UInt32} :
    mode &&& 0o111 ≠ 0 ↔ ∃ bit ∈ [6, 3, 0], mode.toNat.testBit bit = true := by
  have hbit (bit : Nat) : (mode &&& 0o111).toNat.testBit bit = true ↔
      bit ∈ [6, 3, 0] ∧ mode.toNat.testBit bit = true := by
    rw [UInt32.toNat_and, Nat.testBit_and, Bool.and_eq_true, and_comm]
    exact and_congr_left fun _ => testBit_executeMask_iff
  constructor
  · intro hne
    obtain ⟨bit, hset⟩ := Nat.exists_testBit_of_ne_zero fun hzero => hne (UInt32.toNat_inj.1 hzero)
    exact ⟨bit, (hbit bit).1 hset⟩
  · intro h hzero
    obtain ⟨bit, hset⟩ := h
    have hnone := (hbit bit).2 hset
    simp [hzero] at hnone

theorem isExecutable_iff {data : Metadata} : data.isExecutable = true ↔ IsProgram data := by
  rw [Metadata.isExecutable, Bool.and_eq_true, beq_iff_eq, bne_iff_ne, and_executeMask_ne_zero_iff]
  exact ⟨fun h => ⟨h.1, h.2⟩, fun h => ⟨h.file, h.executable⟩⟩

theorem any_isExecutable_iff :
    (metadata (dir.join (.ofString name))).toOption.any Metadata.isExecutable = true ↔ Holds metadata name dir := by
  rw [Holds]
  cases metadata (dir.join (.ofString name)) with
  | error e => simp [Except.toOption]
  | ok data => simp [Except.toOption, isExecutable_iff]

theorem holds_machine_iff {m : Machine} : Holds m.metadata name dir ↔
    ∃ node, m.entry (dir.join (.ofString name)) = .ok node ∧ (node = .tool ∨ ∃ content, node = .file content true) := by
  rw [← any_isExecutable_iff, Machine.metadata]
  cases m.entry (dir.join (.ofString name)) with
  | error e => simp [Except.map, Except.toOption]
  | ok node =>
    simp only [Except.map, Except.toOption, Option.any_some, Except.ok.injEq, exists_eq_left']
    have hset : Metadata.isExecutable ⟨.file, 0o755⟩ = true := by decide
    have hunset : Metadata.isExecutable ⟨.file, 0o644⟩ = false := by decide
    cases node with
    | directory | link _ => simp [Machine.Node.metadata, Metadata.isExecutable]
    | tool => simp [Machine.Node.metadata, hset]
    | file content executable => cases executable <;> simp [Machine.Node.metadata, hset, hunset]

theorem firstHolding?_eq_none_iff :
    firstHolding? metadata name dirs = .none ↔ ∀ dir ∈ dirs, ¬Holds metadata name dir := by
  simp only [firstHolding?, List.find?_eq_none, any_isExecutable_iff]

theorem firstHolding?_eq_some_iff : firstHolding? metadata name dirs = some dir ↔
    ∃ before after, dirs = before ++ dir :: after ∧ (∀ d ∈ before, ¬Holds metadata name d) ∧
      Holds metadata name dir := by
  simp only [firstHolding?, List.find?_eq_some_iff_append, Bool.not_eq_true', ← Bool.not_eq_true,
    any_isExecutable_iff]
  constructor
  · intro h
    obtain ⟨hdir, before, after, hdirs, hbefore⟩ := h
    exact ⟨before, after, hdirs, hbefore, hdir⟩
  · intro h
    obtain ⟨before, after, hdirs, hbefore, hdir⟩ := h
    exact ⟨hdir, before, after, hdirs, hbefore⟩

/-- What is told of a diagnostic, and the runs of its probe. -/
structure Earned (metadata : Path → Except SystemError Metadata) (dirs : List Path) (i : Invocation)
    (check : List Char → Option Int → Prop) (t : Tool) (runs : List (Invocation × Run)) : Prop where
  available_iff_path : t.available = true ↔ ∃ text, t.path = some text
  available_iff_held : t.available = true ↔ ∃ dir ∈ dirs, Holds metadata i.command dir
  path_first : ∀ text, t.path = some text → ∃ before dir after, dirs = before ++ dir :: after ∧
    (∀ d ∈ before, ¬Holds metadata i.command d) ∧ Holds metadata i.command dir ∧
      text = (dir.join (.ofString i.command)).shown
  works_iff : t.works = true ↔ ProbePassed i check runs
  available_of_works : t.works = true → t.available = true
  error_iff : (∃ text, t.error = some text) ↔ t.available = true ∧ t.works = false
  runs : AskedIf t.available i runs

theorem Earned.missing (h : firstHolding? metadata i.command dirs = .none) :
    Earned metadata dirs i check .missing [] := by
  have hnone := firstHolding?_eq_none_iff.1 h
  constructor
  · simp [Tool.missing]
  · simpa [Tool.missing] using hnone
  · simp [Tool.missing]
  · simp [Tool.missing, not_probePassed_nil]
  · simp [Tool.missing]
  · simp [Tool.missing]
  · exact askedIf_false i

theorem Earned.found (h : firstHolding? metadata i.command dirs = some dir) {t : Tool}
    (havailable : t.available = true) (hpath : t.path = some (dir.join (.ofString i.command)).shown)
    (hworks : t.works = true ↔ run.Passes check) (herror : (∃ text, t.error = some text) ↔ t.works = false) :
    Earned metadata dirs i check t [(i, run)] := by
  obtain ⟨before, after, hdirs, hbefore, hdir⟩ := firstHolding?_eq_some_iff.1 h
  constructor
  · simp [havailable, hpath]
  · simp only [havailable, true_iff]
    exact ⟨dir, by simp [hdirs], hdir⟩
  · intro text htext
    rw [hpath] at htext
    exact ⟨before, dir, after, hdirs, hbefore, hdir, (Option.some.inj htext).symm⟩
  · rw [hworks, probePassed_singleton_iff]
  · simp [havailable]
  · simp [havailable, herror]
  · exact havailable ▸ askedIf_true i run

theorem Earned.working (h : firstHolding? metadata i.command dirs = some dir) (hrun : run.Passes check) :
    Earned metadata dirs i check (.working (dir.join (.ofString i.command)).shown) [(i, run)] := by
  apply Earned.found h rfl rfl
  · simp [Tool.working, hrun]
  · simp [Tool.working]

theorem Earned.broken (h : firstHolding? metadata i.command dirs = some dir) (hrun : ¬run.Passes check)
    (error : String) :
    Earned metadata dirs i check (.broken (dir.join (.ofString i.command)).shown error) [(i, run)] := by
  apply Earned.found h rfl rfl
  · simp [Tool.broken, hrun]
  · simp [Tool.broken]

/-- A tool is usable just when its probe was run and passed. -/
theorem Earned.usable_iff {t : Tool} (h : Earned metadata dirs i check t runs) :
    t.usable = true ↔ ProbePassed i check runs := by
  rw [← h.works_iff, Tool.usable, Bool.and_eq_true]
  constructor
  · intro husable
    exact husable.2
  · intro hworks
    exact ⟨h.available_of_works hworks, hworks⟩

/-- What is told in a snapshot, and the runs of the probes for each part of it. -/
structure EarnedBy (metadata : Path → Except SystemError Metadata) (dirs : List Path) (pid : Nat)
    (c : Capabilities) (ofPs ofPgrep ofLsof ofStates : List (Invocation × Run)) : Prop where
  ps : Earned metadata dirs (psProbe pid) (PrintsNumber pid) c.ps ofPs
  pgrep : Earned metadata dirs (pgrepProbe pid) FoundOrNot c.pgrep ofPgrep
  lsof : Earned metadata dirs (lsofProbe pid) ListsDirectory c.lsof ofLsof
  states : AskedIf c.pgrep.usable (statesProbe pid) ofStates
  selectsStates_iff : c.selectsStates = true ↔
    c.pgrep.usable = true ∧ ProbePassed (statesProbe pid) FoundOrNot ofStates

theorem Earned.held_of_mem {t : Tool} (h : Earned metadata dirs i check t runs) {start : Invocation × Run}
    (hstart : start ∈ runs) : ∃ dir ∈ dirs, Holds metadata start.1.command dir := by
  obtain ⟨havailable, hi⟩ := h.runs.of_mem hstart
  rw [hi]
  exact h.available_iff_held.1 havailable

theorem EarnedBy.held_of_mem {pid : Nat} {c : Capabilities} {ofPs ofPgrep ofLsof ofStates : List (Invocation × Run)}
    (h : EarnedBy metadata dirs pid c ofPs ofPgrep ofLsof ofStates) {start : Invocation × Run}
    (hstart : start ∈ ofPs ++ (ofPgrep ++ (ofLsof ++ ofStates))) :
    ∃ dir ∈ dirs, Holds metadata start.1.command dir := by
  simp only [List.mem_append] at hstart
  rcases hstart with hstart | hstart | hstart | hstart
  · exact h.ps.held_of_mem hstart
  · exact h.pgrep.held_of_mem hstart
  · exact h.lsof.held_of_mem hstart
  · obtain ⟨husable, hi⟩ := h.states.of_mem hstart
    have havailable : c.pgrep.available = true := (Bool.and_eq_true_iff.1 husable).1
    rw [hi]
    exact h.pgrep.available_iff_held.1 havailable

/-! ## Detection -/

/-- No argument of a probe holds a zero byte, since a process number is written in digits. -/
theorem holdsZeroByte_probes (pid : Nat) : ∀ i ∈ [psProbe pid, pgrepProbe pid, lsofProbe pid, statesProbe pid],
    Policy.holdsZeroByte i.command i.args = false := by
  have hdigits : '\x00' ∉ Nat.toDigits 10 pid := Text.not_mem_decimal (by decide) pid
  simp [psProbe, pgrepProbe, lsofProbe, statesProbe, probe, Policy.holdsZeroByte, Diagnostic.liveStates, hdigits]

theorem run_statesProbe (pid : Nat) :
    detectionPolicy.run "pgrep" ["-r", Diagnostic.liveStates, "-P", toString pid] .none =
      Policy.outcome "pgrep" ["-r", Diagnostic.liveStates, "-P", toString pid] <$> Inquiry.start (statesProbe pid) :=
  Diagnostic.run_of_allows (by decide) (.inr (by decide)) (holdsZeroByte_probes pid (statesProbe pid) (by simp))

section Detection

variable {host : Host σ} {steady : σ → Prop} {path? : Option Bytes} {pid : Nat}
  (h : host.Offers steady path? metadata pid)

include h

open Inquiry (Does)

theorem isExecutable_does (path : Path) :
    Does host steady (isExecutable path) fun answer runs =>
      runs = [] ∧ answer = (metadata path).toOption.any Metadata.isExecutable := by
  have hasked : Does host steady (Inquiry.metadata path) fun answer runs => runs = [] ∧ answer = metadata path :=
    Does.send (fun _ => rfl) fun s hs => h.metadata s hs path
  refine Does.bind_silent h.keeps hasked fun answer hanswer => ?_
  rw [← hanswer]
  exact Does.pure ⟨rfl, rfl⟩

theorem firstExecutable_does (paths : List Path) :
    Does host steady (firstExecutable paths) fun first runs =>
      runs = [] ∧ first = paths.find? fun path => (metadata path).toOption.any Metadata.isExecutable := by
  induction paths with
  | nil => exact Does.pure ⟨rfl, rfl⟩
  | cons path paths ih =>
    refine Does.bind_silent h.keeps (isExecutable_does h path) fun answer hanswer => ?_
    rw [hanswer, List.find?_cons]
    cases (metadata path).toOption.any Metadata.isExecutable with
    | true => exact Does.pure ⟨rfl, rfl⟩
    | false => exact ih

theorem locate_does (name : String) : Does host steady (locate name) fun first runs =>
    runs = [] ∧ first = (firstHolding? metadata name (directories path?)).map (·.join (.ofString name)) := by
  have hasked : Does host steady (Inquiry.environment "PATH") fun answer runs => runs = [] ∧ answer = path? :=
    Does.send (fun _ => rfl) h.searchPath
  refine Does.bind_silent h.keeps hasked fun answer hanswer => ?_
  rw [hanswer]
  cases path? with
  | none => exact Does.pure ⟨rfl, rfl⟩
  | some path =>
    have hfirst := firstExecutable_does h ((searchPath path).map (·.join (.ofString name)))
    rw [List.find?_map] at hfirst
    exact hfirst

theorem checkTool_does {args : List String} {passes : Output → Bool} (htool : name ∈ Diagnostic.tools)
    (hargs : Policy.holdsZeroByte name args = false)
    (hpasses : ∀ o : Output, passes o = true ↔ check o.stdoutText o.exit) :
    Does host steady (checkTool name args passes)
      (Earned metadata (directories path?) (probe name args) check) := by
  refine Does.bind_silent h.keeps (locate_does h name) fun found hfound => ?_
  cases hfirst : firstHolding? metadata name (directories path?) with
  | none =>
    rw [hfound, hfirst]
    exact Does.pure (Earned.missing hfirst)
  | some dir =>
    have hrun : detectionPolicy.run name args .none =
        Policy.outcome name args <$> Inquiry.start (probe name args) :=
      Diagnostic.run_of_allows htool (.inr htool) hargs
    rw [hfound, hfirst]
    simp only [Option.map_some, hrun, map_eq_pure_bind, bind_assoc, pure_bind]
    refine Does.bind h.keeps (Does.start _) fun run runs hruns => ?_
    rw [hruns]
    have hbroken (hfailed : ¬run.Passes check) (error : String) :
        Does host steady (return .broken (dir.join (.ofString name)).shown error) fun t more =>
          Earned metadata (directories path?) (probe name args) check t ([(probe name args, run)] ++ more) :=
      Does.pure (Earned.broken (i := probe name args) hfirst hfailed error)
    cases run with
    | notStarted e =>
      rw [Policy.outcome]
      split
      · contradiction
      · exact hbroken id _
      · exact hbroken id _
    | failed e =>
      rw [Policy.outcome]
      split
      · contradiction
      · exact hbroken id _
      · exact hbroken id _
    | finished number stdout stderr truncated exit =>
      have hpassed := hpasses ⟨name, args, number, stdout, stderr, exit, truncated⟩
      simp only [Policy.outcome]
      split
      · rename_i hcheck
        exact Does.pure (Earned.working (i := probe name args) hfirst (hpassed.1 hcheck))
      · rename_i hcheck
        exact hbroken (fun hpass => hcheck (hpassed.2 hpass)) _

theorem checkPs_does : Does host steady
    (checkTool "ps" ["-o", "pid=", "-p", toString pid] fun o =>
      o.succeeded && Text.trim o.stdoutText == (toString pid).toList)
    (Earned metadata (directories path?) (psProbe pid) (PrintsNumber pid)) :=
  checkTool_does h (by decide) (holdsZeroByte_probes pid (psProbe pid) (by simp))
    (by simp [printsNumber_iff, Output.succeeded, Text.decimal])

theorem checkPgrep_does : Does host steady (checkTool "pgrep" ["-P", toString pid] foundOrNot)
    (Earned metadata (directories path?) (pgrepProbe pid) FoundOrNot) :=
  checkTool_does h (by decide) (holdsZeroByte_probes pid (pgrepProbe pid) (by simp))
    (by simp [foundOrNot, FoundOrNot])

theorem checkLsof_does : Does host steady
    (checkTool "lsof" ["-a", "-p", toString pid, "-d", "cwd", "-Ffn"] fun o =>
      o.succeeded && (Text.lines o.stdoutText).contains "fcwd".toList)
    (Earned metadata (directories path?) (lsofProbe pid) ListsDirectory) :=
  checkTool_does h (by decide) (holdsZeroByte_probes pid (lsofProbe pid) (by simp))
    (by simp [ListsDirectory, Output.succeeded])

/-- By the parts of detection in order; the last probe is run if the one of its tool passed. -/
theorem detect_does : Does host steady detect fun c runs => ∃ ofPs ofPgrep ofLsof ofStates,
    runs = ofPs ++ (ofPgrep ++ (ofLsof ++ ofStates)) ∧
      EarnedBy metadata (directories path?) pid c ofPs ofPgrep ofLsof ofStates := by
  have hsilent {request : Request} (hrequest : ∀ answer, Exchange.start? ⟨request, answer⟩ = .none) :
      Does host steady (Inquiry.send request) fun _ runs => runs = [] ∧ True :=
    Does.send hrequest fun _ _ => trivial
  have hown : Does host steady Inquiry.ownPid fun me runs => runs = [] ∧ me = pid :=
    Does.send (fun _ => rfl) h.ownPid
  refine Does.bind_silent h.keeps (hsilent fun _ => rfl) fun platform _ => ?_
  refine Does.bind_silent h.keeps (hsilent fun _ => rfl) fun procfs _ => ?_
  refine Does.bind_silent h.keeps hown fun me hme => ?_
  subst hme
  refine Does.bind h.keeps (checkPs_does h) fun ps ofPs hps => ?_
  refine Does.bind h.keeps (checkPgrep_does h) fun pgrep ofPgrep hpgrep => ?_
  refine Does.bind h.keeps (checkLsof_does h) fun lsof ofLsof hlsof => ?_
  have hend (selects : Bool) (ofStates : List (Invocation × Run))
      (hstates : AskedIf pgrep.usable (statesProbe me) ofStates)
      (hselects : selects = true ↔ pgrep.usable = true ∧ ProbePassed (statesProbe me) FoundOrNot ofStates) :
      Does host steady (do return ⟨platform, procfs, false, ps, pgrep, lsof, selects, ← Inquiry.timestamp⟩)
        fun c more => ∃ ofPs' ofPgrep' ofLsof' ofStates',
          ofPs ++ (ofPgrep ++ (ofLsof ++ (ofStates ++ more))) = ofPs' ++ (ofPgrep' ++ (ofLsof' ++ ofStates')) ∧
            EarnedBy metadata (directories path?) me c ofPs' ofPgrep' ofLsof' ofStates' := by
    refine Does.bind_silent h.keeps (hsilent fun _ => rfl) fun time _ => Does.pure ?_
    exact ⟨ofPs, ofPgrep, ofLsof, ofStates, by simp, hps, hpgrep, hlsof, hstates, hselects⟩
  simp only
  split
  · rename_i husable
    simp only [run_statesProbe, map_eq_pure_bind, bind_assoc, pure_bind]
    refine Does.bind h.keeps (Does.start _) fun run runs hruns => ?_
    rw [hruns]
    have hasked : AskedIf pgrep.usable (statesProbe me) [(statesProbe me, run)] := husable ▸ askedIf_true _ run
    cases run with
    | notStarted e => exact hend false _ hasked (by simp [probePassed_singleton_iff, Run.Passes])
    | failed e => exact hend false _ hasked (by simp [probePassed_singleton_iff, Run.Passes])
    | finished number stdout stderr truncated exit =>
      refine hend (foundOrNot ⟨_, _, number, stdout, stderr, exit, truncated⟩) _ hasked ?_
      simp [probePassed_singleton_iff, Run.Passes, foundOrNot, FoundOrNot, husable]
  · rename_i husable
    rw [Bool.not_eq_true] at husable
    exact hend false [] (husable ▸ askedIf_false _) (by simp [husable])

end Detection

/-- Each diagnostic is told by the search path and by the run of its probe, and run only if the search path has it. A
strategy that depends on one is open just when its probe passed. -/
theorem detected_tools_earned {host : Host σ} {steady : σ → Prop} {path? : Option Bytes} {pid : Nat}
    (h : host.Offers steady path? metadata pid) {s : σ} (hs : steady s) :
    ∃ ofPs ofPgrep ofLsof ofStates,
      detect.started host s = ofPs ++ (ofPgrep ++ (ofLsof ++ ofStates)) ∧
      EarnedBy metadata (directories path?) pid (detect.run host s).1 ofPs ofPgrep ofLsof ofStates ∧
      (∀ start ∈ detect.started host s, ∃ dir ∈ directories path?, Holds metadata start.1.command dir) ∧
      ∀ i : Inspector, i.capabilities = (detect.run host s).1 →
        (i.subprocessGate .generic = .ok () ↔ ProbePassed (psProbe pid) (PrintsNumber pid) ofPs) ∧
        (i.subprocessGate .processGroup = .ok () ↔ ProbePassed (pgrepProbe pid) FoundOrNot ofPgrep) ∧
        (i.directoryGate .lsof = .ok () ↔ ProbePassed (lsofProbe pid) ListsDirectory ofLsof) := by
  obtain ⟨ofPs, ofPgrep, ofLsof, ofStates, hstarted, hearned⟩ := detect_does h s hs
  refine ⟨ofPs, ofPgrep, ofLsof, ofStates, hstarted, hearned, ?_, ?_⟩
  · intro start hstart
    rw [hstarted] at hstart
    exact hearned.held_of_mem hstart
  · intro i hi
    rw [← hi] at hearned
    refine ⟨?_, ?_, ?_⟩
    · exact Inspector.gate_eq_ok_iff.trans hearned.ps.usable_iff
    · exact Inspector.gate_eq_ok_iff.trans hearned.pgrep.usable_iff
    · exact Inspector.gate_eq_ok_iff.trans hearned.lsof.usable_iff

/-- On the search path `ps` is a directory, then a file that nobody may execute, then a diagnostic that prints the
number of the caller in blanks, and at last another file. -/
def crowded : Machine :=
  { Machine.empty (.ofString "/usr") ⟨"linux", .none, "x86_64"⟩ 7 "" ("", "") with
    files := ⟨[([.ofString "ps", .ofString "a"], .directory), ([.ofString "a"], .directory),
      ([.ofString "ps", .ofString "b"], .file [] false), ([.ofString "b"], .directory),
      ([.ofString "ps", .ofString "bin", .ofString "usr"], .tool), ([.ofString "bin", .ofString "usr"], .directory),
      ([.ofString "usr"], .directory), ([.ofString "ps", .ofString "c"], .file [] true),
      ([.ofString "c"], .directory)]⟩
    environment := [("PATH", .ofString "/a:/b:/usr/bin:/c")]
    responses := [(.ofString "ps",
      [⟨["-o", "pid=", "-p", "7"], [.bytes (.ofString "    7\n")], [], false, 0, .ofMillis 1⟩])] }

theorem detected_tools_earned_crowded :
    Machine.host.Offers crowded.Like (some (.ofString "/a:/b:/usr/bin:/c")) crowded.metadata 7 ∧
      (¬Holds crowded.metadata "ps" (.ofString "/a") ∧ ¬Holds crowded.metadata "ps" (.ofString "/b")) ∧
      (detect.run Machine.host crowded).1.ps = .working "/usr/bin/ps" ∧
      ∃ run, detect.started Machine.host crowded = [(psProbe 7, run)] ∧ run.Passes (PrintsNumber 7) := by
  have hoffers : Machine.host.Offers crowded.Like (some (.ofString "/a:/b:/usr/bin:/c")) crowded.metadata 7 :=
    crowded.offers
  obtain ⟨ofPs, ofPgrep, ofLsof, ofStates, hstarted, hearned, -, -⟩ :=
    detected_tools_earned hoffers (s := crowded) ⟨rfl, rfl, rfl⟩
  have hdirectory : crowded.entry ((Path.ofString "/a").join (.ofString "ps")) = .ok .directory := by cbv
  have hfile : crowded.entry ((Path.ofString "/b").join (.ofString "ps")) = .ok (.file [] false) := by cbv
  have htools : (detect.run Machine.host crowded).1.tools = [.working "/usr/bin/ps", .missing, .missing] := by cbv
  simp only [tools, List.cons.injEq, and_true] at htools
  obtain ⟨hps, hpgrep, hlsof⟩ := htools
  obtain ⟨run, hrun, hpasses⟩ := hearned.ps.usable_iff.1 (hps ▸ rfl)
  have hnone : ofPgrep = [] ∧ ofLsof = [] ∧ ofStates = [] :=
    ⟨hearned.pgrep.runs.not_asked (hpgrep ▸ rfl), hearned.lsof.runs.not_asked (hlsof ▸ rfl),
      hearned.states.not_asked (hpgrep ▸ rfl)⟩
  exact ⟨hoffers, ⟨by simp [holds_machine_iff, hdirectory], by simp [holds_machine_iff, hfile]⟩, hps, run,
    by simp [hstarted, hrun, hnone], hpasses⟩

end Capabilities

end ProcessProbe
