import ProcessProbe.Proofs.Process.Snapshot
import ProcessProbe.Proofs.Report.ChildList
import ProcessProbe.Proofs.Report.ProcessTable
import ProcessProbe.Settings

/-!
# Hosts that report a snapshot

What it means that the process file system, signals and the diagnostics all tell the truth about a snapshot, in
whatever order they name the processes. Main statement: every snapshot has such a host.
-/

namespace ProcessProbe.Snapshot

open Report (StatRecord TableRow)
open Text (decimal)

def Process.row (p : Process) : TableRow := ⟨p.handle.pid, p.ppid, some p.state⟩

/-- The children of a process, only the live ones if these are selected. -/
def children (snapshot : Snapshot) (selectLive : Bool) (pid : Nat) : List Process :=
  snapshot.processes.filter fun p => p.ppid == pid && (!selectLive || p.isLive)

def Probed (snapshot : Snapshot) (h : Handle) (answer : Except SystemError Unit) : Prop :=
  if h ∈ snapshot.processes.map (·.handle) then answer = .ok () ∨ answer = .error .operationNotPermitted
  else answer = .error .noSuchProcess

/-- A complete run of `ps`: a row on a line for each process, in any order, and perhaps one for `ps` itself. -/
inductive TableRun (snapshot : Snapshot) : Run → Prop where
  | intro (pid : Nat) (own : Option Process) (order : List Process) (ls : List (List Char)) (stderr : Bytes)
      (hpid : snapshot.Spares [pid]) (hown : ∀ p ∈ own, p.handle.pid = pid)
      (horder : order.Perm (own.toList ++ snapshot.processes))
      (hrows : List.Forall₂ TableRow.Written (order.map Process.row) ls) (hone : ∀ l ∈ ls, '\n' ∉ l) :
      TableRun snapshot (.finished pid (Utf8.encode (Text.unlines ls)) stderr false (some 0))

/-- A complete run of `pgrep`: the children in any order, or nothing with status 1. -/
inductive ChildrenRun (snapshot : Snapshot) (selectLive : Bool) (h : Handle) : Run → Prop where
  | found (pid : Nat) (order : List Process) (stderr : Bytes) (hne : order ≠ [])
      (horder : order.Perm (snapshot.children selectLive h.pid)) :
      ChildrenRun snapshot selectLive h
        (.finished pid (Utf8.encode (Report.ChildList.text (order.map (·.handle.pid)))) stderr false (some 0))
  | none (pid : Nat) (stderr : Bytes) (hnone : snapshot.children selectLive h.pid = []) :
      ChildrenRun snapshot selectLive h (.finished pid [] stderr false (some 1))

variable {σ : Type}

/-- A host that reports the snapshot by every means: its process file system, signals, `ps` and `pgrep`. -/
structure Reported (snapshot : Snapshot) (host : Host σ) (steady : σ → Prop) (settings : Settings) : Prop
    extends snapshot.InProcfs host steady settings.procRoot where
  probed : ∀ h s, steady s → snapshot.Probed h (host.answer (.probe h.toInt) s).1
  table : ∀ s, steady s → snapshot.TableRun
    (host.answer (.run ⟨"ps", Diagnostic.tableArgs, settings.toolTimeout, settings.maxOutputBytes⟩) s).1
  children : ∀ selectLive h s, steady s → snapshot.ChildrenRun selectLive h
    (host.answer (.run ⟨"pgrep", Diagnostic.childrenArgs selectLive h, settings.toolTimeout,
      settings.maxOutputBytes⟩) s).1
  text_name : ∀ p ∈ snapshot.processes, p.hasTextName = true

/-! ## The host of a snapshot -/

def Process.line (p : Process) : List Char :=
  decimal p.handle.pid ++ ' ' :: (decimal p.ppid ++ ' ' :: [p.state])

theorem Process.written_line (p : Process) : p.row.Written p.line := by
  have hdigits (n : Nat) : ∀ c ∈ decimal n, Text.isBlank c = false := fun c hc => Text.not_isBlank_of_mem_decimal hc
  have hend : Text.Spaced [] [] := .nil (by simp)
  have hstate : Text.Spaced [[p.state]] (' ' :: [p.state]) :=
    hend.cons_space (List.cons_ne_nil _ _) (by simpa using p.state_not_blank) (by simp)
  have hppid : Text.Spaced [decimal p.ppid, [p.state]] (' ' :: (decimal p.ppid ++ ' ' :: [p.state])) :=
    hstate.cons_space (Text.decimal_ne_nil _) (hdigits _) (by simp; decide)
  have hnone : ∀ c ∈ ([] : List Char), Text.isBlank c = true := by simp
  exact .stateful [p.state] (.cons hnone (Text.decimal_ne_nil _) (hdigits _) (by simp; decide) hppid) rfl

theorem Process.newline_not_mem_line (p : Process) : '\n' ∉ p.line := by
  have hstate : '\n' ≠ p.state := by
    intro h
    have hblank := p.state_not_blank
    rw [← h] at hblank
    contradiction
  simp [Process.line, Text.not_mem_decimal (c := '\n') (by decide), hstate]

def childrenRun (snapshot : Snapshot) (selectLive : Bool) (pid : Nat) : Run :=
  match snapshot.children selectLive pid with
  | [] => .finished 0 [] [] false (some 1)
  | order => .finished 0 (Utf8.encode (Report.ChildList.text (order.map (·.handle.pid)))) [] false (some 0)

/-- A run of a diagnostic. Zero is the number of each of them, since no process has it. -/
def diagnosticRun (snapshot : Snapshot) (command : String) (args : List String) : Run :=
  let pid := ((args.getLast?.map String.toList).bind Text.readU32?).getD 0
  if command = "ps" then
    .finished 0 (Utf8.encode (Text.unlines (snapshot.processes.map Process.line))) [] false (some 0)
  else if command = "pgrep" then snapshot.childrenRun (args.length == 4) pid
  else .notStarted .noSuchEntry

def reply (snapshot : Snapshot) (procRoot : Path) : (request : Request) → request.Answer
  | .probe pid => if snapshot.processes.any (·.handle.toInt == pid) then .ok () else .error .noSuchProcess
  | .readFile path =>
    match snapshot.processes.find? fun p => Liveness.entry procRoot p.handle.pid "stat" == path with
    | some p => .ok (p.statBytes [])
    | none => .error .noSuchEntry
  | .readLink _ => .error .noSuchEntry
  | .resolve _ => .error .noSuchEntry
  | .list _ => .ok (Bytes.ofString "self" :: snapshot.processes.map Process.directory)
  | .isPresent _ => true
  | .isDirectory _ => true
  | .metadata _ => .error .noSuchEntry
  | .run invocation => snapshot.diagnosticRun invocation.command invocation.args
  | .diagnosticsSince _ => []
  | .clock => (0 : Nat)
  | .record _ => ()
  | .environment _ => none
  | .ownPid => (1 : Nat)
  | .platform => ⟨"linux", none, "x86_64"⟩
  | .timestamp => ""
  | .identity => ("", "")

def host (snapshot : Snapshot) (procRoot : Path) : Host Unit := ⟨fun request s => (snapshot.reply procRoot request, s)⟩

theorem reply_readFile (snapshot : Snapshot) (procRoot : Path) (pid : Nat) :
    snapshot.reply procRoot (.readFile (Liveness.entry procRoot pid "stat")) =
      match snapshot.process? pid with
      | some p => .ok (p.statBytes [])
      | none => .error .noSuchEntry := by
  simp only [reply, Liveness.entry_stat_beq, process?]

theorem reply_probe (snapshot : Snapshot) (procRoot : Path) (h : Handle) :
    snapshot.reply procRoot (.probe h.toInt) =
      if h ∈ snapshot.processes.map (·.handle) then .ok () else .error .noSuchProcess := by
  have hany : snapshot.processes.any (·.handle.toInt == h.toInt) = true ↔ h ∈ snapshot.processes.map (·.handle) := by
    rw [List.any_eq_true, List.mem_map]
    refine exists_congr fun p => and_congr_right fun _ => ?_
    rw [beq_iff_eq, Handle.toInt, Handle.toInt, Int.natCast_inj]
    exact ⟨Handle.eq_of_pid_eq, congrArg Handle.pid⟩
  exact if_congr hany rfl rfl

theorem diagnosticRun_pgrep (snapshot : Snapshot) (selectLive : Bool) (h : Handle) :
    snapshot.diagnosticRun "pgrep" (Diagnostic.childrenArgs selectLive h) = snapshot.childrenRun selectLive h.pid := by
  have hpid : Text.readU32? h.message.toList = some h.pid := by
    rw [Handle.message, Text.toList_toString]
    exact Text.readU32?_decimal (h.pid_le.trans (by decide))
  cases selectLive <;> simp [diagnosticRun, Diagnostic.childrenArgs, hpid]

theorem inProcfs_host (snapshot : Snapshot) (procRoot : Path) :
    snapshot.InProcfs (snapshot.host procRoot) (fun _ => True) procRoot where
  keeps := fun _ _ _ => trivial
  listed := fun _ _ => ⟨_, rfl, fun p hp => List.mem_cons_of_mem _ (List.mem_map_of_mem hp)⟩
  stat := by
    intro p hp s _
    refine ⟨[], ⟨by simp, by simp⟩, (snapshot.reply_readFile procRoot p.handle.pid).trans ?_⟩
    rw [snapshot.process?_eq_some_iff.2 ⟨hp, rfl⟩]
  absent := by
    intro pid hpid s _
    refine ⟨.noSuchEntry, (snapshot.reply_readFile procRoot pid).trans ?_⟩
    cases hprocess : snapshot.process? pid with
    | none => rfl
    | some p =>
      obtain ⟨hp, heq⟩ := snapshot.process?_eq_some_iff.1 hprocess
      exact absurd heq (hpid p hp)
  spared := fun _ _ _ p _ => List.not_mem_nil

/-- Every snapshot in which names are texts is reported by some host. -/
theorem reported_host (snapshot : Snapshot) (settings : Settings)
    (htext : ∀ p ∈ snapshot.processes, p.hasTextName = true) :
    snapshot.Reported (snapshot.host settings.procRoot) (fun _ => True) settings where
  toInProcfs := snapshot.inProcfs_host settings.procRoot
  probed := by
    intro h s _
    have hanswer := snapshot.reply_probe settings.procRoot h
    by_cases hmem : h ∈ snapshot.processes.map (·.handle)
    · exact (if_pos hmem).mpr (.inl (hanswer.trans (if_pos hmem)))
    · exact (if_neg hmem).mpr (hanswer.trans (if_neg hmem))
  table := by
    intro s _
    have hrows : List.Forall₂ TableRow.Written (snapshot.processes.map Process.row)
        (snapshot.processes.map Process.line) := by
      rw [List.forall₂_map_left_iff, List.forall₂_map_right_iff]
      exact List.forall₂_same.2 fun p _ => p.written_line
    refine .intro 0 none snapshot.processes _ [] (fun p _ => ?_) (by simp) (.refl _) hrows fun l hl => ?_
    · simpa using p.handle.pid_pos.ne'
    · obtain ⟨p, -, rfl⟩ := List.mem_map.1 hl
      exact p.newline_not_mem_line
  children := by
    intro selectLive h s _
    have hrun : ((snapshot.host settings.procRoot).answer (.run ⟨"pgrep", Diagnostic.childrenArgs selectLive h,
        settings.toolTimeout, settings.maxOutputBytes⟩) s).1 = snapshot.childrenRun selectLive h.pid :=
      snapshot.diagnosticRun_pgrep selectLive h
    rw [hrun, childrenRun]
    split
    · exact .none 0 [] ‹_›
    · exact .found 0 _ [] ‹_› (.refl _)
  text_name := htext

def elder : Handle := ⟨1, by decide, by decide⟩

def parent : Handle := ⟨5, by decide, by decide⟩

def child : Handle := ⟨6, by decide, by decide⟩

def Process.init : Process := ⟨elder, 0, 'S', Bytes.ofString "init", by decide, by decide, by decide⟩

/-- A sleeping child of another process. -/
def Process.childOf (parent handle : Handle) (name : Bytes) (h : parent.pid ≠ handle.pid) : Process :=
  ⟨handle, parent.pid, 'S', name, parent.pid_le, h, by decide⟩

/-- A process, a child of it, and a child of that which is a zombie. -/
def family : Snapshot where
  processes :=
    [.init, .childOf elder parent (Bytes.ofString "a) b") (by decide),
      ⟨child, 5, 'Z', Bytes.ofString "sh", by decide, by decide, by decide⟩]
  nonempty := by decide
  distinct := by decide

def familyHost : Host Unit := family.host Settings.defaultProcRoot

theorem family_reported : family.Reported familyHost (fun _ => True) .default :=
  family.reported_host .default (by simp [family, Process.init, Process.childOf, Process.hasTextName, Bytes.ofString])

end ProcessProbe.Snapshot
