import ProcessProbe.Proofs.Diagnostic.Policy
import ProcessProbe.Proofs.Query.Failures
import ProcessProbe.Proofs.Query.Names
import ProcessProbe.Proofs.Report.WorkingDirectory

/-!
# Agreement on the working directory

A working directory is read from the link in the process file system or from the report of `lsof`. What either of them
shows of a process is one of four sights, and from the same sight both come to the same answer, whatever the file
system makes of the path.
-/

namespace ProcessProbe

variable {α σ : Type} {host : Host σ} {steady : σ → Prop}

/-- An outcome without the texts of its failure: what remains is the kind, and the process that it names. -/
def Query.told : Except Failure α → Except (Failure.Kind × Option Nat) α
  | .ok answer => .ok answer
  | .error failure => .error (failure.kind, failure.pid?)

open Query (told givesWay)

theorem Query.eq_ok_of_told {outcome : Except Failure α} {answer : α} (h : told outcome = .ok answer) :
    outcome = .ok answer := by
  cases outcome with
  | ok answer' => exact congrArg Except.ok (Except.ok.inj h)
  | error failure => contradiction

theorem Query.givesWay_eq_of_told_eq {a b : Except Failure α} (h : told a = told b) : givesWay a = givesWay b := by
  cases a with
  | ok answer =>
    cases b with
    | ok answer' => rfl
    | error failure => contradiction
  | error failure =>
    cases b with
    | ok answer => contradiction
    | error failure' =>
      have hkind : failure.kind = failure'.kind := congrArg Prod.fst (Except.error.inj h)
      simp [givesWay, Failure.mayFallBack, hkind]

namespace WorkingDirectory

open Report.WorkingDirectory (IsField FirstName cwdLine isDenied ofName)

/-- What a file system makes of paths, as long as it does not change. -/
structure Files where
  resolved : Path → Except SystemError Path
  present : Path → Bool

/-- The answer to a raw path and its text: none for a removed directory and for a relative path, else the canonical
form of the path. Where the path may not be followed, that is its normal form. -/
def Files.answer (files : Files) (h : Handle) (raw : Path) (text : List Char) :
    Except (Failure.Kind × Option Nat) Path :=
  if deletedMark.isSuffixOf text ∧ files.present ⟨Utf8.encode text⟩ = false then .error (.unavailable, some h.pid)
  else if raw.isAbsolute = false then .error (.parseError, none)
  else
    match files.resolved raw with
    | .ok canonical => .ok canonical
    | .error e =>
      if e.isNotFound then .error (.unavailable, some h.pid)
      else if e.isDenied then .ok raw.lexicallyNormal
      else .error (.backendUnavailable, none)

/-- What the caller can see of a process: its directory, only that it is there, or no more of it than of a zombie. -/
inductive Sight where
  | named (raw : List Char)
  | hidden
  | zombie
  | absent

namespace Sight

def answer (files : Files) (h : Handle) : Sight → Except (Failure.Kind × Option Nat) Path
  | named raw => files.answer h ⟨Utf8.encode raw⟩ raw
  | hidden => .error (.permissionDenied, some h.pid)
  | zombie | absent => .error (.notFound, some h.pid)

def Linked : Sight → Except SystemError Path → Prop
  | named raw, link => link = .ok ⟨Utf8.encode raw⟩
  | hidden, link => link = .error .accessDenied ∨ link = .error .operationNotPermitted
  | zombie, link | absent, link => link = .error .noSuchEntry

/-- What the field lines of `lsof` say, and the status it exits with if that matters. -/
def Listed : Sight → Option Int → List (List Char) → Prop
  | named raw, _, lines => raw ≠ [] ∧ isDenied raw = false ∧ FirstName lines raw
  | hidden, _, lines => ∃ detail, isDenied detail = true ∧ FirstName lines detail
  | zombie, exit, lines | absent, exit, lines => exit = some 1 ∧ cwdLine ∉ lines

inductive Reported (sight : Sight) : Run → Prop where
  | intro (pid : Nat) (stdout stderr : Bytes) (exit : Option Int)
      (hfield : ∀ line ∈ Text.lines (Utf8.decodeLossy stdout), IsField line)
      (hlisted : sight.Listed exit (Text.lines (Utf8.decodeLossy stdout))) :
      Reported sight (.finished pid stdout stderr false exit)

theorem Reported.absent_of_zombie {run : Run} (h : Reported .zombie run) : Reported .absent run := by
  obtain ⟨pid, stdout, stderr, exit, hfield, hlisted⟩ := h
  exact .intro pid stdout stderr exit hfield hlisted

def Probed : Sight → Except SystemError Unit → Prop
  | named _, _ | hidden, _ => True
  | zombie, answer => answer = .ok ()
  | absent, answer => answer = .error .noSuchProcess

/-- What reading the stat record gives: that of a zombie is a text, and has the state of one. -/
def Recorded : Sight → Except SystemError Bytes → Prop
  | zombie, content => ∃ text record, Report.StatRecord.ofText text = .ok record ∧ record.state = ProcessProbe.zombie ∧
      Liveness.textIn content = .ok text
  | named _, _ | hidden, _ | absent, _ => True

structure InLink (sight : Sight) (host : Host σ) (steady : σ → Prop) (procRoot : Path) (h : Handle) : Prop where
  mounted : ∀ s, steady s → (host.answer (.isDirectory procRoot) s).1 = true
  linked : ∀ s, steady s → sight.Linked (host.answer (.readLink (Liveness.entry procRoot h.pid "cwd")) s).1

/-- The report of `lsof` shows the sight, and so do a signal and the stat record where that report says nothing. -/
structure InReport (sight : Sight) (host : Host σ) (steady : σ → Prop) (settings : Settings) (h : Handle) : Prop where
  reported : ∀ s, steady s → sight.Reported
    (host.answer (.run ⟨"lsof", Diagnostic.directoryArgs h, settings.toolTimeout, settings.maxOutputBytes⟩) s).1
  probed : ∀ s, steady s → sight.Probed (host.answer (.probe h.toInt) s).1
  recorded : ∀ s, steady s →
    sight.Recorded (host.answer (.readFile (Liveness.entry settings.procRoot h.pid "stat")) s).1

end Sight

structure Files.On (files : Files) (host : Host σ) (steady : σ → Prop) : Prop where
  keeps : host.Keeps steady
  resolved : ∀ path s, steady s → (host.answer (.resolve path) s).1 = files.resolved path
  present : ∀ path s, steady s → (host.answer (.isPresent path) s).1 = files.present path

namespace Files.On

open Sight (Reported)

variable {sight : Sight} {files : Files} {settings : Settings} {h : Handle} (hfiles : files.On host steady)

include hfiles

theorem canonical_comesTo (raw : Path) (text : List Char) (backend : String)
    (hraw : ¬(deletedMark.isSuffixOf text ∧ files.present ⟨Utf8.encode text⟩ = false)) :
    Query.ComesTo host steady (canonical h raw backend) (told · = files.answer h raw text) := by
  simp only [Files.answer, if_neg hraw]
  cases habsolute : raw.isAbsolute with
  | false =>
    simp only [canonical, habsolute]
    exact Query.ComesTo.throw_bind rfl
  | true =>
    simp only [canonical, habsolute]
    refine Query.ComesTo.bind_lift hfiles.keeps (P := (· = files.resolved raw)) (hfiles.resolved raw)
      fun answer hanswer => ?_
    rw [← hanswer]
    cases answer with
    | ok path => exact Query.ComesTo.pure rfl
    | error e =>
      simp only
      split
      · exact Query.ComesTo.throw rfl
      · split
        · exact Query.ComesTo.pure rfl
        · exact Query.ComesTo.throw rfl

theorem settle_comesTo (raw : Path) (text : List Char) (backend : String) :
    Query.ComesTo host steady (settle h raw text backend) (told · = files.answer h raw text) := by
  have htarget : Inquiry.ComesTo host steady (deletedTarget? text) fun gone =>
      gone.isSome = true ↔ deletedMark.isSuffixOf text ∧ files.present ⟨Utf8.encode text⟩ = false := by
    rw [deletedTarget?]
    by_cases hmark : deletedMark.isSuffixOf text = true
    · rw [if_pos hmark]
      refine Inquiry.ComesTo.bind hfiles.keeps (P := (· = files.present _)) (hfiles.present _)
        fun present hpresent => ?_
      cases present with
      | true => exact Inquiry.ComesTo.pure (by simp [← hpresent])
      | false => exact Inquiry.ComesTo.pure (iff_of_true rfl ⟨hmark, hpresent.symm⟩)
    · rw [if_neg hmark]
      exact Inquiry.ComesTo.pure (iff_of_false Bool.false_ne_true fun hboth => hmark hboth.1)
  refine Query.ComesTo.bind_lift hfiles.keeps htarget fun gone hgone => ?_
  cases gone with
  | some target =>
    refine Query.ComesTo.throw ?_
    simp only [Files.answer]
    rw [if_pos (hgone.1 rfl)]
    rfl
  | none => exact hfiles.canonical_comesTo raw text backend fun hraw => absurd (hgone.2 hraw) Bool.false_ne_true

theorem viaLink_comesTo_of_linked {procRoot : Path} {P : Except SystemError Path → Prop}
    (hmounted : ∀ s, steady s → (host.answer (.isDirectory procRoot) s).1 = true)
    (hlinked : ∀ s, steady s → P (host.answer (.readLink (Liveness.entry procRoot h.pid "cwd")) s).1) :
    Query.ComesTo host steady (viaLink procRoot h) fun outcome => ∃ link, P link ∧
      match link with
      | .ok target => told outcome = files.answer h target (Utf8.decodeLossy target.bytes)
      | .error e => outcome = .error (linkFailure h e) := by
  refine Query.ComesTo.bind_lift hfiles.keeps (P := (· = true)) hmounted fun mounted hmounted => ?_
  subst hmounted
  refine Query.ComesTo.bind_lift hfiles.keeps (Inquiry.ComesTo.send hlinked) fun link hlink => ?_
  cases link with
  | ok target => exact (hfiles.settle_comesTo target _ "procfs").mono fun outcome htold => ⟨_, hlink, htold⟩
  | error e => exact Query.ComesTo.throw ⟨_, hlink, rfl⟩

theorem viaLink_comesTo {procRoot : Path} (hlink : sight.InLink host steady procRoot h) :
    Query.ComesTo host steady (viaLink procRoot h) (told · = sight.answer files h) := by
  refine (hfiles.viaLink_comesTo_of_linked hlink.mounted hlink.linked).mono fun outcome houtcome => ?_
  obtain ⟨link, hlinked, houtcome⟩ := houtcome
  cases sight with
  | named raw =>
    obtain rfl : link = .ok ⟨Utf8.encode raw⟩ := hlinked
    simp only [Utf8.decodeLossy_encode] at houtcome
    exact houtcome
  | hidden =>
    rcases hlinked with rfl | rfl
    · exact congrArg told houtcome
    · exact congrArg told houtcome
  | zombie =>
    obtain rfl : link = .error .noSuchEntry := hlinked
    exact congrArg told houtcome
  | absent =>
    obtain rfl : link = .error .noSuchEntry := hlinked
    exact congrArg told houtcome

omit hfiles in
private theorem run_comesTo {P : Run → Prop} (hrun : ∀ s, steady s → P
    (host.answer (.run ⟨"lsof", Diagnostic.directoryArgs h, settings.toolTimeout, settings.maxOutputBytes⟩) s).1) :
    Inquiry.ComesTo host steady (settings.policy.run "lsof" (Diagnostic.directoryArgs h) none) fun result =>
      ∃ run, P run ∧ result = Diagnostic.Policy.outcome "lsof" (Diagnostic.directoryArgs h) run :=
  Diagnostic.run_policy_comesTo (by decide) (Diagnostic.holdsZeroByte_directoryArgs h)
    fun s hs => ⟨_, hrun s hs, rfl⟩

/-- A complete run of `lsof` whose field lines have no descriptor leaves it to the liveness of the process what the
answer is: a live one hides its directory. -/
theorem viaReport_comesTo_of_unlisted {live : Except Failure Unit}
    (hrun : ∀ s, steady s → Reported .absent
      (host.answer (.run ⟨"lsof", Diagnostic.directoryArgs h, settings.toolTimeout, settings.maxOutputBytes⟩) s).1)
    (hlive : Query.ComesTo host steady (Liveness.ensureLive settings.policy settings.procRoot h) (· = live)) :
    Query.ComesTo host steady (viaReport settings.policy settings.procRoot h)
      (· = live >>= fun _ => .error (.permissionDenied h.pid "lsof reported no cwd for a live process")) := by
  refine Query.ComesTo.bind_lift hfiles.keeps (run_comesTo hrun) fun result hresult => ?_
  obtain ⟨_, ⟨pid, stdout, stderr, exit, hfield, rfl, hcwd⟩, rfl⟩ := hresult
  have hnone : Report.WorkingDirectory.ofText (Utf8.decodeLossy stdout) = .ok none :=
    Report.WorkingDirectory.ofLines_of_no_cwdLine hfield hcwd
  simp only [Diagnostic.Policy.outcome, Diagnostic.Output.stdoutText, hnone]
  refine Query.ComesTo.bind hfiles.keeps hlive (fun value hvalue => ?_) fun failure hfailure => ?_
  · rw [← hvalue]
    exact Query.ComesTo.throw rfl
  · rw [← hfailure]
    rfl

theorem viaReport_comesTo (hreport : sight.InReport host steady settings h) :
    Query.ComesTo host steady (viaReport settings.policy settings.procRoot h) (told · = sight.answer files h) := by
  have hdecoded {stdout : Bytes} {name : List Char} (hne : name ≠ [])
      (hfield : ∀ line ∈ Text.lines (Utf8.decodeLossy stdout), IsField line)
      (hname : FirstName (Text.lines (Utf8.decodeLossy stdout)) name) :
      Report.WorkingDirectory.ofText (Utf8.decodeLossy stdout) = .ok (some (ofName name)) :=
    Report.WorkingDirectory.ofLines_of_firstName hne hfield hname
  have hgone {live : Except Failure Unit} (hlive : live = .error (.notFound h.pid)) (outcome : Except Failure Path)
      (houtcome : outcome = live >>= fun _ =>
        .error (.permissionDenied h.pid "lsof reported no cwd for a live process")) :
      told outcome = .error (.notFound, some h.pid) := by
    rw [houtcome, hlive]
    rfl
  cases sight with
  | named raw =>
    refine Query.ComesTo.bind_lift hfiles.keeps (run_comesTo hreport.reported) fun result hresult => ?_
    obtain ⟨_, ⟨pid, stdout, stderr, exit, hfield, hne, hdenied, hname⟩, rfl⟩ := hresult
    have hpath : ofName raw = .path raw := by simp [ofName, hdenied]
    simp only [Diagnostic.Policy.outcome, Diagnostic.Output.stdoutText, hdecoded hne hfield hname, hpath]
    exact hfiles.settle_comesTo _ raw "lsof"
  | hidden =>
    refine Query.ComesTo.bind_lift hfiles.keeps (run_comesTo hreport.reported) fun result hresult => ?_
    obtain ⟨_, ⟨pid, stdout, stderr, exit, hfield, detail, hdenied, hname⟩, rfl⟩ := hresult
    have hne : detail ≠ [] := by
      rintro rfl
      exact absurd hdenied (by decide)
    have hhidden : ofName detail = .denied detail := by simp [ofName, hdenied]
    simp only [Diagnostic.Policy.outcome, Diagnostic.Output.stdoutText, hdecoded hne hfield hname, hhidden]
    exact Query.ComesTo.throw rfl
  -- No descriptor is listed for either of them, so that the signal and the stat record decide.
  | zombie =>
    have hlive := Liveness.ensureLive_comesTo_of_zombie hfiles.keeps settings.policy hreport.probed hreport.recorded
    have hrun := fun s hs => (hreport.reported s hs).absent_of_zombie
    exact (hfiles.viaReport_comesTo_of_unlisted hrun hlive).mono (hgone rfl)
  | absent =>
    have hlive : Query.ComesTo host steady (Liveness.ensureLive settings.policy settings.procRoot h)
        (· = .error (.notFound h.pid)) :=
      Liveness.ensureLive_comesTo_of_absent hfiles.keeps settings.policy hreport.probed
    exact (hfiles.viaReport_comesTo_of_unlisted hreport.reported hlive).mono (hgone rfl)

end Files.On

end WorkingDirectory

open WorkingDirectory (Sight Files)

namespace Inspector

/-- From one sight of a process, the link and the report lead to the same answer. Unless it gives way to another
strategy, it is what the inspector finds as soon as one of the two backends is usable. -/
theorem link_and_report_agree (i : Inspector) {h : Handle} {sight : Sight} {files : Files}
    (hfiles : files.On host steady) (hlink : sight.InLink host steady i.settings.procRoot h)
    (hreport : sight.InReport host steady i.settings h) {s : σ} (hs : steady s) :
    told ((i.workingDirectoryVia .procfs h).outcome.run host s).1 = sight.answer files h ∧
      told ((i.workingDirectoryVia .lsof h).outcome.run host s).1 = sight.answer files h ∧
      (i.directoryGate .procfs = .ok () ∨ i.directoryGate .lsof = .ok () →
        givesWay ((i.workingDirectoryVia .procfs h).outcome.run host s).1 = false →
          told ((i.workingDirectory h).outcome.run host s).1 = sight.answer files h) := by
  have hvia := hfiles.viaLink_comesTo hlink
  have hviaReport := hfiles.viaReport_comesTo hreport
  have hprocfs : told ((i.workingDirectoryVia .procfs h).outcome.run host s).1 = sight.answer files h :=
    Query.ComesTo.within hfiles.keeps _ hvia s hs
  refine ⟨hprocfs, Query.ComesTo.within hfiles.keeps _ hviaReport s hs, fun hopen hfinal => ?_⟩
  refine Query.ComesTo.within hfiles.keeps _ (Query.tryOrder_comesTo_of_agreed hfiles.keeps
    (P := (told · = sight.answer files h)) ?_ ?_ ?_) s hs
  · intro outcome houtcome
    rw [← hfinal]
    exact Query.givesWay_eq_of_told_eq (houtcome.trans hprocfs.symm)
  · intro x hx
    cases x with
    | generic => exact absurd hx (by decide)
    | lsof => exact hviaReport
    | procfs => exact hvia
  · rcases hopen with hopen | hopen
    · exact ⟨.procfs, by decide, hopen⟩
    · exact ⟨.lsof, by decide, hopen⟩

end Inspector

namespace WorkingDirectory

open Report.WorkingDirectory (IsField FirstName cwdLine isDenied)

/-! ## Hosts with one process -/

structure Known where
  link : Except SystemError Path
  probe : Except SystemError Unit
  stat : Bytes
  exit : Option Int
  lines : List (List Char)

/-- All other entries are where they are looked for, and `lsof` is the only diagnostic there is. -/
def Known.reply (known : Known) : (request : Request) → request.Answer
  | .probe _ => known.probe
  | .readFile _ => .ok known.stat
  | .readLink _ => known.link
  | .resolve path => .ok path
  | .isPresent _ => true
  | .run invocation =>
    if invocation.command = "lsof" then
      .finished 9 (Utf8.encode (Text.unlines known.lines)) [] false known.exit
    else .notStarted .noSuchEntry
  | request => Inspector.emptyReply request

def Known.toHost (known : Known) : Host Unit := ⟨fun request s => (known.reply request, s)⟩

def inPlace : Files := ⟨.ok, fun _ => true⟩

theorem Known.files_on (known : Known) : inPlace.On known.toHost fun _ => True where
  keeps := fun _ _ _ => trivial
  resolved := fun _ _ _ => rfl
  present := fun _ _ _ => rfl

theorem Known.inLink {known : Known} {sight : Sight} (hlink : sight.Linked known.link) (procRoot : Path) (h : Handle) :
    sight.InLink known.toHost (fun _ => True) procRoot h where
  mounted := fun _ _ => rfl
  linked := fun _ _ => hlink

theorem Known.reported {known : Known} {sight : Sight} (hone : ∀ line ∈ known.lines, '\n' ∉ line ∧ '\r' ∉ line)
    (hfield : ∀ line ∈ known.lines, IsField line) (hlisted : sight.Listed known.exit known.lines) :
    sight.Reported (.finished 9 (Utf8.encode (Text.unlines known.lines)) [] false known.exit) := by
  have hlines : Text.lines (Utf8.decodeLossy (Utf8.encode (Text.unlines known.lines))) = known.lines := by
    rw [Utf8.decodeLossy_encode, Text.lines_unlines fun line hline => (hone line hline).1]
    rw [List.map_congr_left fun line hline => Text.dropFinalReturn_eq_self (hone line hline).2, List.map_id']
  refine .intro 9 _ [] known.exit ?_ ?_
  · rw [hlines]
    exact hfield
  · rw [hlines]
    exact hlisted

theorem Known.inReport_of_named {known : Known} {raw : List Char}
    (hone : ∀ line ∈ known.lines, '\n' ∉ line ∧ '\r' ∉ line) (hfield : ∀ line ∈ known.lines, IsField line)
    (hlisted : raw ≠ [] ∧ isDenied raw = false ∧ FirstName known.lines raw) (settings : Settings) (h : Handle) :
    (Sight.named raw).InReport known.toHost (fun _ => True) settings h where
  reported := fun _ _ => Known.reported hone hfield hlisted
  probed := fun _ _ => trivial
  recorded := fun _ _ => trivial

/-- A directory that is named like a removed one. -/
def marked : Known where
  link := .ok ⟨Utf8.encode "/srv (deleted)".toList⟩
  probe := .ok ()
  stat := []
  exit := some 1
  lines := ["p5".toList, cwdLine, "n/srv (deleted)".toList]

/-- The directory is found under its name, and there is no other one to find. -/
theorem link_and_report_agree_marked :
    inPlace.On marked.toHost (fun _ => True) ∧
      (Sight.named "/srv (deleted)".toList).InLink marked.toHost (fun _ => True) Settings.defaultProcRoot
        Inspector.nobody ∧
      (Sight.named "/srv (deleted)".toList).InReport marked.toHost (fun _ => True) .default Inspector.nobody ∧
      told ((Inspector.equipped.workingDirectoryVia .procfs Inspector.nobody).outcome.run marked.toHost ()).1 =
        .ok ⟨Utf8.encode "/srv (deleted)".toList⟩ ∧
      told ((Inspector.equipped.workingDirectoryVia .lsof Inspector.nobody).outcome.run marked.toHost ()).1 =
        .ok ⟨Utf8.encode "/srv (deleted)".toList⟩ ∧
      told ((Inspector.equipped.workingDirectory Inspector.nobody).outcome.run marked.toHost ()).1 =
        .ok ⟨Utf8.encode "/srv (deleted)".toList⟩ := by
  have hname : FirstName marked.lines "/srv (deleted)".toList :=
    Report.WorkingDirectory.firstName_of_process rfl _ []
  have hlinked : (Sight.named "/srv (deleted)".toList).Linked marked.link := rfl
  have hlink := Known.inLink hlinked Settings.defaultProcRoot Inspector.nobody
  have hreport := Known.inReport_of_named (by decide) (by decide) ⟨by decide, by decide, hname⟩ .default
    Inspector.nobody
  obtain ⟨hprocfs, hlsof, hordered⟩ :=
    Inspector.link_and_report_agree Inspector.equipped marked.files_on hlink hreport (s := ()) trivial
  have hanswer : (Sight.named "/srv (deleted)".toList).answer inPlace Inspector.nobody =
      .ok ⟨Utf8.encode "/srv (deleted)".toList⟩ := rfl
  rw [hanswer] at hprocfs hlsof hordered
  refine ⟨marked.files_on, hlink, hreport, hprocfs, hlsof, hordered (.inl rfl) ?_⟩
  rw [Query.givesWay_eq_of_told_eq (b := .ok _) hprocfs]
  rfl

/-- The report has two descriptors `cwd`, and the link leads to the directory of the second one. -/
def doubled : Known where
  link := .ok ⟨Utf8.encode "/".toList⟩
  probe := .ok ()
  stat := []
  exit := some 0
  lines := ["p5".toList, cwdLine, "n/srv".toList, cwdLine, "n/".toList]

/-- A zombie with a name that is no text. -/
def namelessZombie : Snapshot.Process := { Snapshot.nameless with state := zombie, state_isAlpha := by decide }

def unreadable : Known where
  link := .error .noSuchEntry
  probe := .ok ()
  stat := namelessZombie.statBytes []
  exit := some 1
  lines := []

private theorem textIn_namelessZombie : Liveness.textIn (.ok (namelessZombie.statBytes [])) = .error .notText := by
  have hname : Utf8.decode? namelessZombie.name = none := Option.not_isSome_iff_eq_none.1 (by
    rw [Bool.not_eq_true]
    exact Snapshot.hasTextName_nameless)
  rw [Liveness.textIn, Snapshot.Process.decode?_statBytes, hname]
  rfl

/-- The first descriptor of the report decides, so another one may well be the directory of the link. And a zombie whose
record is no text counts as live where there is no `ps`, so that its directory is hidden and not missing. -/
theorem link_and_report_differ :
    ((Sight.named "/".toList).Linked doubled.link ∧ (∀ line ∈ doubled.lines, IsField line) ∧
      doubled.lines = ["p5".toList, cwdLine, "n/srv".toList] ++ [cwdLine, 'n' :: "/".toList] ∧
      told ((Inspector.equipped.workingDirectoryVia .procfs Inspector.nobody).outcome.run doubled.toHost ()).1 =
        .ok ⟨Utf8.encode "/".toList⟩ ∧
      told ((Inspector.equipped.workingDirectoryVia .lsof Inspector.nobody).outcome.run doubled.toHost ()).1 =
        .ok ⟨Utf8.encode "/srv".toList⟩) ∧
    (Sight.zombie.Linked unreadable.link ∧ Sight.zombie.Listed unreadable.exit unreadable.lines ∧
        Sight.zombie.Probed unreadable.probe) ∧
      unreadable.stat = namelessZombie.statBytes [] ∧ namelessZombie.state = zombie ∧
      told ((Inspector.equipped.workingDirectoryVia .procfs namelessZombie.handle).outcome.run
        unreadable.toHost ()).1 = .error (.notFound, some 5000001) ∧
      told ((Inspector.equipped.workingDirectoryVia .lsof namelessZombie.handle).outcome.run unreadable.toHost ()).1 =
        .error (.permissionDenied, some 5000001) := by
  have hkeeps (known : Known) : known.toHost.Keeps fun _ => True := known.files_on.keeps
  have hfield : ∀ line ∈ doubled.lines, IsField line := by decide
  have hdoubled : (Sight.named "/".toList).Linked doubled.link := rfl
  have hunlinked : Sight.zombie.Linked unreadable.link := rfl
  have hunlisted : Sight.zombie.Listed unreadable.exit unreadable.lines := ⟨rfl, by decide⟩
  refine ⟨⟨hdoubled, hfield, rfl, ?_, ?_⟩, ⟨hunlinked, hunlisted, rfl⟩, rfl, rfl, ?_, ?_⟩
  · have hlink := Known.inLink hdoubled Settings.defaultProcRoot Inspector.nobody
    exact Query.ComesTo.within (hkeeps doubled) _ (doubled.files_on.viaLink_comesTo hlink) () trivial
  · have hname : FirstName doubled.lines "/srv".toList :=
      Report.WorkingDirectory.firstName_of_process rfl _ [cwdLine, "n/".toList]
    have hreport := Known.inReport_of_named (by decide) hfield ⟨by decide, by decide, hname⟩ .default
      Inspector.nobody
    exact Query.ComesTo.within (hkeeps doubled) _ (doubled.files_on.viaReport_comesTo hreport) () trivial
  · have hlink := Known.inLink hunlinked Settings.defaultProcRoot namelessZombie.handle
    exact Query.ComesTo.within (hkeeps unreadable) _ (unreadable.files_on.viaLink_comesTo hlink) () trivial
  · have hps : Inquiry.ComesTo unreadable.toHost (fun _ => True) (Inspector.equipped.settings.policy.run "ps"
        (Diagnostic.stateArgs namelessZombie.handle) none) fun result => ∃ e, result = .error e :=
      Diagnostic.run_policy_comesTo (by decide) (Diagnostic.holdsZeroByte_stateArgs _)
        fun _ _ => ⟨_, rfl⟩
    have hlive : Query.ComesTo unreadable.toHost (fun _ => True) (Liveness.ensureLive
        Inspector.equipped.settings.policy Settings.defaultProcRoot namelessZombie.handle) (· = .ok ()) :=
      Liveness.ensureLive_comesTo_of_undecided (hkeeps unreadable) _ (fun _ _ => rfl)
        (fun _ _ => textIn_namelessZombie) hps
    have hreport := unreadable.files_on.viaReport_comesTo_of_unlisted
      (fun _ _ => (Known.reported (by decide) (by decide) hunlisted).absent_of_zombie) hlive
    exact congrArg told (Query.ComesTo.within (hkeeps unreadable) _ hreport () trivial)

end WorkingDirectory

end ProcessProbe
