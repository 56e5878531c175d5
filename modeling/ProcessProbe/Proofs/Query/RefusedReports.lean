import ProcessProbe.Proofs.Query.WorkingDirectory
import ProcessProbe.Proofs.Report.DirectoryRecord

/-!
# Reports of the working directory that are refused

What `lsof` has printed is refused as a whole when a flaw is noticed in it, and then the query fails as one whose output
cannot be read. A flaw behind the name that is returned is not noticed, and neither is a record without a name that
another record follows.
-/

namespace ProcessProbe.WorkingDirectory

open Report.WorkingDirectory (FlawNoticed Flawed cwdLine)

/-- The run of `lsof` that the query for a working directory starts. -/
def reportRun (settings : Settings) (h : Handle) : Invocation :=
  ⟨"lsof", Diagnostic.directoryArgs h, settings.toolTimeout, settings.maxOutputBytes⟩

section

variable {σ : Type} {host : Host σ} {s s' : σ} {settings : Settings} {h : Handle} {pid : Nat} {stdout stderr : Bytes}
  {exit : Option Int}

theorem run_directoryReport
    (hrun : host.answer (.run (reportRun settings h)) s = (.finished pid stdout stderr false exit, s')) :
    (settings.policy.run "lsof" (Diagnostic.directoryArgs h) none).run host s =
      (.ok ⟨"lsof", Diagnostic.directoryArgs h, pid, stdout, stderr, exit, false⟩, s') := by
  rw [Diagnostic.run_policy settings (by decide) (Diagnostic.holdsZeroByte_directoryArgs h), Inquiry.run_map,
    Inquiry.run_start]
  rw [reportRun] at hrun
  rw [hrun]
  rfl

theorem viaReport_of_defect {defect : Defect}
    (hrun : (host.answer (.run (reportRun settings h)) s).1 = .finished pid stdout stderr false exit)
    (hdefect : Report.WorkingDirectory.ofText (Utf8.decodeLossy stdout) = .error defect) :
    ((viaReport settings.policy settings.procRoot h).outcome.run host s).1 = .error (defect.failure "lsof") := by
  rw [viaReport, Query.outcome_lift_bind, Inquiry.run_bind, run_directoryReport (Prod.ext hrun rfl)]
  simp only [Diagnostic.Output.stdoutText, hdefect]
  rfl

end

/-- A text is malformed just when a flaw is noticed in it, and then a complete run that printed it leaves the query for
the working directory with that failure of the output, however the run ended. -/
theorem refused_iff_flaw_noticed (text : List Char) :
    ((∃ n reason, Report.WorkingDirectory.ofText text = .error (.malformed n reason)) ↔
      FlawNoticed (Text.lines text)) ∧
    ∀ {σ : Type} (host : Host σ) (s : σ) (settings : Settings) (h : Handle) (pid : Nat) (stdout stderr : Bytes)
      (exit : Option Int), (host.answer (.run (reportRun settings h)) s).1 = .finished pid stdout stderr false exit →
        Utf8.decodeLossy stdout = text → FlawNoticed (Text.lines text) →
          ∃ n reason, ((viaReport settings.policy settings.procRoot h).outcome.run host s).1 =
            .error ((Defect.malformed n reason).failure "lsof") := by
  have hiff := Report.WorkingDirectory.malformed_iff text
  constructor
  · exact hiff
  · intro σ host s settings h pid stdout stderr exit hrun hprinted hflaw
    obtain ⟨n, reason, hdefect⟩ := hiff.2 hflaw
    exact ⟨n, reason, viaReport_of_defect hrun (hprinted ▸ hdefect)⟩

/-- The report ends before it gives a name. -/
def dangling : Known where
  link := .error .noSuchEntry
  probe := .ok ()
  stat := []
  exit := some 0
  lines := ["p5".toList, cwdLine]

theorem refused_iff_flaw_noticed_dangling : FlawNoticed dangling.lines ∧
    ∃ n reason, ((viaReport Settings.default.policy Settings.default.procRoot Inspector.nobody).outcome.run
      dangling.toHost ()).1 = .error ((Defect.malformed n reason).failure "lsof") := by
  have hflaw : FlawNoticed dangling.lines := by
    refine ⟨["p5".toList], cwdLine, [], rfl, .inr ⟨rfl, by decide⟩, ?_, ?_⟩
    · intro hcut
      obtain ⟨-, -, next, hnext, -⟩ := hcut
      contradiction
    · intro hanswered
      obtain ⟨earlier, name, later, hsplit, -⟩ := hanswered
      have hmem : 'n' :: name ∈ ["p5".toList] := hsplit ▸ by simp
      simp at hmem
  have hlines : Text.lines (Text.unlines dangling.lines) = dangling.lines := by decide
  exact ⟨hflaw, (refused_iff_flaw_noticed (Text.unlines dangling.lines)).2 dangling.toHost () Settings.default
    Inspector.nobody 9 _ [] _ rfl (Utf8.decodeLossy_encode _) (hlines.symm ▸ hflaw)⟩

/-- A record without a name, and then a program. -/
def cutOffText : List Char := "p5\nfcwd\nftxt\nn/bin/sh\n".toList

/-- A name, and then a line that is no field line. -/
def strayEndText : List Char := "p5\nfcwd\nn/tmp\n 123 garbage\n".toList

/-- Both texts have a flaw, and neither is malformed to the reader: one is read as a report without a directory, the
other one as one with a directory. -/
theorem flaws_unnoticed :
    (Flawed (Text.lines cutOffText) ∧ Report.WorkingDirectory.ofText cutOffText = .ok none) ∧
      Flawed (Text.lines strayEndText) ∧
        Report.WorkingDirectory.ofText strayEndText = .ok (some (.path "/tmp".toList)) := by
  refine ⟨⟨?_, by decide⟩, ?_, by decide⟩
  · exact ⟨["p5".toList], cwdLine, ["ftxt".toList, "n/bin/sh".toList], by decide, .inr ⟨rfl, by decide⟩⟩
  · exact ⟨["p5".toList, cwdLine, "n/tmp".toList], " 123 garbage".toList, [], by decide, .inl (by decide)⟩

end ProcessProbe.WorkingDirectory
