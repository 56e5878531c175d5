import ProcessProbe.Proofs.Query.RefusedReports

/-!
# Raw answers

The link and the report each give a raw path, and what is made of it is the same for both. It is first looked at for the
mark of a removed directory, by the text that is shown for it. Main statement: so a raw path that is not absolute is
refused as such just when it has no mark or the caller, from where it works, sees an entry of the name that is shown;
otherwise the directory is said to be removed.
-/

namespace ProcessProbe

/-- The path that is spelled as `p` is shown: each invalid part of `p` has become a replacement character. -/
def Path.asShown (p : Path) : Path := .ofString p.shown

theorem Path.asShown_eq (p : Path) : p.asShown = ⟨Utf8.encode (Utf8.decodeLossy p.bytes)⟩ := by
  rw [asShown, ofString, shown, Bytes.shown, Bytes.ofString, String.toList_ofList]

theorem Path.asShown_of_text {p : Path} {text : List Char} (h : p.bytes = Utf8.encode text) : p.asShown = p := by
  rw [asShown_eq, h, Utf8.decodeLossy_encode, ← h]

namespace WorkingDirectory

open Query (givesWay)

variable {σ : Type} {host : Host σ} {settings : Settings} {h : Handle} {s s' : σ} {x : Strategy} {raw : Path}
  {backend : String}

/-- A strategy reads a raw path: it is where the link leads, or the name in a complete report. -/
inductive RawAnswer (host : Host σ) (settings : Settings) (h : Handle) (s : σ) : Strategy → Path → σ → Prop where
  | link {target : Path} {s₁ s₂ : σ} (hmounted : host.answer (.isDirectory settings.procRoot) s = (true, s₁))
      (hlinked : host.answer (.readLink (Liveness.entry settings.procRoot h.pid "cwd")) s₁ = (.ok target, s₂)) :
      RawAnswer host settings h s .procfs target s₂
  | report {name : List Char} {pid : Nat} {stdout stderr : Bytes} {exit : Option Int} {s₁ : σ}
      (hrun : host.answer (.run (reportRun settings h)) s = (.finished pid stdout stderr false exit, s₁))
      (hname : Report.WorkingDirectory.ofText (Utf8.decodeLossy stdout) = .ok (some (.path name))) :
      RawAnswer host settings h s .lsof ⟨Utf8.encode name⟩ s₁

theorem RawAnswer.run_eq (hraw : RawAnswer host settings h s x raw s') :
    (resolve settings.policy settings.procRoot h x).outcome.run host s =
      (settle h raw (Utf8.decodeLossy raw.bytes) x.name).outcome.run host s' := by
  cases hraw with
  | link hmounted hlinked =>
    have hdirectory : (Inquiry.isDirectory settings.procRoot).run host s = (true, _) := hmounted
    have hlink : (Inquiry.readLink (Liveness.entry settings.procRoot h.pid "cwd")).run host _ = (.ok raw, s') := hlinked
    rw [resolve, viaLink, Query.outcome_lift_bind, Inquiry.run_bind, hdirectory]
    simp only [Bool.not_true, Bool.false_eq_true, if_false]
    rw [Query.outcome_lift_bind, Inquiry.run_bind, hlink]
    rfl
  | @report name pid stdout stderr exit _ hrun hname =>
    rw [resolve, viaReport, Query.outcome_lift_bind, Inquiry.run_bind, run_directoryReport hrun,
      Utf8.decodeLossy_encode]
    simp only [Diagnostic.Output.stdoutText, hname]
    rfl

/-- The path ends in what is added to the path of a removed directory. -/
def IsMarked (raw : Path) : Prop := Utf8.encode deletedMark <:+ raw.bytes

instance : DecidablePred IsMarked := fun raw => inferInstanceAs (Decidable (_ <:+ raw.bytes))

theorem isSuffixOf_decodeLossy_iff : deletedMark.isSuffixOf (Utf8.decodeLossy raw.bytes) = true ↔ IsMarked raw := by
  have hplain : deletedMark.all (·.toNat < 128) = true := by decide
  rw [List.isSuffixOf_iff_suffix, Utf8.suffix_decodeLossy_iff (by simpa using hplain), IsMarked]

/-- The path is taken for that of a removed directory: it is marked, and there is no entry of the name that is shown. -/
def TakenForRemoved (host : Host σ) (s : σ) (raw : Path) : Prop :=
  IsMarked raw ∧ (host.answer (.isPresent raw.asShown) s).1 = false

/-- What is said of a removed directory: its name without the mark. -/
def removedReason (raw : Path) : String :=
  let text := Utf8.decodeLossy raw.bytes
  s!"directory {String.ofList (text.take (text.length - deletedMark.length))} was deleted"

theorem run_settle_of_taken (h : Handle) (backend : String) (htaken : TakenForRemoved host s raw) :
    ((settle h raw (Utf8.decodeLossy raw.bytes) backend).outcome.run host s).1 =
      .error (.unavailable h.pid (removedReason raw)) := by
  have habsent : ((Inquiry.isPresent ⟨Utf8.encode (Utf8.decodeLossy raw.bytes)⟩).run host s).1 = false :=
    raw.asShown_eq ▸ htaken.2
  rw [settle, Query.outcome_lift_bind, Inquiry.run_bind, deletedTarget?,
    if_pos (isSuffixOf_decodeLossy_iff.2 htaken.1), Inquiry.run_bind, habsent]
  rfl

/-- A path that is not taken for that of a removed directory is made canonical. -/
theorem exists_run_settle_of_not_taken (h : Handle) (backend : String) (htaken : ¬TakenForRemoved host s raw) :
    ∃ s', (settle h raw (Utf8.decodeLossy raw.bytes) backend).outcome.run host s =
      (canonical h raw backend).outcome.run host s' := by
  rw [settle, Query.outcome_lift_bind, Inquiry.run_bind, deletedTarget?]
  by_cases hmarked : IsMarked raw
  · have hpresent : ((Inquiry.isPresent ⟨Utf8.encode (Utf8.decodeLossy raw.bytes)⟩).run host s).1 = true := by
      rw [← raw.asShown_eq, ← Bool.not_eq_false]
      exact fun habsent => htaken ⟨hmarked, habsent⟩
    rw [if_pos (isSuffixOf_decodeLossy_iff.2 hmarked), Inquiry.run_bind, hpresent]
    exact ⟨_, rfl⟩
  · rw [if_neg (isSuffixOf_decodeLossy_iff.not.2 hmarked)]
    exact ⟨_, rfl⟩

/-! ## Names that are not absolute -/

def relativeFailure (raw : Path) (backend : String) : Failure :=
  .parse backend s!"expected an absolute path, got {raw.quoted}"

theorem run_canonical_of_relative (hrelative : raw.isAbsolute = false) (h : Handle) (backend : String) :
    ((canonical h raw backend).outcome.run host s).1 = .error (relativeFailure raw backend) := by
  rw [canonical, hrelative]
  rfl

/-- When a raw path that is not absolute is refused as such, so that another strategy may answer: whenever it is not
taken for that of a removed directory. Otherwise, by a look at the entries where the caller works, the directory is said
to be removed, and no other strategy is tried. -/
theorem relative_names_refused_iff (hraw : RawAnswer host settings h s x raw s') (hrelative : raw.isAbsolute = false) :
    (((resolve settings.policy settings.procRoot h x).outcome.run host s).1 = .error (relativeFailure raw x.name) ↔
        ¬TakenForRemoved host s' raw) ∧
      (((resolve settings.policy settings.procRoot h x).outcome.run host s).1 =
          .error (.unavailable h.pid (removedReason raw)) ↔ TakenForRemoved host s' raw) ∧
      (givesWay ((resolve settings.policy settings.procRoot h x).outcome.run host s).1 = true ↔
        ¬TakenForRemoved host s' raw) := by
  rw [hraw.run_eq]
  by_cases htaken : TakenForRemoved host s' raw
  · rw [run_settle_of_taken h x.name htaken]
    simp [htaken, relativeFailure, givesWay, Failure.mayFallBack, Failure.kind]
  · obtain ⟨s'', hsettle⟩ := exists_run_settle_of_not_taken h x.name htaken
    rw [hsettle, run_canonical_of_relative hrelative]
    simp [htaken, relativeFailure, givesWay, Failure.mayFallBack, Failure.kind]

/-- What the kernel shows of a removed directory that the caller cannot reach. -/
def stray : Path := .ofString "(unreachable)/x (deleted)"

/-- A host whose link and report both give the stray path, with these entries where the caller works. -/
def strayHost (entries : List Path) : Host Unit where
  answer
    | .readLink _, s => (.ok stray, s)
    | .isPresent path, s => (entries.contains path, s)
    | .run _, s => (.finished 9 (Utf8.encode "p5\nfcwd\nn(unreachable)/x (deleted)\n".toList) [] false (some 0), s)
    | request, s => Inspector.emptyHost.answer request s

theorem link_strayHost (entries : List Path) :
    RawAnswer (strayHost entries) .default Inspector.nobody () .procfs stray () := .link rfl rfl

theorem report_strayHost (entries : List Path) :
    RawAnswer (strayHost entries) .default Inspector.nobody () .lsof stray () :=
  .report rfl (by rw [Utf8.decodeLossy_encode]; decide)

theorem takenForRemoved_strayHost_iff (entries : List Path) :
    TakenForRemoved (strayHost entries) () stray ↔ stray ∉ entries := by
  have hmarked : IsMarked stray := by decide
  have hshown : stray.asShown = stray := Path.asShown_of_text rfl
  change IsMarked stray ∧ entries.contains stray.asShown = false ↔ stray ∉ entries
  rw [hshown, ← Bool.not_eq_true, List.contains_iff_mem]
  exact and_iff_right hmarked

/-- Where the caller works there is an entry of the stray name, so it is refused. -/
theorem relative_names_refused_stray :
    ((viaLink Settings.defaultProcRoot Inspector.nobody).outcome.run (strayHost [stray]) ()).1 =
        .error (relativeFailure stray "procfs") ∧
      ((viaReport Settings.default.policy Settings.defaultProcRoot Inspector.nobody).outcome.run
        (strayHost [stray]) ()).1 = .error (relativeFailure stray "lsof") := by
  have hkept : ¬TakenForRemoved (strayHost [stray]) () stray := by simp [takenForRemoved_strayHost_iff]
  exact ⟨(relative_names_refused_iff (link_strayHost [stray]) (by decide)).1.2 hkept,
    (relative_names_refused_iff (report_strayHost [stray]) (by decide)).1.2 hkept⟩

/-- Where the caller works there is none, and the same name is that of a removed directory, from the link and from the
report alike. -/
theorem relative_name_unrefused : stray.isAbsolute = false ∧
    ((viaLink Settings.defaultProcRoot Inspector.nobody).outcome.run (strayHost []) ()).1 =
        .error (.unavailable 5 (removedReason stray)) ∧
      ((viaReport Settings.default.policy Settings.defaultProcRoot Inspector.nobody).outcome.run
        (strayHost []) ()).1 = .error (.unavailable 5 (removedReason stray)) := by
  have htaken : TakenForRemoved (strayHost []) () stray := by simp [takenForRemoved_strayHost_iff]
  refine ⟨by decide, ?_, ?_⟩
  · have hsettle := (link_strayHost []).run_eq
    exact (congrArg Prod.fst hsettle).trans (run_settle_of_taken _ _ htaken)
  · have hsettle := (report_strayHost []).run_eq
    exact (congrArg Prod.fst hsettle).trans (run_settle_of_taken _ _ htaken)

end WorkingDirectory

end ProcessProbe
