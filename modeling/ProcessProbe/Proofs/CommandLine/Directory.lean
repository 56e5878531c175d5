import ProcessProbe.Proofs.CommandLine.Events

/-!
# Directories in a run's object

A working directory is any sequence of bytes, and the object that a run prints has text in it. Main statement: a run
that was to print an object prints it just when every directory that it finds is a text, and then the object shows each
of them.
-/

namespace ProcessProbe

variable {σ : Type}

/-- The path is the encoding of a text. -/
def Path.IsText (p : Path) : Prop := ∃ s, p.bytes = Utf8.encode s

namespace CommandLine

open Answer (values)
open WorkingDirectory (Known)

theorem pathToJson?_eq_some_iff {path : Path} {written : Json} :
    Settings.pathToJson? path = some written ↔ ∃ s, path.bytes = Utf8.encode s ∧ written = .text (String.ofList s) := by
  rw [Settings.pathToJson?, Option.map_eq_some_iff]
  simp only [Utf8.decode?_eq_some_iff]
  constructor
  · rintro ⟨s, hs, rfl⟩
    exact ⟨s, hs.symm, rfl⟩
  · rintro ⟨s, hs, rfl⟩
    exact ⟨s, hs.symm, rfl⟩

theorem writes_json_iff {path : Path} : Format.json.Writes path ↔ path.IsText := by
  simp only [Format.Writes, forall_const, pathToJson?_eq_some_iff, Path.IsText]
  constructor
  · rintro ⟨_, s, hs, -⟩
    exact ⟨s, hs⟩
  · rintro ⟨s, hs⟩
    exact ⟨_, s, hs, rfl⟩

namespace Outcome

/-- An object goes to the standard output. -/
def IsPrinted (out : Outcome) : Prop := ∃ answer fields, out = .answered answer ∧ answer.payload = .object fields

/-- The object that is printed has the path, as the directory or as the one that some strategy found. -/
def Shows (out : Outcome) (path : Path) : Prop :=
  ∃ s, path.bytes = Utf8.encode s ∧
    (out.field? "cwd" = some (.text (String.ofList s)) ∨
      ∃ results, out.field? "results" = some (.array results) ∧
        ∃ result ∈ results, result.get? "value" = some (.text (String.ofList s)))

/-- A run prints its object just when every directory it finds is a text. It shows each of them then, and has an exit
code; otherwise it ends without either. -/
structure PrintsTexts (out : Outcome) (found : List Path) : Prop where
  printed_iff : out.IsPrinted ↔ ∀ path ∈ found, path.IsText
  shown : out.IsPrinted → (∃ code : ExitCode, out.exit = code.code) ∧ ∀ path ∈ found, out.Shows path
  unprinted : ¬out.IsPrinted → out = .unwritable ∧ ∀ code : ExitCode, out.exit ≠ code.code

theorem exit_unwritable_ne (code : ExitCode) : unwritable.exit ≠ code.code := by
  cases code <;> decide

theorem printsTexts_of_answer {answer? : Option Answer} {found : List Path}
    (hnone : answer? = none ↔ ∃ path ∈ found, ¬Format.json.Writes path)
    (hobject : ∀ answer, answer? = some answer → ∃ fields, answer.payload = .object fields)
    (hshown : (∀ path ∈ found, path.IsText) → ∀ path ∈ found, (ofAnswer? answer?).Shows path) :
    (ofAnswer? answer?).PrintsTexts found := by
  simp only [writes_json_iff] at hnone
  cases answer? with
  | none =>
    obtain ⟨path, hpath, hodd⟩ := hnone.1 rfl
    have hunprinted : ¬unwritable.IsPrinted := fun ⟨_, _, h, _⟩ => (nomatch h)
    exact ⟨iff_of_false hunprinted fun h => hodd (h path hpath), fun h => absurd h hunprinted,
      fun _ => ⟨rfl, exit_unwritable_ne⟩⟩
  | some answer =>
    have htexts : ∀ path ∈ found, path.IsText := by
      by_contra h
      push Not at h
      exact absurd (hnone.2 h) (Option.some_ne_none _)
    obtain ⟨fields, hfields⟩ := hobject answer rfl
    have hprinted : (answered answer).IsPrinted := ⟨answer, fields, rfl, hfields⟩
    exact ⟨iff_of_true hprinted htexts, fun _ => ⟨⟨answer.code, rfl⟩, hshown htexts⟩, fun h => absurd hprinted h⟩

end Outcome

private theorem exists_of_forall₂ {β γ : Type} {R : β → γ → Prop} {xs : List β} {ys : List γ}
    (h : List.Forall₂ R xs ys) {x : β} (hx : x ∈ xs) : ∃ y ∈ ys, R x y := by
  induction h with
  | nil => contradiction
  | @cons first y rest ys hfirst _ ih =>
    rcases List.mem_cons.1 hx with rfl | hx
    · exact ⟨y, List.mem_cons_self, hfirst⟩
    · obtain ⟨z, hz, hxz⟩ := ih hx
      exact ⟨z, List.mem_cons_of_mem y hz, hxz⟩

section

variable (host : Host σ) (r : Run) {o : Options} (i : Inspector) (h : Handle) (t : σ) (hformat : o.format = .json)

include hformat

theorem directory_printsTexts (x : WorkingDirectory.Strategy) :
    (Outcome.ofAnswer? ((directory r o i h x).run host t).1).PrintsTexts
      ((i.workingDirectoryVia x h).outcome.run host t).1.toOption.toList := by
  have hnone := directory_eq_none_iff host r o i h x t
  have hreported := directory_says host r o i h t x
  simp only [hformat] at hnone hreported
  apply Outcome.printsTexts_of_answer hnone
  · intro answer hanswer
    rw [directory, Inquiry.run_bind] at hanswer
    cases hresult : ((i.workingDirectoryVia x h).outcome.run host t).1 with
    | ok path =>
      rw [hresult] at hanswer
      obtain ⟨written, -, rfl⟩ := Option.map_eq_some_iff.1 (hformat ▸ hanswer)
      exact ⟨_, rfl⟩
    | error failure =>
      rw [hresult] at hanswer
      obtain rfl := Option.some.inj hanswer
      rw [hformat]
      exact ⟨_, rfl⟩
  · intro htexts path hpath
    have hresult : ((i.workingDirectoryVia x h).outcome.run host t).1 = .ok path := by
      cases hresult : ((i.workingDirectoryVia x h).outcome.run host t).1 with
      | ok found =>
        rw [hresult] at hpath
        rw [List.mem_singleton.1 hpath]
      | error failure =>
        rw [hresult] at hpath
        contradiction
    have hwrites : ∀ found,
        ((i.workingDirectoryVia x h).outcome.run host t).1 = .ok found → Format.json.Writes found := by
      intro found hfound
      exact writes_json_iff.2 (htexts found (by simp [hfound, Except.toOption]))
    have hobject := (hreported hwrites).object rfl path hresult
    obtain ⟨s, hs⟩ := htexts path hpath
    exact ⟨s, hs, .inl (hobject.trans (pathToJson?_eq_some_iff.2 ⟨s, hs, rfl⟩))⟩

theorem directories_printsTexts (time : String) (outcomes : List (WorkingDirectory.Strategy × Except Failure Path)) :
    (Outcome.ofAnswer? (Answer.ofOutcomes? o.format .directory h time (·.name) Path.same (fun _ => .ok)
      Settings.pathToJson? outcomes)).PrintsTexts (values outcomes) := by
  rw [hformat]
  apply Outcome.printsTexts_of_answer
  · simp [Answer.ofOutcomes?_eq_none_iff, not_writes_iff]
  · intro answer hanswer
    obtain ⟨results, -, rfl⟩ := Option.map_eq_some_iff.1 hanswer
    exact ⟨_, rfl⟩
  · intro htexts path hpath
    have hwrites : Format.json = .json →
        ∀ found ∈ values outcomes, ∃ written, Settings.pathToJson? found = some written :=
      fun hjson found hfound => writes_json_iff.2 (htexts found hfound) hjson
    obtain ⟨a, hanswer, hreports⟩ := Answer.exists_ofOutcomes? .directory h time WorkingDirectory.Strategy.name
      (fun _ => .ok) hwrites
    obtain ⟨results, hfield, hdescribes⟩ := hreports.results rfl
    obtain ⟨x, hmem⟩ := Answer.mem_values.1 hpath
    obtain ⟨s, hs⟩ := htexts path hpath
    obtain ⟨result, hresult, hentry⟩ := exists_of_forall₂ hdescribes hmem
    rw [hanswer]
    refine ⟨s, hs, .inr ⟨results, hfield, result, hresult, ?_⟩⟩
    exact (hentry.answered path rfl).2.trans (pathToJson?_eq_some_iff.2 ⟨s, hs, rfl⟩)

end

section

variable {host : Host σ} {o : Options} (h : Handle) {s t : σ} {r : Run} {i : Inspector} (hformat : o.format = .json)
  (hprepared : (prepared o).run host s = ((r, .ok i), t))

include hformat hprepared

theorem run_only_printsTexts (x : WorkingDirectory.Strategy) :
    ((run ⟨o, .directory h (.only x)⟩).run host s).1.PrintsTexts (foundBy host i t (.directory h (.only x))) := by
  have hready : ((prepared o).run host s).1.2 = .ok i := by rw [hprepared]
  have hquery (r : Run) (settings : Settings) : answer r o settings (.directory h (.only x)) =
      Inspector.detect settings >>= fun i => directory r o i h x := rfl
  rw [run_of_prepared hquery hready, hprepared]
  exact directory_printsTexts host r i h t hformat x

theorem run_auto_printsTexts :
    ((run ⟨o, .directory h .auto⟩).run host s).1.PrintsTexts (foundBy host i t (.directory h .auto)) :=
  run_only_printsTexts h hformat hprepared .generic

theorem run_every_printsTexts :
    ((run ⟨o, .directory h .every⟩).run host s).1.PrintsTexts (foundBy host i t (.directory h .every)) := by
  have hready : ((prepared o).run host s).1.2 = .ok i := by rw [hprepared]
  have hquery (r : Run) (settings : Settings) : answer r o settings (.directory h .every) =
      Inspector.detect settings >>= fun i => do
        let outcomes ← i.workingDirectoryAll h
        return Answer.ofOutcomes? o.format .directory h (← Inquiry.timestamp) WorkingDirectory.Strategy.name Path.same
          (fun _ => .ok) Settings.pathToJson? outcomes := rfl
  rw [run_of_prepared hquery hready, hprepared, Inquiry.run_bind, Inquiry.run_bind, Inquiry.run_pure]
  exact directories_printsTexts h hformat _ _

end

/-- A run whose settings are accepted prints its object, with the directories it finds and an exit code, just when each
of them is a text. A directory that is none, from any one strategy, leaves the run without an object and without an exit
code. -/
theorem found_directories_printed_iff_texts (host : Host σ) {o : Options} (h : Handle)
    (choice : Choice WorkingDirectory.Strategy) {s t : σ} {r : Run} {i : Inspector} (hformat : o.format = .json)
    (hprepared : (prepared o).run host s = ((r, .ok i), t)) :
    ((run ⟨o, .directory h choice⟩).run host s).1.PrintsTexts (foundBy host i t (.directory h choice)) := by
  cases choice with
  | auto => exact run_auto_printsTexts h hformat hprepared
  | only x => exact run_only_printsTexts h hformat hprepared x
  | every => exact run_every_printsTexts h hformat hprepared

theorem marked_found (i : Inspector) :
    ((i.workingDirectoryVia .procfs Inspector.nobody).outcome.run WorkingDirectory.marked.toHost ()).1 =
      .ok ⟨Utf8.encode "/srv (deleted)".toList⟩ := by
  have hlinked : (WorkingDirectory.Sight.named "/srv (deleted)".toList).Linked WorkingDirectory.marked.link := rfl
  have hlink := Known.inLink hlinked i.settings.procRoot Inspector.nobody
  exact Query.eq_ok_of_told (Query.ComesTo.within WorkingDirectory.marked.files_on.keeps
    (Inspector.span "working_directory_via" .resolve Inspector.nobody (some "procfs"))
    (WorkingDirectory.marked.files_on.viaLink_comesTo hlink) () trivial)

theorem found_directories_printed_marked :
    ∃ r i, (prepared printed).run WorkingDirectory.marked.toHost () = ((r, .ok i), ()) ∧
      foundBy WorkingDirectory.marked.toHost i () (.directory Inspector.nobody (.only .procfs)) =
        [⟨Utf8.encode "/srv (deleted)".toList⟩] ∧
      ((run ⟨printed, .directory Inspector.nobody (.only .procfs)⟩).run
        WorkingDirectory.marked.toHost ()).1.IsPrinted ∧
      ((run ⟨printed, .directory Inspector.nobody (.only .procfs)⟩).run
        WorkingDirectory.marked.toHost ()).1.Shows ⟨Utf8.encode "/srv (deleted)".toList⟩ := by
  obtain ⟨r, i, hprepared⟩ : ∃ r i, (prepared printed).run WorkingDirectory.marked.toHost () = ((r, .ok i), ()) :=
    ⟨_, _, rfl⟩
  have hfound : foundBy WorkingDirectory.marked.toHost i () (.directory Inspector.nobody (.only .procfs)) =
      [⟨Utf8.encode "/srv (deleted)".toList⟩] := congrArg (fun result => result.toOption.toList) (marked_found i)
  have hprints :=
    found_directories_printed_iff_texts WorkingDirectory.marked.toHost Inspector.nobody (.only .procfs) rfl hprepared
  rw [hfound] at hprints
  have hprinted := hprints.printed_iff.2 (by simpa using ⟨_, rfl⟩)
  exact ⟨r, i, hprepared, hfound, hprinted, (hprints.shown hprinted).2 _ (List.mem_singleton_self _)⟩

/-- The link leads to a directory whose path is no text. The query finds it, and the run prints nothing. -/
theorem odd_directory_unprinted :
    ∃ r i, (prepared printed).run oddLink.toHost () = ((r, .ok i), ()) ∧
      foundBy oddLink.toHost i () (.directory Inspector.nobody (.only .procfs)) = [⟨[47, 0xFF]⟩] ∧
      ((run ⟨printed, .directory Inspector.nobody (.only .procfs)⟩).run oddLink.toHost ()).1 = .unwritable ∧
      ∀ code : ExitCode,
        ((run ⟨printed, .directory Inspector.nobody (.only .procfs)⟩).run oddLink.toHost ()).1.exit ≠ code.code := by
  obtain ⟨r, i, hprepared⟩ : ∃ r i, (prepared printed).run oddLink.toHost () = ((r, .ok i), ()) := ⟨_, _, rfl⟩
  have hfound : foundBy oddLink.toHost i () (.directory Inspector.nobody (.only .procfs)) = [⟨[47, 0xFF]⟩] :=
    congrArg (fun result => result.toOption.toList) (oddLink_found i)
  have hodd : ¬Path.IsText ⟨[47, 0xFF]⟩ := by
    rintro ⟨s, hs⟩
    have hdecode := Utf8.decode?_eq_some_iff.2 hs.symm
    rw [Utf8.decode?, pieces_odd] at hdecode
    contradiction
  have hprints := run_only_printsTexts Inspector.nobody rfl hprepared .procfs
  rw [hfound] at hprints
  have hunprinted := hprints.unprinted fun h => hodd (hprints.printed_iff.1 h _ (List.mem_singleton_self _))
  exact ⟨r, i, hprepared, hfound, hunprinted⟩

end CommandLine

end ProcessProbe
