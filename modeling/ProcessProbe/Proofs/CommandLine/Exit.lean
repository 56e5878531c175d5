import ProcessProbe.CommandLine.Run
import ProcessProbe.Proofs.CommandLine.Answer
import ProcessProbe.Proofs.Query.Agreement
import ProcessProbe.Proofs.Query.WorkingDirectory

/-!
# Exit codes of a run

Before it asks about a process, a run reads its settings and finds out what the host has. What the query comes to from
there decides the exit code, and the object that is printed says the same. Main statement: codes 0 and 1 are for answers
alone, of one strategy or of all of them.
-/

namespace ProcessProbe.CommandLine

variable {S α σ : Type}

/-- What a run does before its query: it ends with an inspector, or with the message that refuses the settings. -/
def prepared (o : Options) : Inquiry (Run × Except String Inspector) := do
  let (name, host) ← Inquiry.identity
  let r : Run := ⟨name, host⟩
  Inquiry.record (.enter r.span)
  r.report .info .runStarted .init "starting pq-core" []
  match ← settings r o with
  | .ok settings => return (r, .ok (← Inspector.detect settings))
  | .error message => return (r, .error message)

def finish (r : Run) : Option Answer → Inquiry Outcome
  | none => return .unwritable
  | some answer => do
    r.report .info .runFinished .init "pq-core finished" [("exit_code", .integer answer.code.code)]
    return .answered answer

/-- A run whose command starts by looking at the host is its preparation, the query, and the report of its end. -/
theorem run_eq (o : Options) {command : Command} {query : Run → Inspector → Inquiry (Option Answer)}
    (hquery : ∀ r settings, answer r o settings command = Inspector.detect settings >>= query r) :
    run ⟨o, command⟩ = prepared o >>= fun (r, inspector?) =>
      match inspector? with
      | .error message => finish r (some ⟨.arguments, .nothing, [message]⟩)
      | .ok i => query r i >>= finish r := by
  simp only [run, prepared, bind_assoc]
  congr 1
  funext identity
  congr 1
  funext _
  congr 1
  funext _
  congr 1
  funext result
  cases result with
  | error message => rfl
  | ok settings =>
    simp only [hquery, bind_assoc, pure_bind]
    rfl

def Outcome.ofAnswer? : Option Answer → Outcome
  | none => .unwritable
  | some answer => .answered answer

theorem run_finish (host : Host σ) (r : Run) (answer? : Option Answer) (s : σ) :
    ((finish r answer?).run host s).1 = .ofAnswer? answer? := by
  cases answer? with
  | none => rfl
  | some answer => rfl

section

variable {o : Options} {command : Command} {query : Run → Inspector → Inquiry (Option Answer)}
  (hquery : ∀ r settings, answer r o settings command = Inspector.detect settings >>= query r) {host : Host σ} {s : σ}

include hquery

theorem run_of_refused {message : String} (hprepared : ((prepared o).run host s).1.2 = .error message) :
    ((run ⟨o, command⟩).run host s).1 = .answered ⟨.arguments, .nothing, [message]⟩ := by
  rw [run_eq o hquery, Inquiry.run_bind]
  simp only [hprepared]
  exact run_finish host _ _ _

theorem run_of_prepared {i : Inspector} (hprepared : ((prepared o).run host s).1.2 = .ok i) :
    ((run ⟨o, command⟩).run host s).1 =
      .ofAnswer? ((query ((prepared o).run host s).1.1 i).run host ((prepared o).run host s).2).1 := by
  rw [run_eq o hquery, Inquiry.run_bind]
  simp only [hprepared]
  rw [Inquiry.run_bind]
  exact run_finish host _ _ _

end

/-! ## What a run says -/

def Outcome.field? (name : String) : Outcome → Option Json
  | .answered answer => answer.field? name
  | .unwritable => none

theorem ten_le_ofFailure (f : Failure) : 10 ≤ (ExitCode.ofFailure f).code := by
  have hanswer := ExitCode.not_isAnswer_ofFailure f
  simpa [ExitCode.isAnswer] using hanswer

/-- A run says what one strategy, or the first that could, answered to a yes-or-no question. -/
structure SaysBool (format : Format) (result : Except Failure Bool) (out : Outcome) : Prop where
  yes : out.exit = 0 ↔ result = .ok true
  no : out.exit = 1 ↔ result = .ok false
  failed : ∀ failure, result = .error failure → out.exit = (ExitCode.ofFailure failure).code ∧ 10 ≤ out.exit
  object : format = .json → ∀ answer, result = .ok answer →
    out.field? "has_subprocesses" = some (.bool (out.exit == 0))

structure SaysPath (format : Format) (result : Except Failure Path) (out : Outcome) : Prop where
  found : out.exit = 0 ↔ ∃ path, result = .ok path
  never_no : out.exit ≠ 1
  failed : ∀ failure, result = .error failure → out.exit = (ExitCode.ofFailure failure).code ∧ 10 ≤ out.exit
  object : format = .json → ∀ path, result = .ok path → out.field? "cwd" = Settings.pathToJson? path

open Answer (values agree Describes Reports)
open WorkingDirectory (Known)
open Query (told)

/-- A run says what all strategies answered: whether they agree, and each one's answer in order. -/
structure SaysAll (format : Format) (name : S → String) (same : α → α → Bool) (code : α → ExitCode)
    (write : α → Option Json) (outcomes : List (S × Except Failure α)) (out : Outcome) : Prop where
  agreed : agree same (values outcomes) = true → ∀ a ∈ values outcomes, out.exit = (code a).code
  differ : out.exit = 20 ∧ agree same (values outcomes) = false ↔
    ∃ a ∈ values outcomes, ∃ b ∈ values outcomes, same a b = false
  unanswered : values outcomes = [] →
    ∃ x failure, outcomes.getLast? = some (x, .error failure) ∧ out.exit = (ExitCode.ofFailure failure).code
  object : format = .json → out.field? "agree" = some (.bool (agree same (values outcomes))) ∧
    ∃ results, out.field? "results" = some (.array results) ∧ List.Forall₂ (Describes name write) outcomes results

section

variable {format : Format} {name : S → String} {same : α → α → Bool} {code : α → ExitCode} {write : α → Option Json}
  {outcomes : List (S × Except Failure α)}

theorem saysAll_of_reports {a : Answer} (hsame : Equivalence fun a b => same a b = true)
    (hcode : ∀ a b, same a b = true → code a = code b) (hne : outcomes ≠ [])
    (h : Reports format name same code write outcomes a) :
    SaysAll format name same code write outcomes (.answered a) where
  agreed := by
    intro hagree x hx
    rw [Outcome.exit, h.code_eq, Answer.compared_of_agree hsame hcode hagree hx]
  differ := by
    rw [← Answer.agree_eq_false_iff hsame]
    refine ⟨And.right, fun hagree => ⟨?_, hagree⟩⟩
    rw [Outcome.exit, h.code_eq, Answer.compared_of_differ hagree]
    rfl
  unanswered := by
    intro hnone
    obtain ⟨x, failure, hlast, hcompared⟩ := Answer.compared_of_none same code hne hnone
    exact ⟨x, failure, hlast, by rw [Outcome.exit, h.code_eq, hcompared]⟩
  object := fun hformat => ⟨h.agree_eq hformat, h.results hformat⟩

theorem SaysAll.exit_eq_iff {out : Outcome} (h : SaysAll format name same code write outcomes out)
    (hsame : Equivalence fun a b => same a b = true) {k : Nat} (hk : k < 10) :
    out.exit = k ↔ values outcomes ≠ [] ∧ agree same (values outcomes) = true ∧
      ∀ a ∈ values outcomes, (code a).code = k := by
  constructor
  · rintro rfl
    have hne : values outcomes ≠ [] := by
      intro hnone
      obtain ⟨x, failure, -, hexit⟩ := h.unanswered hnone
      have hfailure := ten_le_ofFailure failure
      omega
    -- Values that differ would have given the code of an internal error, which is no answer.
    have hagree : agree same (values outcomes) = true := by
      by_contra hdisagree
      have hdiffer := (Answer.agree_eq_false_iff hsame _).1 (Bool.eq_false_iff.2 hdisagree)
      have hinternal := (h.differ.2 hdiffer).1
      omega
    exact ⟨hne, hagree, fun a ha => (h.agreed hagree a ha).symm⟩
  · rintro ⟨hne, hagree, hall⟩
    obtain ⟨a, ha⟩ := List.exists_mem_of_ne_nil _ hne
    rw [h.agreed hagree a ha, hall a ha]

end

/-- The answers of all strategies to a yes-or-no question. -/
structure SaysBools (format : Format) (name : S → String) (outcomes : List (S × Except Failure Bool)) (out : Outcome) :
    Prop extends SaysAll format name (· == ·) ExitCode.ofBool (some <| .bool ·) outcomes out where
  yes : out.exit = 0 ↔ values outcomes ≠ [] ∧ ∀ a ∈ values outcomes, a = true
  no : out.exit = 1 ↔ values outcomes ≠ [] ∧ ∀ a ∈ values outcomes, a = false

structure SaysPaths (format : Format) (name : S → String) (outcomes : List (S × Except Failure Path)) (out : Outcome) :
    Prop extends SaysAll format name Path.same (fun _ => ExitCode.ok) Settings.pathToJson? outcomes out where
  found : out.exit = 0 ↔ values outcomes ≠ [] ∧ ∀ a ∈ values outcomes, ∀ b ∈ values outcomes, a.same b = true
  never_no : out.exit ≠ 1

theorem beq_equivalence {β : Type} [BEq β] [LawfulBEq β] (f : α → β) :
    Equivalence fun a b => (f a == f b) = true where
  refl := fun _ => beq_self_eq_true _
  symm := fun h => beq_iff_eq.2 (beq_iff_eq.1 h).symm
  trans := fun h h' => beq_iff_eq.2 ((beq_iff_eq.1 h).trans (beq_iff_eq.1 h'))

theorem bool_equivalence : Equivalence fun a b : Bool => (a == b) = true := beq_equivalence id

theorem path_equivalence : Equivalence fun p q : Path => p.same q = true := beq_equivalence Path.components

theorem saysBools_of_reports {format : Format} {name : S → String} {outcomes : List (S × Except Failure Bool)}
    {a : Answer} (hne : outcomes ≠ [])
    (h : Reports format name (· == ·) ExitCode.ofBool (some <| .bool ·) outcomes a) :
    SaysBools format name outcomes (.answered a) := by
  have hall := saysAll_of_reports bool_equivalence (fun x y hxy => congrArg _ (beq_iff_eq.1 hxy)) hne h
  have hsame {c : Bool} (hc : ∀ x ∈ values outcomes, x = c) : agree (· == ·) (values outcomes) = true := by
    rw [Answer.agree_iff bool_equivalence]
    intro x hx y hy
    rw [hc x hx, hc y hy, beq_self_eq_true]
  refine ⟨hall, ?_, ?_⟩
  · rw [hall.exit_eq_iff bool_equivalence (by decide)]
    have hcode (x : Bool) : (ExitCode.ofBool x).code = 0 ↔ x = true := by cases x <;> decide
    simp only [hcode]
    exact ⟨fun h => ⟨h.1, h.2.2⟩, fun h => ⟨h.1, hsame h.2, h.2⟩⟩
  · rw [hall.exit_eq_iff bool_equivalence (by decide)]
    have hcode (x : Bool) : (ExitCode.ofBool x).code = 1 ↔ x = false := by cases x <;> decide
    simp only [hcode]
    exact ⟨fun h => ⟨h.1, h.2.2⟩, fun h => ⟨h.1, hsame h.2, h.2⟩⟩

theorem saysPaths_of_reports {format : Format} {name : S → String} {outcomes : List (S × Except Failure Path)}
    {a : Answer} (hne : outcomes ≠ [])
    (h : Reports format name Path.same (fun _ => ExitCode.ok) Settings.pathToJson? outcomes a) :
    SaysPaths format name outcomes (.answered a) := by
  have hall := saysAll_of_reports path_equivalence (fun _ _ _ => rfl) hne h
  refine ⟨hall, ?_, ?_⟩
  · rw [hall.exit_eq_iff path_equivalence (by decide), Answer.agree_iff path_equivalence]
    exact ⟨fun h => ⟨h.1, h.2.1⟩, fun h => ⟨h.1, h.2, fun _ _ => rfl⟩⟩
  · rw [Ne, hall.exit_eq_iff path_equivalence (by decide)]
    rintro ⟨hsome, -, hone⟩
    obtain ⟨path, hpath⟩ := List.exists_mem_of_ne_nil _ hsome
    exact absurd (hone path hpath) (by decide)

/-- The format has a form for the path: an object has one only for a text. -/
def Format.Writes (format : Format) (path : Path) : Prop := format = .json → ∃ v, Settings.pathToJson? path = some v

/-! ## Queries of a run -/

section

variable (format : Format) (command : Subcommand) (h : Handle) (name time : String)

theorem saysBool_ofChildren (answer : Bool) :
    SaysBool format (.ok answer) (.answered (.ofChildren format h name time answer)) where
  yes := by cases answer <;> simp [Outcome.exit, Answer.ofChildren, ExitCode.ofBool, ExitCode.code]
  no := by cases answer <;> simp [Outcome.exit, Answer.ofChildren, ExitCode.ofBool, ExitCode.code]
  failed := fun failure hfailure => (nomatch hfailure)
  object := by
    rintro rfl _ ⟨⟩
    cases answer <;> rfl

theorem saysBool_ofFailure (failure : Failure) :
    SaysBool format (.error failure) (.answered (.ofFailure format command h time failure)) := by
  have hexit : (Outcome.answered (.ofFailure format command h time failure)).exit =
      (ExitCode.ofFailure failure).code := by cases format <;> rfl
  have hge := ten_le_ofFailure failure
  refine ⟨?_, ?_, ?_, ?_⟩
  · rw [hexit]
    exact iff_of_false (by omega) (by simp)
  · rw [hexit]
    exact iff_of_false (by omega) (by simp)
  · rintro _ ⟨⟩
    exact ⟨hexit, hexit ▸ hge⟩
  · rintro - _ ⟨⟩

theorem saysPath_ofFailure (failure : Failure) :
    SaysPath format (.error failure) (.answered (.ofFailure format command h time failure)) := by
  have hfailed := (saysBool_ofFailure format command h time failure).failed failure rfl
  refine ⟨iff_of_false (by omega) (by simp), by omega, ?_, ?_⟩
  · rintro _ ⟨⟩
    exact hfailed
  · rintro - _ ⟨⟩

theorem saysPath_ofDirectory? {path : Path} (hwrites : format.Writes path) :
    SaysPath format (.ok path) (.ofAnswer? (Answer.ofDirectory? format h name time path)) := by
  have hfound {out : Outcome} (hexit : out.exit = 0)
      (hobject : format = .json → out.field? "cwd" = Settings.pathToJson? path) : SaysPath format (.ok path) out := by
    refine ⟨iff_of_true hexit ⟨path, rfl⟩, by omega, fun failure hfailure => (nomatch hfailure), ?_⟩
    rintro hformat _ ⟨⟩
    exact hobject hformat
  cases format with
  | json =>
    obtain ⟨v, hv⟩ := hwrites rfl
    have hanswer : Answer.ofDirectory? .json h name time path = some ⟨.ok, .object
        [("command", .text Subcommand.directory.name), ("pid", h.toJson), ("strategy", .text name), ("cwd", v),
          ("generated_at", .text time)], []⟩ := by
      rw [Answer.ofDirectory?, hv]
      rfl
    rw [hanswer]
    exact hfound rfl fun _ => hv.symm
  | summary => exact hfound rfl fun hformat => (nomatch hformat)

end

section

variable (host : Host σ) (r : Run) (o : Options) (i : Inspector) (h : Handle) (s : σ)

theorem children_says (strategy : Option Subprocesses.Strategy) :
    SaysBool o.format ((strategy.elim (i.hasSubprocesses h) (i.hasSubprocessesVia · h)).outcome.run host s).1
      (.answered ((children r o i h strategy).run host s).1) := by
  rw [children, Inquiry.run_bind]
  cases ((strategy.elim (i.hasSubprocesses h) (i.hasSubprocessesVia · h)).outcome.run host s).1 with
  | ok answer => exact saysBool_ofChildren o.format h _ _ answer
  | error failure => exact saysBool_ofFailure o.format .children h _ failure

theorem directory_says (strategy : WorkingDirectory.Strategy)
    (hwrites : ∀ path, ((i.workingDirectoryVia strategy h).outcome.run host s).1 = .ok path → o.format.Writes path) :
    SaysPath o.format ((i.workingDirectoryVia strategy h).outcome.run host s).1
      (.ofAnswer? ((directory r o i h strategy).run host s).1) := by
  rw [directory, Inquiry.run_bind]
  cases hresult : ((i.workingDirectoryVia strategy h).outcome.run host s).1 with
  | ok path => exact saysPath_ofDirectory? o.format h _ _ (hwrites path hresult)
  | error failure => exact saysPath_ofFailure o.format .directory h _ failure

end

/-! ## Runs -/

section

variable {host : Host σ} {o : Options} {s : σ} (h : Handle)

/-- A run whose settings are refused exits as for wrong arguments, and asks nothing about the process. -/
theorem exit_of_refused {message : String} (hrefused : ((prepared o).run host s).1.2 = .error message) :
    (∀ choice, ((run ⟨o, .children h choice⟩).run host s).1.exit = 10) ∧
      ∀ choice, ((run ⟨o, .directory h choice⟩).run host s).1.exit = 10 := by
  have hexit {command : Command} {query : Run → Inspector → Inquiry (Option Answer)}
      (hquery : ∀ r settings, answer r o settings command = Inspector.detect settings >>= query r) :
      ((run ⟨o, command⟩).run host s).1.exit = 10 := by
    rw [run_of_refused hquery hrefused]
    rfl
  constructor
  · intro choice
    cases choice with
    | auto => exact hexit fun _ _ => rfl
    | only x => exact hexit fun _ _ => rfl
    | every => exact hexit fun _ _ => rfl
  · intro choice
    cases choice with
    | auto => exact hexit fun _ _ => rfl
    | only x => exact hexit fun _ _ => rfl
    | every => exact hexit fun _ _ => rfl

variable {i : Inspector} (hprepared : ((prepared o).run host s).1.2 = .ok i)

include hprepared

theorem run_children_auto :
    SaysBool o.format ((i.hasSubprocesses h).outcome.run host ((prepared o).run host s).2).1
      ((run ⟨o, .children h .auto⟩).run host s).1 := by
  have hquery (r : Run) (settings : Settings) : answer r o settings (.children h .auto) =
      Inspector.detect settings >>= fun i => do return some (← children r o i h none) := rfl
  rw [run_of_prepared hquery hprepared, Inquiry.run_bind]
  exact children_says host _ o i h _ none

theorem run_children_only (x : Subprocesses.Strategy) :
    SaysBool o.format ((i.hasSubprocessesVia x h).outcome.run host ((prepared o).run host s).2).1
      ((run ⟨o, .children h (.only x)⟩).run host s).1 := by
  have hquery (r : Run) (settings : Settings) : answer r o settings (.children h (.only x)) =
      Inspector.detect settings >>= fun i => do return some (← children r o i h (some x)) := rfl
  rw [run_of_prepared hquery hprepared, Inquiry.run_bind]
  exact children_says host _ o i h _ (some x)

theorem run_children_every :
    SaysBools o.format Subprocesses.Strategy.name ((i.hasSubprocessesAll h).run host ((prepared o).run host s).2).1
      ((run ⟨o, .children h .every⟩).run host s).1 := by
  have hquery (r : Run) (settings : Settings) : answer r o settings (.children h .every) =
      Inspector.detect settings >>= fun i => do
        let outcomes ← i.hasSubprocessesAll h
        let time ← Inquiry.timestamp
        return Answer.ofOutcomes? o.format .children h time Subprocesses.Strategy.name (· == ·) .ofBool
          (some <| .bool ·) outcomes := rfl
  have hne := Inspector.outcomes_ne_nil host i.subprocessGate (i.detectChildren h)
    (show Subprocesses.Strategy.all ≠ [] by decide) ((prepared o).run host s).2
  rw [run_of_prepared hquery hprepared, Inquiry.run_bind, Inquiry.run_bind, Inquiry.run_pure]
  obtain ⟨a, hanswer, hreports⟩ := Answer.exists_ofOutcomes? .children h _ Subprocesses.Strategy.name
    ExitCode.ofBool fun _ answer _ => ⟨_, rfl⟩
  rw [hanswer]
  exact saysBools_of_reports hne hreports

theorem run_directory_auto (hwrites : ∀ path,
      ((i.workingDirectoryVia .generic h).outcome.run host ((prepared o).run host s).2).1 = .ok path →
        o.format.Writes path) :
    SaysPath o.format ((i.workingDirectoryVia .generic h).outcome.run host ((prepared o).run host s).2).1
      ((run ⟨o, .directory h .auto⟩).run host s).1 := by
  have hquery (r : Run) (settings : Settings) : answer r o settings (.directory h .auto) =
      Inspector.detect settings >>= fun i => directory r o i h .generic := rfl
  rw [run_of_prepared hquery hprepared]
  exact directory_says host _ o i h _ .generic hwrites

theorem run_directory_only (x : WorkingDirectory.Strategy) (hwrites : ∀ path,
      ((i.workingDirectoryVia x h).outcome.run host ((prepared o).run host s).2).1 = .ok path → o.format.Writes path) :
    SaysPath o.format ((i.workingDirectoryVia x h).outcome.run host ((prepared o).run host s).2).1
      ((run ⟨o, .directory h (.only x)⟩).run host s).1 := by
  have hquery (r : Run) (settings : Settings) : answer r o settings (.directory h (.only x)) =
      Inspector.detect settings >>= fun i => directory r o i h x := rfl
  rw [run_of_prepared hquery hprepared]
  exact directory_says host _ o i h _ x hwrites

theorem run_directory_every
    (hwrites : ∀ path ∈ values ((i.workingDirectoryAll h).run host ((prepared o).run host s).2).1,
      o.format.Writes path) :
    SaysPaths o.format WorkingDirectory.Strategy.name
      ((i.workingDirectoryAll h).run host ((prepared o).run host s).2).1
      ((run ⟨o, .directory h .every⟩).run host s).1 := by
  have hquery (r : Run) (settings : Settings) : answer r o settings (.directory h .every) =
      Inspector.detect settings >>= fun i => do
        let outcomes ← i.workingDirectoryAll h
        return Answer.ofOutcomes? o.format .directory h (← Inquiry.timestamp) WorkingDirectory.Strategy.name
          Path.same (fun _ => .ok) Settings.pathToJson? outcomes := rfl
  have hne := Inspector.outcomes_ne_nil host i.directoryGate (i.resolveDirectory h)
    (show Inspector.directoryStrategies ≠ [] by decide) ((prepared o).run host s).2
  rw [run_of_prepared hquery hprepared, Inquiry.run_bind, Inquiry.run_bind, Inquiry.run_pure]
  obtain ⟨a, hanswer, hreports⟩ := Answer.exists_ofOutcomes? .directory h _ WorkingDirectory.Strategy.name
    (fun _ => ExitCode.ok) fun hformat path hpath => hwrites path hpath hformat
  rw [hanswer]
  exact saysPaths_of_reports hne hreports

end

/-- The exit code of a run that asks about a process is 0 or 1 for an answer, and for nothing else: for that of the
strategy that was asked, for the first one in the order of the platform, or for one on which all strategies that
have an answer agree. The object that is printed says the same, with an entry for each strategy in order. For a
directory that holds for paths that the format can write. -/
theorem exit_codes_carry_answers (host : Host σ) (o : Options) (h : Handle) (s : σ) :
    (∀ message, ((prepared o).run host s).1.2 = .error message →
      (∀ choice, ((run ⟨o, .children h choice⟩).run host s).1.exit = 10) ∧
        ∀ choice, ((run ⟨o, .directory h choice⟩).run host s).1.exit = 10) ∧
    ∀ r i t, (prepared o).run host s = ((r, .ok i), t) →
      (SaysBool o.format ((i.hasSubprocesses h).outcome.run host t).1 ((run ⟨o, .children h .auto⟩).run host s).1 ∧
        (∀ x, SaysBool o.format ((i.hasSubprocessesVia x h).outcome.run host t).1
          ((run ⟨o, .children h (.only x)⟩).run host s).1) ∧
        SaysBools o.format Subprocesses.Strategy.name ((i.hasSubprocessesAll h).run host t).1
          ((run ⟨o, .children h .every⟩).run host s).1 ∧
        ((i.hasSubprocessesAll h).run host t).1.map (·.1) = [.generic, .processGroup, .native, .procfs]) ∧
      (∀ x choice, choice = .only x ∨ choice = .auto ∧ x = .generic →
        (∀ path, ((i.workingDirectoryVia x h).outcome.run host t).1 = .ok path → o.format.Writes path) →
          SaysPath o.format ((i.workingDirectoryVia x h).outcome.run host t).1
            ((run ⟨o, .directory h choice⟩).run host s).1) ∧
      ((∀ path ∈ values ((i.workingDirectoryAll h).run host t).1, o.format.Writes path) →
        SaysPaths o.format WorkingDirectory.Strategy.name ((i.workingDirectoryAll h).run host t).1
          ((run ⟨o, .directory h .every⟩).run host s).1) ∧
      ((i.workingDirectoryAll h).run host t).1.map (·.1) = [.procfs, .lsof] := by
  refine ⟨fun message hrefused => exit_of_refused h hrefused, fun r i t hrun => ?_⟩
  have hprepared : ((prepared o).run host s).1.2 = .ok i := by rw [hrun]
  obtain rfl : ((prepared o).run host s).2 = t := by rw [hrun]
  refine ⟨⟨run_children_auto h hprepared, run_children_only h hprepared, run_children_every h hprepared, ?_⟩, ?_,
    run_directory_every h hprepared, ?_⟩
  · exact Inspector.strategies_outcomes host _ _ Subprocesses.Strategy.all _
  · rintro x choice (rfl | ⟨rfl, rfl⟩) hwrites
    · exact run_directory_only h hprepared x hwrites
    · exact run_directory_auto h hprepared hwrites
  · exact Inspector.strategies_outcomes host _ _ Inspector.directoryStrategies _

def printed : Options := ⟨.json, 0, false, none, none⟩

/-- The table of processes says that the first process of the family has children, and a link leads to a directory whose
path is a text: both runs exit with 0. -/
theorem exit_codes_carry_answers_family :
    (∃ r i t, (prepared printed).run Snapshot.familyHost () = ((r, .ok i), t)) ∧
      ((run ⟨printed, .children Snapshot.elder (.only .generic)⟩).run Snapshot.familyHost ()).1.exit = 0 ∧
      ((run ⟨printed, .children Snapshot.elder (.only .generic)⟩).run Snapshot.familyHost ()).1.field?
        "has_subprocesses" = some (.bool true) ∧
      ((run ⟨printed, .directory Inspector.nobody (.only .procfs)⟩).run
        WorkingDirectory.marked.toHost ()).1.exit = 0 := by
  obtain ⟨r, i, t, hrun, hsettings⟩ : ∃ r i t, (prepared printed).run Snapshot.familyHost () = ((r, .ok i), t) ∧
      i.settings = .default := ⟨_, _, _, rfl, rfl⟩
  have hsays := ((exit_codes_carry_answers Snapshot.familyHost printed Snapshot.elder ()).2 r i t hrun).1.2.1 .generic
  have hreported : Snapshot.family.Reported Snapshot.familyHost (fun _ => True) i.settings :=
    hsettings ▸ Snapshot.family_reported
  have hanswer : ((i.hasSubprocessesVia .generic Snapshot.elder).outcome.run Snapshot.familyHost t).1 = .ok true :=
    Query.ComesTo.within hreported.keeps _
      (hreported.detect_comesTo i.capabilities.selectsStates Snapshot.elder (by decide)) t trivial
  have hexit := hsays.yes.2 hanswer
  have hobject := hsays.object rfl true hanswer
  rw [hexit] at hobject
  refine ⟨⟨r, i, t, hrun⟩, hexit, hobject, ?_⟩
  obtain ⟨r', i', t', hrun', hsettings'⟩ : ∃ r i t, (prepared printed).run WorkingDirectory.marked.toHost () =
      ((r, .ok i), t) ∧ i.settings = .default := ⟨_, _, _, rfl, rfl⟩
  have hlinked : (WorkingDirectory.Sight.named "/srv (deleted)".toList).Linked WorkingDirectory.marked.link := rfl
  have hpath : ((i'.workingDirectoryVia .procfs Inspector.nobody).outcome.run WorkingDirectory.marked.toHost t').1 =
      .ok ⟨Utf8.encode "/srv (deleted)".toList⟩ := by
    have hlink := Known.inLink hlinked i'.settings.procRoot Inspector.nobody
    have htold := Query.ComesTo.within WorkingDirectory.marked.files_on.keeps
      (Inspector.span "working_directory_via" .resolve Inspector.nobody (some "procfs"))
      (WorkingDirectory.marked.files_on.viaLink_comesTo hlink) t' trivial
    exact Query.eq_ok_of_told htold
  have hdirectory :=
    (exit_codes_carry_answers WorkingDirectory.marked.toHost printed Inspector.nobody ()).2 r' i' t' hrun'
  refine (hdirectory.2.1 .procfs _ (.inl rfl) fun path hfound _ => ?_).found.2 ⟨_, hpath⟩
  rw [hpath] at hfound
  cases hfound
  rw [Settings.pathToJson?, Utf8.decode?_encode]
  exact ⟨_, rfl⟩

/-- A link to a path that is no text. -/
def oddLink : WorkingDirectory.Known where
  link := .ok ⟨[47, 0xFF]⟩
  probe := .ok ()
  stat := []
  exit := some 0
  lines := []

theorem pieces_odd : Utf8.pieces [47, 0xFF] = [.char '/', .invalid [0xFF]] := by
  have hslash : Utf8.next 47 [0xFF] = (.char '/', [0xFF]) := by decide
  have hodd : Utf8.next 0xFF [] = (.invalid [0xFF], []) := by decide
  rw [Utf8.pieces_cons, hslash, Utf8.pieces_cons, hodd, Utf8.pieces_nil]

theorem oddLink_found (i : Inspector) :
    ((i.workingDirectoryVia .procfs Inspector.nobody).outcome.run oddLink.toHost ()).1 = .ok ⟨[47, 0xFF]⟩ := by
  have hlink : Query.ComesTo oddLink.toHost (fun _ => True)
      (WorkingDirectory.viaLink i.settings.procRoot Inspector.nobody) _ :=
    oddLink.files_on.viaLink_comesTo_of_linked (P := (· = .ok ⟨[47, 0xFF]⟩)) (fun _ _ => rfl) fun _ _ => rfl
  obtain ⟨_, rfl, htold⟩ := Query.ComesTo.within oddLink.files_on.keeps
    (Inspector.span "working_directory_via" .resolve Inspector.nobody (some "procfs")) hlink () trivial
  have htext : Utf8.decodeLossy [47, 0xFF] = ['/', '\uFFFD'] := by
    rw [Utf8.decodeLossy, pieces_odd]
    rfl
  simp only [htext] at htold
  exact Query.eq_ok_of_told htold

/-- Three strategies can be asked for a directory, and the report of all of them has no entry for the default one. And a
directory whose path is no text is found without an object that could say so. -/
theorem exit_codes_miss_answers :
    WorkingDirectory.Strategy.all.map (·.name) = ["generic", "lsof", "procfs"] ∧
      (∃ results, ((run ⟨printed, .directory Inspector.nobody .every⟩).run Inspector.emptyHost ()).1.field?
          "results" = some (.array results) ∧
        results.map (Json.get? "strategy") = [some (.text "procfs"), some (.text "lsof")]) ∧
      told ((Inspector.equipped.workingDirectoryVia .procfs Inspector.nobody).outcome.run oddLink.toHost ()).1 =
        .ok ⟨[47, 0xFF]⟩ ∧
      ((run ⟨printed, .directory Inspector.nobody (.only .procfs)⟩).run oddLink.toHost ()).1.exit = 101 := by
  refine ⟨rfl, ⟨_, rfl, rfl⟩, congrArg told (oddLink_found Inspector.equipped), ?_⟩
  obtain ⟨r, i, hrun⟩ : ∃ r i, (prepared printed).run oddLink.toHost () = ((r, .ok i), ()) := ⟨_, _, rfl⟩
  have hprepared : ((prepared printed).run oddLink.toHost ()).1.2 = .ok i := by rw [hrun]
  have hquery (r : Run) (settings : Settings) :
      answer r printed settings (.directory Inspector.nobody (.only .procfs)) =
        Inspector.detect settings >>= fun i => directory r printed i Inspector.nobody .procfs := rfl
  have hwritten : Settings.pathToJson? ⟨[47, 0xFF]⟩ = none := by
    rw [Settings.pathToJson?, Utf8.decode?, pieces_odd]
    rfl
  have hnone (name time : String) : Answer.ofDirectory? .json Inspector.nobody name time ⟨[47, 0xFF]⟩ = none :=
    congrArg (Option.map _) hwritten
  rw [run_of_prepared hquery hprepared, hrun, directory, Inquiry.run_bind, oddLink_found]
  exact congrArg (fun answer? => (Outcome.ofAnswer? answer?).exit) (hnone _ _)

end ProcessProbe.CommandLine
