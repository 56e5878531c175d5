import Mathlib
import ProcessProbe.Proofs.Machine.Resolution
import ProcessProbe.Proofs.Query.Answers
import ProcessProbe.Proofs.Query.Inspector

/-!
# Answers are canonical paths

A working directory is what the host resolves a raw answer to, or that answer taken by its text when it may not be
followed. Main statement: either way it is canonical, and as long as it is there with no link on the way to it, it is
the canonical form of itself.
-/

namespace ProcessProbe

variable {S α σ : Type} {host : Host σ} {link : σ → Path → Prop} {P : α → Prop}

open Query (AnswersOnly)

namespace WorkingDirectory

open Diagnostic (Policy)

section

variable (hcanonical : host.Canonicalizes link)

include hcanonical

theorem canonical_isNamed (h : Handle) (raw : Path) (backend : String) :
    AnswersOnly host (canonical h raw backend) Path.IsNamed := by
  rw [canonical]
  refine AnswersOnly.check fun _ => ?_
  have hresolved : Inquiry.ComesTo host (fun _ => True) (Inquiry.resolve raw)
      fun answer => ∀ path, answer = .ok path → path.IsNamed :=
    Inquiry.ComesTo.send fun s _ => hcanonical.isNamed s raw
  refine AnswersOnly.bind_lift hresolved fun answer hanswer => ?_
  cases answer with
  | ok path => exact AnswersOnly.pure (hanswer path rfl)
  | error e =>
    simp only
    split
    · exact AnswersOnly.throw
    · split
      · exact AnswersOnly.pure raw.isNamed_lexicallyNormal
      · exact AnswersOnly.throw

theorem settle_isNamed (h : Handle) (raw : Path) (text : List Char) (backend : String) :
    AnswersOnly host (settle h raw text backend) Path.IsNamed := by
  refine AnswersOnly.bind_lift_any fun gone => ?_
  cases gone with
  | some text => exact AnswersOnly.throw
  | none => exact canonical_isNamed hcanonical h raw backend

theorem viaLink_isNamed (procRoot : Path) (h : Handle) : AnswersOnly host (viaLink procRoot h) Path.IsNamed := by
  refine AnswersOnly.bind_lift_any fun mounted => AnswersOnly.check fun _ => AnswersOnly.bind_lift_any fun answer => ?_
  cases answer with
  | error e => exact AnswersOnly.throw
  | ok target => exact settle_isNamed hcanonical h target _ "procfs"

theorem viaReport_isNamed (p : Policy) (procRoot : Path) (h : Handle) :
    AnswersOnly host (viaReport p procRoot h) Path.IsNamed := by
  refine AnswersOnly.bind_lift_any fun result => ?_
  cases result with
  | error e => exact AnswersOnly.throw
  | ok o =>
    refine AnswersOnly.check fun _ => ?_
    split
    · exact AnswersOnly.throw
    · exact settle_isNamed hcanonical h _ _ "lsof"
    · exact AnswersOnly.throw
    · split
      · exact AnswersOnly.bind_any fun _ => AnswersOnly.throw
      · exact AnswersOnly.throw

theorem resolve_isNamed (p : Policy) (procRoot : Path) (h : Handle) (x : Strategy) :
    AnswersOnly host (resolve p procRoot h x) Path.IsNamed := by
  cases x with
  | procfs => exact viaLink_isNamed hcanonical procRoot h
  | lsof => exact viaReport_isNamed hcanonical p procRoot h
  | generic => exact AnswersOnly.throw

theorem canonical_eq_self {path resolved : Path} (hnamed : path.IsNamed) {s : σ} (hfree : path.LinkFree (link s))
    (hresolved : (host.answer (.resolve path) s).1 = .ok resolved) (h : Handle) (backend : String) :
    ((canonical h path backend).outcome.run host s).1 = .ok path := by
  have habsolute : path.isAbsolute = true := hnamed.isCanonical.absolute
  have hself : resolved = path := hcanonical.eq_self s path resolved hnamed hfree hresolved
  rw [canonical, habsolute]
  simp only [Bool.not_true, Bool.false_eq_true, if_false]
  rw [Query.outcome_lift_bind, Inquiry.run_bind]
  have hanswer : ((Inquiry.resolve path).run host s).1 = .ok path := hself ▸ hresolved
  rw [hanswer]
  rfl

end

end WorkingDirectory

namespace Inspector

theorem outcomes_answer {gate : S → Except Failure Unit} {attempt : S → Query α}
    (hattempt : ∀ x, AnswersOnly host (attempt x) P) (xs : List S) :
    Inquiry.ComesTo host (fun _ => True) (outcomes gate attempt xs)
      fun entries => ∀ x value, (x, .ok value) ∈ entries → P value := by
  have hreported (x : S) : Inquiry.ComesTo host (fun _ => True) (reported gate attempt x)
      fun outcome => ∀ value, outcome = .ok value → P value :=
    reported_comesTo (fun _ _ => AnswersOnly.of_failed) fun _ => hattempt x
  refine (outcomes_forall host.keeps_any hreported xs).mono fun entries hentries => ?_
  intro x value hentry
  exact hentries _ hentry value rfl

/-- The ways to a working directory on a host: one strategy alone, the order of strategies, a chosen strategy, and the
report of all of them. -/
inductive Finds (host : Host σ) (s : σ) (h : Handle) (path : Path) : Prop where
  | link {procRoot : Path} (hfound : ((WorkingDirectory.viaLink procRoot h).outcome.run host s).1 = .ok path)
  | report {p : Diagnostic.Policy} {procRoot : Path}
      (hfound : ((WorkingDirectory.viaReport p procRoot h).outcome.run host s).1 = .ok path)
  | ordered {i : Inspector} (hfound : ((i.workingDirectory h).outcome.run host s).1 = .ok path)
  | chosen {i : Inspector} {x : WorkingDirectory.Strategy}
      (hfound : ((i.workingDirectoryVia x h).outcome.run host s).1 = .ok path)
  | listed {i : Inspector} {x : WorkingDirectory.Strategy}
      (hfound : (x, .ok path) ∈ ((i.workingDirectoryAll h).run host s).1)

section

variable (hcanonical : host.Canonicalizes link) (i : Inspector) (h : Handle)

include hcanonical

theorem workingDirectory_isNamed : AnswersOnly host (i.workingDirectory h) Path.IsNamed :=
  AnswersOnly.within _ (AnswersOnly.tryOrder fun x _ =>
    WorkingDirectory.resolve_isNamed hcanonical i.settings.policy i.settings.procRoot h x)

theorem workingDirectoryVia_isNamed (x : WorkingDirectory.Strategy) :
    AnswersOnly host (i.workingDirectoryVia x h) Path.IsNamed := by
  apply AnswersOnly.within
  cases x with
  | generic => exact workingDirectory_isNamed hcanonical i h
  | lsof => exact WorkingDirectory.viaReport_isNamed hcanonical i.settings.policy i.settings.procRoot h
  | procfs => exact WorkingDirectory.viaLink_isNamed hcanonical i.settings.procRoot h

theorem Finds.isNamed {s : σ} {h : Handle} {path : Path} (hfinds : Finds host s h path) : path.IsNamed := by
  cases hfinds with
  | link hfound => exact WorkingDirectory.viaLink_isNamed hcanonical _ h s trivial path hfound
  | report hfound => exact WorkingDirectory.viaReport_isNamed hcanonical _ _ h s trivial path hfound
  | ordered hfound => exact workingDirectory_isNamed hcanonical _ h s trivial path hfound
  | chosen hfound => exact workingDirectoryVia_isNamed hcanonical _ h _ s trivial path hfound
  | listed hfound =>
    exact outcomes_answer (fun x => WorkingDirectory.resolve_isNamed hcanonical _ _ h x) _ s trivial _ path hfound

/-- Whichever way a working directory is found, it is a canonical path, and in every state in which it resolves without
a link on the way it is the canonical form of itself. -/
theorem directories_are_canonical {s : σ} {h : Handle} {path : Path} (hfinds : Finds host s h path) :
    path.IsCanonical ∧ ∀ (s' : σ) (h' : Handle) (backend : String) (resolved : Path), path.LinkFree (link s') →
      (host.answer (.resolve path) s').1 = .ok resolved →
        ((WorkingDirectory.canonical h' path backend).outcome.run host s').1 = .ok path := by
  have hnamed : path.IsNamed := hfinds.isNamed hcanonical
  refine ⟨hnamed.isCanonical, ?_⟩
  intro s' h' backend resolved hfree hresolved
  exact WorkingDirectory.canonical_eq_self hcanonical hnamed hfree hresolved h' backend

end

end Inspector

namespace Machine

def detour : Path := .ofString "/srv/../home//user/."

/-- The process 7 works in `/home/user`, and its link takes a way through a directory that the caller may not enter. -/
def guarded : Machine :=
  { empty (.ofString "/opt") ⟨"linux", none, "x86_64"⟩ 1 "" ("", "") with
    files := ⟨[([.ofString "cwd", .ofString "7", .ofString "proc"], .link detour),
      ([.ofString "7", .ofString "proc"], .directory), ([.ofString "proc"], .directory),
      ([.ofString "srv"], .directory), ([.ofString "user", .ofString "home"], .directory),
      ([.ofString "home"], .directory)]⟩
    faults := [((.canonical, detour), some .accessDenied)] }

def seven : Handle := ⟨7, by decide, by decide⟩

private theorem found_guarded :
    ((WorkingDirectory.viaLink (.ofString "/proc") seven).outcome.run Machine.host guarded).1 =
      .ok (.ofString "/home/user") := by
  have hmounted : (Inquiry.isDirectory (.ofString "/proc")).run Machine.host guarded = (true, guarded) :=
    Prod.ext (by cbv) rfl
  have hlink : (Inquiry.readLink (Liveness.entry (.ofString "/proc") seven.pid "cwd")).run Machine.host guarded =
      (.ok detour, guarded) := Prod.ext (by cbv) rfl
  have htext : Utf8.decodeLossy detour.bytes = "/srv/../home//user/.".toList := Utf8.decodeLossy_encode _
  rw [WorkingDirectory.viaLink, Query.outcome_lift_bind, Inquiry.run_bind, hmounted]
  simp only [Bool.not_true, Bool.false_eq_true, if_false]
  rw [Query.outcome_lift_bind, Inquiry.run_bind, hlink]
  have hthere : WorkingDirectory.deletedTarget? "/srv/../home//user/.".toList = pure none := if_neg (by decide)
  simp only [htext, WorkingDirectory.settle, hthere]
  rw [Query.outcome_lift_bind, pure_bind]
  cbv

/-- Nothing that the path holds is a link, so it stays what it is when it may be followed. -/
theorem directories_are_canonical_guarded :
    (Path.ofString "/home/user").IsCanonical ∧
      ((WorkingDirectory.canonical seven (.ofString "/home/user") "procfs").outcome.run Machine.host guarded).1 =
        .ok (.ofString "/home/user") := by
  have hfinds : Inspector.Finds Machine.host guarded seven (.ofString "/home/user") := .link found_guarded
  have hresolved : (Machine.host.answer (.resolve (.ofString "/home/user")) guarded).1 = .ok (.ofString "/home/user") := by cbv
  have hfree : (Path.ofString "/home/user").LinkFree (guarded.IsLink) := by
    have hdirectories : ∀ leading ∈ (Path.ofString "/home/user").names.inits,
        guarded.files.node? (Path.ofNames leading).names.reverse = some .directory := by decide
    rintro leading hleading ⟨target, htarget⟩
    rw [hdirectories leading ((List.mem_inits leading _).2 hleading)] at htarget
    exact absurd htarget (by simp)
  obtain ⟨hform, hself⟩ := Inspector.directories_are_canonical canonicalizes hfinds
  exact ⟨hform, hself guarded seven "procfs" _ hfree hresolved⟩

end Machine

end ProcessProbe
