import Mathlib
import ProcessProbe.Machine.Basic
import ProcessProbe.Proofs.Query.RawAnswers

/-!
# Directories that look removed

A directory may have a name that ends as if it were removed. Whether it is there is asked of the path that is shown for
it, which is another one when the path is no text. Main statement: a directory that is there is found just when its path
has no mark or there is an entry under the path that is shown for it, so it is found whenever its path is a text.
-/

namespace ProcessProbe

namespace WorkingDirectory

variable {σ : Type} {host : Host σ} {steady : σ → Prop} {files : Files} {settings : Settings} {h : Handle} {s s' : σ}
  {x : Strategy} {raw target c : Path}

theorem RawAnswer.keeps_steady (hkeeps : host.Keeps steady) (hraw : RawAnswer host settings h s x raw s')
    (hs : steady s) : steady s' := by
  cases hraw with
  | link hmounted hlinked =>
    have hs₁ := hkeeps (.isDirectory settings.procRoot) s hs
    rw [hmounted] at hs₁
    have hs₂ := hkeeps (.readLink (Liveness.entry settings.procRoot h.pid "cwd")) _ hs₁
    rwa [hlinked] at hs₂
  | report hrun hname =>
    have hs₁ := hkeeps (.run (reportRun settings h)) s hs
    rwa [hrun] at hs₁

/-- The directory looks removed: its path is marked, and there is no entry under the path that is shown for it. -/
def Files.Loses (files : Files) (target : Path) : Prop := IsMarked target ∧ files.present target.asShown = false

theorem Files.On.takenForRemoved_iff (hfiles : files.On host steady) (hs : steady s) :
    TakenForRemoved host s target ↔ files.Loses target := by
  rw [TakenForRemoved, hfiles.present _ s hs]
  rfl

theorem Files.answer_of_not_loses (hkept : ¬files.Loses target) (habsolute : target.isAbsolute = true)
    (hresolved : files.resolved target = .ok c) :
    files.answer h target (Utf8.decodeLossy target.bytes) = .ok c := by
  rw [answer, if_neg, if_neg (by simp [habsolute]), hresolved]
  rintro ⟨hmarked, habsent⟩
  exact hkept ⟨isSuffixOf_decodeLossy_iff.1 hmarked, target.asShown_eq.symm ▸ habsent⟩

/-- When the directory that the link leads to is found, given that it is there and has a canonical path: unless its path
is marked and there is no entry under the path that is shown for it. It is said to be removed then. A text is shown as
it is, so a directory whose path is one is found whatever its name ends in. -/
theorem existing_directory_found_iff (hfiles : files.On host steady) (hs : steady s)
    (hraw : RawAnswer host settings h s .procfs target s') (habsolute : target.isAbsolute = true)
    (hpresent : files.present target = true) (hresolved : files.resolved target = .ok c) :
    (((viaLink settings.procRoot h).outcome.run host s).1 = .ok c ↔
        ¬(IsMarked target ∧ files.present target.asShown = false)) ∧
      (((viaLink settings.procRoot h).outcome.run host s).1 = .error (.unavailable h.pid (removedReason target)) ↔
        IsMarked target ∧ files.present target.asShown = false) ∧
      ∀ text, target.bytes = Utf8.encode text → ((viaLink settings.procRoot h).outcome.run host s).1 = .ok c := by
  have hs' : steady s' := hraw.keeps_steady hfiles.keeps hs
  have hsettle : (viaLink settings.procRoot h).outcome.run host s =
      (settle h target (Utf8.decodeLossy target.bytes) "procfs").outcome.run host s' := hraw.run_eq
  rw [hsettle]
  have hlost (hloses : files.Loses target) :=
    run_settle_of_taken h "procfs" ((hfiles.takenForRemoved_iff hs').2 hloses)
  have hfound (hkept : ¬files.Loses target) :
      ((settle h target (Utf8.decodeLossy target.bytes) "procfs").outcome.run host s').1 = .ok c := by
    have htold := hfiles.settle_comesTo (h := h) target (Utf8.decodeLossy target.bytes) "procfs" s' hs'
    exact Query.eq_ok_of_told (htold.trans (files.answer_of_not_loses hkept habsolute hresolved))
  have htext {text : List Char} (htext : target.bytes = Utf8.encode text) : ¬files.Loses target := by
    rintro ⟨-, habsent⟩
    rw [Path.asShown_of_text htext, hpresent] at habsent
    contradiction
  change (_ ↔ ¬files.Loses target) ∧ (_ ↔ files.Loses target) ∧ _
  refine ⟨⟨fun hok hloses => ?_, hfound⟩, ⟨fun hfailed => ?_, hlost⟩, fun _ hbytes => hfound (htext hbytes)⟩
  · rw [hlost hloses] at hok
    contradiction
  · by_contra hkept
    rw [hfound hkept] at hfailed
    contradiction

end WorkingDirectory

namespace Machine

open WorkingDirectory (Files RawAnswer IsMarked viaLink removedReason)

/-- What the machine makes of paths. -/
def shownFiles (m : Machine) : Files where
  resolved path := m.call .canonical path FileSystem.resolve
  present path := (m.node? path).isSome

/-- The machine has the same entries and faults. -/
def SameFiles (m m' : Machine) : Prop := m'.files = m.files ∧ m'.faults = m.faults

theorem shownFiles_on (m : Machine) : m.shownFiles.On host m.SameFiles where
  keeps := by
    intro request m' hsame
    cases request with
    | run invocation =>
      change m.SameFiles (m'.start invocation).2
      rw [start]
      split <;> exact hsame
    | _ => exact hsame
  resolved := by
    rintro path m' ⟨hfiles, hfaults⟩
    change m'.call .canonical path FileSystem.resolve = m.call .canonical path FileSystem.resolve
    simp only [call, faulty, hfiles, hfaults]
  present := by
    rintro path m' ⟨hfiles, -⟩
    change (m'.node? path).isSome = (m.node? path).isSome
    simp only [node?, entry, hfiles]

/-- A machine with a directory of this name in the root, where the process 5 works. -/
def workingIn (name : Bytes) : Machine :=
  { empty (.ofString "/opt") ⟨"linux", none, "x86_64"⟩ 1 "" ("", "") with
    files := ⟨[([.ofString "cwd", .ofString "5", .ofString "proc"], .link (.ofNames [name])),
      ([.ofString "5", .ofString "proc"], .directory), ([.ofString "proc"], .directory), ([name], .directory)]⟩ }

/-- A name that ends as if its directory were removed. -/
def markedName : Bytes := .ofString "x (deleted)"

/-- A name of this kind that is no text. -/
def strangeName : Bytes := 0xFF :: Bytes.ofString " (deleted)"

theorem existing_directory_found_marked : IsMarked (.ofNames [markedName]) ∧
    ((viaLink Settings.defaultProcRoot Inspector.nobody).outcome.run host (workingIn markedName)).1 =
      .ok (.ofNames [markedName]) := by
  have hlink : RawAnswer host .default Inspector.nobody (workingIn markedName) .procfs (.ofNames [markedName])
      (workingIn markedName) := .link (Prod.ext (by cbv) rfl) (Prod.ext (by cbv) rfl)
  have hfound := WorkingDirectory.existing_directory_found_iff (shownFiles_on _) ⟨rfl, rfl⟩ hlink (by decide)
    (by cbv) (by cbv)
  exact ⟨by decide, hfound.2.2 "/x (deleted)".toList rfl⟩

theorem decodeLossy_strange : Utf8.decodeLossy (Path.ofNames [strangeName]).bytes = "/\uFFFD (deleted)".toList := by
  have hslash : Utf8.next 47 strangeName = (.char '/', strangeName) := by decide
  have hodd : Utf8.next 0xFF (Bytes.ofString " (deleted)") = (.invalid [0xFF], Bytes.ofString " (deleted)") := by decide
  have hrest : Utf8.pieces (Bytes.ofString " (deleted)") = " (deleted)".toList.map .char := Utf8.pieces_encode _
  change (Utf8.pieces (47 :: strangeName)).map Utf8.Piece.shown = _
  rw [Utf8.pieces_cons, hslash, strangeName, Utf8.pieces_cons, hodd, hrest]
  rfl

/-- The directory is there and is its own canonical path, and it is said to be removed. -/
theorem existing_directory_missed :
    (workingIn strangeName).node? (.ofNames [strangeName]) = some .directory ∧
      (workingIn strangeName).shownFiles.resolved (.ofNames [strangeName]) = .ok (.ofNames [strangeName]) ∧
      ((viaLink Settings.defaultProcRoot Inspector.nobody).outcome.run host (workingIn strangeName)).1 =
        .error (.unavailable 5 "directory /\uFFFD was deleted") := by
  refine ⟨by cbv, by cbv, ?_⟩
  have hlink : RawAnswer host .default Inspector.nobody (workingIn strangeName) .procfs (.ofNames [strangeName])
      (workingIn strangeName) := .link (Prod.ext (by cbv) rfl) (Prod.ext (by cbv) rfl)
  have htaken : WorkingDirectory.TakenForRemoved host (workingIn strangeName) (.ofNames [strangeName]) := by
    refine ⟨by decide, ?_⟩
    rw [Path.asShown_eq, decodeLossy_strange]
    cbv
  have hreason : removedReason (.ofNames [strangeName]) = "directory /\uFFFD was deleted" := by
    rw [removedReason, decodeLossy_strange]
    rfl
  rw [← hreason]
  exact (congrArg Prod.fst hlink.run_eq).trans (WorkingDirectory.run_settle_of_taken _ _ htaken)

end Machine

end ProcessProbe
