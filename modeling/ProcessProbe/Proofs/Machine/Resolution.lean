import ProcessProbe.Machine.Basic
import ProcessProbe.Proofs.Host.CanonicalPath

/-!
# Resolution on a machine

A way through the files of a machine leads to an entry by names only, and a way without links leads to the entry that
its own names say. So a machine resolves paths to canonical ones.
-/

namespace ProcessProbe.Machine

open ProcessProbe.Path (IsName)

namespace FileSystem

variable {fs : FileSystem} {follow : Bool} {links : Nat} {l l' : Location} {steps : List Bytes}

/-- A step that a part of a path may be. -/
structure IsStep (step : Bytes) : Prop where
  ne_nil : step ≠ []
  separator_not_mem : Path.separator ∉ step

theorem isStep_of_mem_stepsOf {path : Path} {step : Bytes} (h : step ∈ stepsOf path) : IsStep step := by
  have hdot : IsStep Path.dot := ⟨by decide, by decide⟩
  rcases List.mem_append.1 h with hpart | hlast
  · obtain ⟨hsegment, hfilled⟩ := List.mem_filter.1 hpart
    have hnone : Path.separator ∉ step := by
      intro hmem
      exact absurd (Text.not_of_mem_split hsegment _ hmem) (by simp)
    exact ⟨by simpa using hfilled, hnone⟩
  · split at hlast
    · rw [List.mem_singleton.1 hlast]
      exact hdot
    · contradiction

private theorem isName_of_isStep {step : Bytes} (hstep : IsStep step) (hdot : ¬step = Path.dot)
    (hdotDot : ¬step = Path.dotDot) : IsName step :=
  ⟨hstep.ne_nil, hstep.separator_not_mem, hdot, hdotDot⟩

theorem isName_of_walkFrom (hl : ∀ name ∈ l, IsName name) (hsteps : ∀ step ∈ steps, IsStep step)
    (h : fs.walkFrom follow links l steps = .ok l') : ∀ name ∈ l', IsName name := by
  -- The recursion of the walk: the steps of a link stand in for the link, and they are steps as well.
  fun_induction walkFrom fs follow links l steps with
  | case1 links l => exact Except.ok.inj h ▸ hl
  | case2 | case5 | case6 | case8 => contradiction
  | case3 links l rest _ ih => exact ih hl (fun step hstep => hsteps step (List.mem_cons_of_mem _ hstep)) h
  | case4 links l rest _ _ ih =>
    have hparent : ∀ name ∈ l.tail, IsName name := fun name hname => hl name (List.mem_of_mem_tail hname)
    exact ih hparent (fun step hstep => hsteps step (List.mem_cons_of_mem _ hstep)) h
  | case7 links l step rest _ hdot hdotDot =>
    have hstep : IsName step := isName_of_isStep (hsteps step List.mem_cons_self) hdot hdotDot
    rw [← Except.ok.inj h]
    exact List.forall_mem_cons.2 ⟨hstep, hl⟩
  | case9 l step rest _ _ _ _ target _ _ links ih =>
    have hfrom : ∀ name ∈ if target.isAbsolute then [] else l, IsName name := by
      intro name hname
      split at hname
      · contradiction
      · exact hl name hname
    have hway : ∀ step ∈ stepsOf target ++ rest, IsStep step := by
      intro step hstep
      rcases List.mem_append.1 hstep with hstep | hstep
      · exact isStep_of_mem_stepsOf hstep
      · exact hsteps step (List.mem_cons_of_mem _ hstep)
    exact ih hfrom hway h
  | case10 links l step rest _ hdot hdotDot _ node _ _ ih =>
    have hstep : IsName step := isName_of_isStep (hsteps step List.mem_cons_self) hdot hdotDot
    exact ih (List.forall_mem_cons.2 ⟨hstep, hl⟩) (fun step hstep => hsteps step (List.mem_cons_of_mem _ hstep)) h

theorem walkFrom_names (hnames : ∀ name ∈ steps, IsName name)
    (hfree : ∀ leading, leading <+: steps → ∀ target, fs.node? (leading.reverse ++ l) ≠ some (.link target))
    (h : fs.walkFrom follow links l steps = .ok l') : l' = steps.reverse ++ l := by
  induction steps generalizing l with
  | nil =>
    rw [walkFrom] at h
    exact (Except.ok.inj h).symm
  | cons step rest ih =>
    obtain ⟨-, -, hdot, hdotDot⟩ := hnames step List.mem_cons_self
    have hfirst : ∀ target, fs.node? (step :: l) ≠ some (.link target) := hfree [step] ⟨rest, rfl⟩
    have hrest : ∀ leading, leading <+: rest →
        ∀ target, fs.node? (leading.reverse ++ step :: l) ≠ some (.link target) := by
      intro leading hleading
      have hlonger := hfree (step :: leading) (List.cons_prefix_cons.2 ⟨rfl, hleading⟩)
      rwa [List.reverse_cons, List.append_assoc] at hlonger
    rw [walkFrom, if_neg hdot, if_neg hdotDot] at h
    split at h
    · contradiction
    · split at h
      · contradiction
      · split at h
        · contradiction
        · exact absurd ‹_› (hfirst _)
        · rw [ih (fun name hname => hnames name (List.mem_cons_of_mem _ hname)) hrest h]
          simp

theorem stepsOf_ofNames {names : List Bytes} (hnames : ∀ name ∈ names, IsName name) (hne : names ≠ []) :
    stepsOf (.ofNames names) = names := by
  have hlast : ([] :: names).getLast? ≠ some [] := by
    rw [List.getLast?_cons_of_ne_nil hne]
    intro hlast
    exact (hnames [] (List.mem_of_getLast? hlast)).ne_nil rfl
  have hfilled : names.filter (!·.isEmpty) = names := by
    rw [List.filter_eq_self]
    intro name hname
    simpa using (hnames name hname).ne_nil
  simp only [stepsOf, Path.segments_ofNames hnames hne, if_neg hlast, List.append_nil]
  exact hfilled

end FileSystem

/-- The path of an entry that is a link. -/
def IsLink (m : Machine) (path : Path) : Prop := ∃ target, m.files.node? path.names.reverse = some (.link target)

private theorem resolve_of_answer {m : Machine} {raw path : Path} (h : (host.answer (.resolve raw) m).1 = .ok path) :
    m.files.resolve raw = .ok path := by
  change m.call .canonical raw FileSystem.resolve = .ok path at h
  rw [call] at h
  split at h
  · contradiction
  · rw [faulty] at h
    split at h
    · contradiction
    · exact h

theorem exists_walk_of_resolve {fs : FileSystem} {raw path : Path} (h : fs.resolve raw = .ok path) :
    ∃ l, fs.walkFrom true FileSystem.maxLinks [] (FileSystem.stepsOf raw) = .ok l ∧ path = .ofNames l.reverse := by
  rw [FileSystem.resolve, FileSystem.walk] at h
  split at h
  · contradiction
  · split at h
    · contradiction
    · cases hwalk : fs.walkFrom true FileSystem.maxLinks [] (FileSystem.stepsOf raw) with
      | error e =>
        rw [hwalk] at h
        contradiction
      | ok l =>
        rw [hwalk] at h
        exact ⟨l, rfl, (Except.ok.inj h).symm⟩

/-- A machine resolves paths to canonical ones, and a path without links on the way to itself. -/
theorem canonicalizes : host.Canonicalizes IsLink where
  isNamed := by
    intro m raw path h
    obtain ⟨l, hwalk, rfl⟩ := exists_walk_of_resolve (resolve_of_answer h)
    have hnames := FileSystem.isName_of_walkFrom (fun _ hnil => absurd hnil List.not_mem_nil)
      (fun _ => FileSystem.isStep_of_mem_stepsOf) hwalk
    exact ⟨l.reverse, fun name hname => hnames name (List.mem_reverse.1 hname), rfl⟩
  eq_self := by
    intro m path resolved ⟨names, hnames, hpath⟩ hfree h
    subst hpath
    obtain ⟨l, hwalk, rfl⟩ := exists_walk_of_resolve (resolve_of_answer h)
    by_cases hne : names = []
    · subst hne
      have hroot : FileSystem.stepsOf (.ofNames []) = [Path.dot] := by decide
      rw [hroot, FileSystem.walkFrom, if_neg (by simp [FileSystem.node?]), if_pos rfl, FileSystem.walkFrom] at hwalk
      rw [← Except.ok.inj hwalk]
      rfl
    · rw [FileSystem.stepsOf_ofNames hnames hne] at hwalk
      have hway : ∀ leading, leading <+: names →
          ∀ target, m.files.node? (leading.reverse ++ []) ≠ some (.link target) := by
        intro leading hleading target htarget
        have hleads : ∀ name ∈ leading, IsName name := fun name hname => hnames name (hleading.subset hname)
        apply hfree leading (by rwa [Path.names_ofNames hnames])
        rw [List.append_nil] at htarget
        exact ⟨target, by rwa [Path.names_ofNames hleads]⟩
      rw [FileSystem.walkFrom_names hnames hway hwalk, List.append_nil, List.reverse_reverse]

end ProcessProbe.Machine
