import Mathlib
import ProcessProbe.Proofs.Host.Steady
import ProcessProbe.Proofs.Machine.Resolution
import ProcessProbe.Query.WorkingDirectory

/-!
# Paths without links

Where there are no links, the components of a path lead from directory to directory by what they say themselves. Main
statement: there an absolute path that leads somewhere is taken by its text to the path that it resolves to, so the
answer for a path that may not be followed is the one for a path that may. Wherever it leads, its text gives an absolute
path of names only, which is its own lexical form.
-/

namespace ProcessProbe.Machine

open ProcessProbe.Path (Component IsName ofNames)

namespace FileSystem

def HasNoLinks (fs : FileSystem) : Prop := ∀ l target, fs.node? l ≠ some (.link target)

/-- The components lead from one location to another. Each is taken in a directory: a name to the entry of that name,
and `..` to the directory above, which is the root itself for the root. -/
inductive Leads (fs : FileSystem) : Location → List Component → Location → Prop where
  | arrived {l : Location} : Leads fs l [] l
  | root {l l' : Location} {rest : List Component} (hrest : Leads fs [] rest l') : Leads fs l (.root :: rest) l'
  | current {l l' : Location} {rest : List Component} (hdirectory : fs.node? l = some .directory)
      (hrest : Leads fs l rest l') : Leads fs l (.current :: rest) l'
  | parent {l l' : Location} {rest : List Component} (hdirectory : fs.node? l = some .directory)
      (hrest : Leads fs l.tail rest l') : Leads fs l (.parent :: rest) l'
  | entry {l l' : Location} {rest : List Component} {name : Bytes} {node : Node}
      (hdirectory : fs.node? l = some .directory) (hentry : fs.node? (name :: l) = some node)
      (hrest : Leads fs (name :: l) rest l') : Leads fs l (.normal name :: rest) l'

variable {fs : FileSystem} {follow : Bool} {links : Nat} {l l' : Location} {steps : List Bytes}
  {components : List Component}

theorem hasNoLinks_of_forall (h : ∀ entry ∈ fs.nodes, ∀ target, entry.2 ≠ .link target) : fs.HasNoLinks := by
  intro l target hlink
  rw [node?] at hlink
  split at hlink
  · simp at hlink
  · obtain ⟨entry, hentry, hnode⟩ := Option.map_eq_some_iff.1 hlink
    exact h entry (List.mem_of_find?_eq_some hentry) target hnode

theorem Leads.eq_foldl (h : fs.Leads l components l') : l' = components.foldl Path.follow l := by
  induction h with
  | arrived => rfl
  | root _ ih | current _ _ ih | parent _ _ ih | entry _ _ _ ih => exact ih

theorem Leads.lexicallyNormal_eq {p : Path} (h : fs.Leads [] p.components l) :
    p.lexicallyNormal = ofNames l.reverse := by
  rw [Path.lexicallyNormal, h.eq_foldl]

/-! ## The walk -/

theorem filterMap_stepsOf (p : Path) :
    (stepsOf p).filterMap Component.ofSegment? = p.segments.filterMap Component.ofSegment? := by
  have hlast : (if p.segments.getLast? = some [] then [Path.dot] else []).filterMap Component.ofSegment? = [] := by
    split <;> rfl
  have hfilled : (p.segments.filter (!·.isEmpty)).filterMap Component.ofSegment? =
      p.segments.filterMap Component.ofSegment? := by
    rw [List.filterMap_filter]
    apply List.filterMap_congr
    intro segment _
    cases segment <;> rfl
  rw [stepsOf, List.filterMap_append, hfilled, hlast, List.append_nil]

theorem components_of_isAbsolute {p : Path} (habsolute : p.isAbsolute = true) :
    p.components = .root :: (stepsOf p).filterMap Component.ofSegment? := by
  rw [Path.components, habsolute, filterMap_stepsOf]
  rfl

/-- A walk that arrives has gone where the components of its steps lead. -/
theorem leads_of_walkFrom (hfree : fs.HasNoLinks) (hsteps : ∀ step ∈ steps, IsStep step)
    (h : fs.walkFrom follow links l steps = .ok l') : fs.Leads l (steps.filterMap Component.ofSegment?) l' := by
  fun_induction walkFrom fs follow links l steps with
  | case1 => exact Except.ok.inj h ▸ .arrived
  | case2 | case5 | case6 | case8 => contradiction
  | case3 links l rest _ ih => exact ih (fun step hstep => hsteps step (List.mem_cons_of_mem _ hstep)) h
  | case4 links l rest hdirectory _ ih =>
    have hrest := ih (fun step hstep => hsteps step (List.mem_cons_of_mem _ hstep)) h
    exact .parent (by simpa using hdirectory) hrest
  | case7 links l step rest _ _ _ _ target hlink => exact absurd hlink (hfree _ _)
  | case9 l step rest _ _ _ _ target hlink => exact absurd hlink (hfree _ _)
  | case10 links l step rest hdirectory hdot hdotDot _ node _ hnode ih =>
    have hne : step ≠ [] := (hsteps step List.mem_cons_self).ne_nil
    have hrest := ih (fun step hstep => hsteps step (List.mem_cons_of_mem _ hstep)) h
    have hname : Component.ofSegment? step = some (.normal step) := by simp [Component.ofSegment?, hne, hdot, hdotDot]
    rw [List.filterMap_cons_some hname]
    exact .entry (by simpa using hdirectory) hnode hrest

theorem exists_leads_of_resolve (hfree : fs.HasNoLinks) {p c : Path} (habsolute : p.isAbsolute = true)
    (h : fs.resolve p = .ok c) : ∃ l, fs.Leads [] p.components l ∧ c = ofNames l.reverse := by
  obtain ⟨l, hwalk, hc⟩ := exists_walk_of_resolve h
  refine ⟨l, ?_, hc⟩
  rw [components_of_isAbsolute habsolute]
  exact .root (leads_of_walkFrom hfree (fun _ => isStep_of_mem_stepsOf) hwalk)

end FileSystem

theorem canonical_of_denied {σ : Type} {host : Host σ} {s : σ} {p : Path} {e : SystemError}
    (habsolute : p.isAbsolute = true) (hdenied : e.isDenied = true)
    (hresolve : (host.answer (.resolve p) s).1 = .error e) (h : Handle) (backend : String) :
    ((WorkingDirectory.canonical h p backend).outcome.run host s).1 = .ok p.lexicallyNormal := by
  have hfound : e.isNotFound = false := by
    rw [SystemError.isDenied, Bool.or_eq_true, beq_iff_eq, beq_iff_eq] at hdenied
    rcases hdenied with rfl | rfl <;> decide
  have hanswer : ((Inquiry.resolve p).run host s).1 = .error e := hresolve
  rw [WorkingDirectory.canonical, habsolute]
  simp only [Bool.not_true, Bool.false_eq_true, if_false]
  rw [Query.outcome_lift_bind, Inquiry.run_bind, hanswer]
  simp only [hfound, hdenied]
  rfl

/-- Without links, an absolute path has as its lexical form the location that its components lead to, which is the path
it resolves to; so that is the answer of a host that may not follow it. In any case the lexical form is absolute, has
names only, and is its own lexical form. -/
theorem lexical_form_resolves {p : Path} (habsolute : p.isAbsolute = true) :
    (∀ fs : FileSystem, fs.HasNoLinks →
      (∀ l, fs.Leads [] p.components l → p.lexicallyNormal = ofNames l.reverse) ∧
        ∀ c, fs.resolve p = .ok c → p.lexicallyNormal = c ∧
          ∀ {σ : Type} (host : Host σ) (s : σ) (e : SystemError) (h : Handle) (backend : String),
            (host.answer (.resolve p) s).1 = .error e → e.isDenied = true →
              ((WorkingDirectory.canonical h p backend).outcome.run host s).1 = .ok c) ∧
      p.lexicallyNormal.isAbsolute = true ∧
      (∃ names : List Bytes, (∀ name ∈ names, IsName name) ∧
        p.lexicallyNormal.components = .root :: names.map .normal) ∧
      p.lexicallyNormal.lexicallyNormal = p.lexicallyNormal := by
  have hnamed : p.lexicallyNormal.IsNamed := p.isNamed_lexicallyNormal
  obtain ⟨names, hnames, hform⟩ := p.isNamed_lexicallyNormal
  refine ⟨fun fs hfree => ⟨fun l hleads => hleads.lexicallyNormal_eq, ?_⟩, hnamed.isCanonical.absolute,
    ⟨names, hnames, ?_⟩, hnamed.lexicallyNormal_eq⟩
  · intro c hresolve
    obtain ⟨l, hleads, rfl⟩ := FileSystem.exists_leads_of_resolve hfree habsolute hresolve
    refine ⟨hleads.lexicallyNormal_eq, fun host s e h backend herror hdenied => ?_⟩
    rw [canonical_of_denied habsolute hdenied herror, hleads.lexicallyNormal_eq]
  · rw [hform, Path.components_ofNames hnames]

/-- Two directories in one. -/
def pairedFiles : FileSystem :=
  ⟨[([.ofString "b", .ofString "a"], .directory), ([.ofString "c", .ofString "a"], .directory),
    ([.ofString "a"], .directory)]⟩

/-- The way goes to the one, above the root and back to the other. -/
theorem lexical_form_resolves_paired : pairedFiles.HasNoLinks ∧
    pairedFiles.resolve (.ofString "/a/./b/../../..//a/c/") = .ok (.ofString "/a/c") ∧
    (Path.ofString "/a/./b/../../..//a/c/").lexicallyNormal = .ofString "/a/c" := by
  have hfree : pairedFiles.HasNoLinks := FileSystem.hasNoLinks_of_forall (by simp [pairedFiles])
  have hresolve : pairedFiles.resolve (.ofString "/a/./b/../../..//a/c/") = .ok (.ofString "/a/c") := by cbv
  exact ⟨hfree, hresolve, (((lexical_form_resolves (by decide)).1 _ hfree).2 _ hresolve).1⟩

end ProcessProbe.Machine
