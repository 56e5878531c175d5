import ProcessProbe.Host.Inquiry
import ProcessProbe.Proofs.Text.Words

/-!
# Canonical paths

The path of a sequence of names from the root has each name behind one separator, and its parts are the names again.
Main statement: such a path is canonical, and taking an absolute path by its text alone gives such a path.
-/

namespace ProcessProbe

namespace Path

open Text (split split_cons split_append_cons split_of_forall split_ne_nil)

/-- A name that an entry of a directory may have. -/
structure IsName (name : Bytes) : Prop where
  ne_nil : name ≠ []
  separator_not_mem : separator ∉ name
  ne_dot : name ≠ dot
  ne_dotDot : name ≠ dotDot

/-- The path has names from the root only. -/
def IsNamed (p : Path) : Prop := ∃ names, (∀ name ∈ names, IsName name) ∧ p = ofNames names

/-- Nothing in the path could be left out, neither a component nor a separator. -/
structure IsCanonical (p : Path) : Prop where
  absolute : p.isAbsolute = true
  dot_not_mem : dot ∉ p.segments
  dotDot_not_mem : dotDot ∉ p.segments
  no_repeated_separator : ¬[separator, separator] <:+: p.bytes
  no_final_separator : p.bytes.getLast? = some separator → p.bytes = [separator]

/-- The names in a path. -/
def names (p : Path) : List Bytes := p.segments.filter (!·.isEmpty)

variable {names : List Bytes} {p : Path}

private theorem split_names (hnames : ∀ name ∈ names, IsName name) :
    split (· == separator) (names.flatMap (separator :: ·)) = [] :: names := by
  induction names with
  | nil => rfl
  | cons name names ih =>
    have hrest := ih fun n hn => hnames n (List.mem_cons_of_mem name hn)
    have hname : split (· == separator) name = [name] := by
      apply split_of_forall
      intro c hc
      rw [beq_eq_false_iff_ne]
      intro heq
      exact (hnames name List.mem_cons_self).separator_not_mem (heq ▸ hc)
    have hhead : split (· == separator) (name ++ names.flatMap (separator :: ·)) = name :: names := by
      cases names with
      | nil => rw [List.flatMap_nil, List.append_nil, hname]
      | cons next names =>
        rw [List.flatMap_cons, List.cons_append, split_cons] at hrest
        rw [List.flatMap_cons, List.cons_append, split_append_cons (by simp), hname]
        exact congrArg (name :: ·) (List.cons.inj hrest).2
    rw [List.flatMap_cons, List.cons_append, split_cons, hhead]
    rfl

theorem bytes_ofNames (hne : names ≠ []) : (ofNames names).bytes = names.flatMap (separator :: ·) := by
  cases names with
  | nil => contradiction
  | cons name names => rfl

theorem segments_ofNames (hnames : ∀ name ∈ names, IsName name) (hne : names ≠ []) :
    (ofNames names).segments = [] :: names := by
  rw [segments, bytes_ofNames hne, split_names hnames]

@[simp] theorem segments_root : (ofNames []).segments = [[], []] := rfl

theorem isAbsolute_ofNames : (ofNames names).isAbsolute = true := by
  cases names with
  | nil => rfl
  | cons name names => rfl

theorem names_ofNames (hnames : ∀ name ∈ names, IsName name) : (ofNames names).names = names := by
  cases names with
  | nil => rfl
  | cons name rest =>
    rw [Path.names, segments_ofNames hnames (List.cons_ne_nil name rest), List.filter_cons_of_neg (by simp),
      List.filter_eq_self]
    intro n hn
    simpa using (hnames n hn).ne_nil

private theorem nil_mem_tail_segments {before after : Bytes} (hbytes : p.bytes = before ++ separator :: after)
    (hafter : [] ∈ (split (· == separator) after).head?) : [] ∈ p.segments.tail := by
  rw [segments, hbytes, split_append_cons (by simp)]
  obtain ⟨first, parts, hparts⟩ := List.exists_cons_of_ne_nil (split_ne_nil (· == separator) before)
  rw [hparts, List.cons_append, List.tail_cons]
  exact List.mem_append_right _ (List.mem_of_head? hafter)

theorem isCanonical_ofNames (hnames : ∀ name ∈ names, IsName name) : (ofNames names).IsCanonical := by
  by_cases hne : names = []
  · subst hne
    exact ⟨rfl, by decide, by decide, by decide, fun _ => rfl⟩
  · have hsegments := segments_ofNames hnames hne
    have hfull : [] ∉ (ofNames names).segments.tail := by
      rw [hsegments]
      exact fun hmem => (hnames [] hmem).ne_nil rfl
    refine ⟨isAbsolute_ofNames, ?_, ?_, ?_, ?_⟩
    · rw [hsegments]
      intro hmem
      exact (hnames dot ((List.mem_cons.1 hmem).resolve_left (by decide))).ne_dot rfl
    · rw [hsegments]
      intro hmem
      exact (hnames dotDot ((List.mem_cons.1 hmem).resolve_left (by decide))).ne_dotDot rfl
    · intro ⟨before, after, hbytes⟩
      have hagain : (ofNames names).bytes = before ++ separator :: separator :: after := by
        rw [← hbytes]
        simp
      have hempty : [] ∈ (split (· == separator) (separator :: after)).head? := by
        rw [split_cons]
        rfl
      exact hfull (nil_mem_tail_segments hagain hempty)
    · intro hlast
      obtain ⟨before, hbytes⟩ := List.getLast?_eq_some_iff.1 hlast
      exact absurd (nil_mem_tail_segments hbytes rfl) hfull

/-! ## Taking a path by its text -/

private theorem separator_not_mem_segment {segment : Bytes} (h : segment ∈ p.segments) : separator ∉ segment := by
  intro hmem
  exact absurd (Text.not_of_mem_split h separator hmem) (by simp)

theorem isName_of_mem_components {name : Bytes} (h : Component.normal name ∈ p.components) : IsName name := by
  rw [components] at h
  have hmem : Component.normal name ∈ p.segments.filterMap Component.ofSegment? := by
    rcases List.mem_append.1 h with hstart | hmem
    · split at hstart
      · simp at hstart
      · split at hstart
        · simp at hstart
        · contradiction
    · exact hmem
  obtain ⟨segment, hsegment, hname⟩ := List.mem_filterMap.1 hmem
  rw [Component.ofSegment?] at hname
  split at hname
  · contradiction
  · split at hname
    · simp at hname
    · simp only [Option.some.injEq, Component.normal.injEq] at hname
      subst hname
      rename_i hplain hparent
      exact ⟨fun h => hplain (.inl h), separator_not_mem_segment hsegment, fun h => hplain (.inr h), hparent⟩

/-- Each component leaves names behind it, since `..` only takes them off. -/
theorem isName_of_mem_follow {component : Component} (hnames : ∀ name ∈ names, IsName name)
    (hcomponent : ∀ name, component = .normal name → IsName name) :
    ∀ name ∈ follow names component, IsName name := by
  intro name hname
  cases component with
  | root => contradiction
  | current => exact hnames name hname
  | parent => exact hnames name (List.mem_of_mem_tail hname)
  | normal new =>
    rcases List.mem_cons.1 hname with rfl | hold
    · exact hcomponent name rfl
    · exact hnames name hold

private theorem isName_of_mem_foldl_follow (components : List Component)
    (hcomponents : ∀ name, Component.normal name ∈ components → IsName name)
    (hnames : ∀ name ∈ names, IsName name) : ∀ name ∈ components.foldl follow names, IsName name := by
  induction components generalizing names with
  | nil => exact hnames
  | cons component components ih =>
    apply ih fun name hname => hcomponents name (List.mem_cons_of_mem component hname)
    apply isName_of_mem_follow hnames
    intro name hname
    exact hcomponents name (hname ▸ List.mem_cons_self)

theorem IsNamed.isCanonical (h : p.IsNamed) : p.IsCanonical := by
  obtain ⟨names, hnames, rfl⟩ := h
  exact isCanonical_ofNames hnames

theorem isNamed_lexicallyNormal (p : Path) : p.lexicallyNormal.IsNamed := by
  refine ⟨_, ?_, rfl⟩
  intro name hname
  exact isName_of_mem_foldl_follow p.components (fun _ => isName_of_mem_components)
    (fun _ hnil => absurd hnil List.not_mem_nil) name (List.mem_reverse.1 hname)

private theorem foldl_follow_normal (old : List Bytes) :
    (names.map Component.normal).foldl follow old = names.reverse ++ old := by
  induction names generalizing old with
  | nil => rfl
  | cons name names ih =>
    rw [List.map_cons, List.foldl_cons, follow, ih]
    simp

theorem components_ofNames (hnames : ∀ name ∈ names, IsName name) :
    (ofNames names).components = .root :: names.map .normal := by
  have hsegments : (ofNames names).segments.filterMap Component.ofSegment? = names.map Component.normal := by
    by_cases hne : names = []
    · subst hne
      rfl
    · rw [segments_ofNames hnames hne, List.filterMap_cons_none (by rfl), ← List.filterMap_eq_map]
      apply List.filterMap_congr
      intro name hname
      obtain ⟨hfilled, -, hdot, hdotDot⟩ := hnames name hname
      simp [Component.ofSegment?, hfilled, hdot, hdotDot]
  rw [components, hsegments, isAbsolute_ofNames]
  rfl

theorem IsNamed.lexicallyNormal_eq (h : p.IsNamed) : p.lexicallyNormal = p := by
  obtain ⟨names, hnames, rfl⟩ := h
  rw [lexicallyNormal, components_ofNames hnames, List.foldl_cons, foldl_follow_normal]
  simp [follow]

/-- No leading part of the path is one of which `link` holds. -/
def LinkFree (link : Path → Prop) (p : Path) : Prop := ∀ leading, leading <+: p.names → ¬link (ofNames leading)

end Path

/-- What a host resolves paths to, where `link` tells the paths of links in a state: to paths that have names only, and
such a path without links on the way to itself. -/
structure Host.Canonicalizes {σ : Type} (host : Host σ) (link : σ → Path → Prop) : Prop where
  isNamed : ∀ s raw path, (host.answer (.resolve raw) s).1 = .ok path → path.IsNamed
  eq_self : ∀ s path resolved, path.IsNamed → path.LinkFree (link s) →
    (host.answer (.resolve path) s).1 = .ok resolved → resolved = path

end ProcessProbe
