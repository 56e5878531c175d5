import ProcessProbe.Proofs.Text.Decimal
import ProcessProbe.Proofs.Text.Utf8
import ProcessProbe.Settings

/-!
# Settings of an environment

Each variable of an environment decides about one of the settings. Main statement: an environment is accepted just when
each variable that is set has a value of its kind, and the settings are what these values give.
-/

namespace ProcessProbe

theorem ok_of_bind {ε α β : Type} {x : Except ε α} {f : α → Except ε β} {b : β} (h : (x >>= f) = .ok b) :
    ∃ a, x = .ok a ∧ f a = .ok b := by
  cases x with
  | error e => contradiction
  | ok a => exact ⟨a, rfl, h⟩

namespace Settings

/-! ## Values of variables -/

/-- The value has a positive number of 64 bits between blanks. -/
structure GivesNumber (value : String) (n : Nat) : Prop where
  numeral : Text.IsNumeral (Text.trim value.toList) n
  pos : 0 < n
  le_max : n ≤ Text.maxU64

/-- The value has an absolute path between blanks. -/
structure GivesRoot (value : String) (p : Path) : Prop where
  text : p = ⟨Utf8.encode (Text.trim value.toList)⟩
  absolute : p.isAbsolute = true

theorem positive_eq_ok_iff {name value : String} {n : Nat} : positive name value = .ok n ↔ GivesNumber value n := by
  have hread : GivesNumber value n ↔ Text.readNat Text.maxU64 (Text.trim value.toList) = .ok n ∧ 0 < n := by
    rw [Text.readNat_eq_ok_iff]
    constructor
    · intro h
      exact ⟨⟨h.numeral, h.le_max⟩, h.pos⟩
    · intro h
      exact ⟨h.1.1, h.2, h.1.2⟩
  rw [hread, positive]
  cases Text.readNat Text.maxU64 (Text.trim value.toList) with
  | error defect => simp
  | ok m =>
    cases m with
    | zero =>
      simp
      omega
    | succ m =>
      simp
      omega

theorem absolutePath_eq_ok_iff {name value : String} {p : Path} :
    absolutePath name value = .ok p ↔ GivesRoot value p := by
  have hgives : GivesRoot value p ↔ p = ⟨Utf8.encode (Text.trim value.toList)⟩ ∧ p.isAbsolute = true := by
    constructor
    · intro h
      exact ⟨h.text, h.absolute⟩
    · intro h
      exact ⟨h.1, h.2⟩
  rw [hgives, absolutePath]
  by_cases habsolute : Path.isAbsolute ⟨Utf8.encode (Text.trim value.toList)⟩ = true
  · simp only [habsolute, if_true, Except.ok.injEq]
    constructor
    · intro h
      exact ⟨h.symm, h ▸ habsolute⟩
    · intro h
      exact h.1.symm
  · simp only [habsolute]
    constructor
    · intro h
      contradiction
    · intro h
      exact absurd (h.1 ▸ h.2) habsolute

/-- What a setting is, given the value of its variable: what the value gives, or the default without one. -/
def IsGiven {α : Type} (gives : String → α → Prop) (default : α) (value? : Option String) (a : α) : Prop :=
  match value? with
  | some value => gives value a
  | none => a = default

theorem setting_eq_ok_iff {α : Type} {read : String → String → Except Invalid α} {gives : String → α → Prop}
    (hread : ∀ name value a, read name value = .ok a ↔ gives value a) {name : String}
    {lookup : String → Option String} {default a : α} :
    setting read name lookup default = .ok a ↔ IsGiven gives default (lookup name) a := by
  rw [setting]
  cases lookup name with
  | none =>
    rw [IsGiven, Except.ok.injEq]
    exact eq_comm
  | some value => exact hread name value a

theorem exists_isGiven_iff {α : Type} {gives : String → α → Prop} {default : α} {value? : Option String} :
    (∃ a, IsGiven gives default value? a) ↔ ∀ value, value? = some value → ∃ a, gives value a := by
  cases value? with
  | none => simp [IsGiven]
  | some value => simp [IsGiven]

/-! ## Environments -/

/-- The settings are what the variables give, each one by its own. -/
structure IsOf (s : Settings) (lookup : String → Option String) : Prop where
  timeout : ∃ ms, s.toolTimeout = .ofMillis ms ∧ IsGiven GivesNumber 5000 (lookup timeoutVariable) ms
  output : IsGiven GivesNumber (10 * 1024 * 1024) (lookup outputVariable) s.maxOutputBytes
  root : IsGiven GivesRoot defaultProcRoot (lookup rootVariable) s.procRoot

theorem ofEnvironment_eq_ok_iff {lookup : String → Option String} {s : Settings} :
    ofEnvironment lookup = .ok s ↔ s.IsOf lookup := by
  have hnumber {name : String} {default n : Nat} : setting positive name lookup default = .ok n ↔
      IsGiven GivesNumber default (lookup name) n := by
    apply setting_eq_ok_iff
    intro _ _ _
    exact positive_eq_ok_iff
  have hroot {name : String} {default p : Path} : setting absolutePath name lookup default = .ok p ↔
      IsGiven GivesRoot default (lookup name) p := by
    apply setting_eq_ok_iff
    intro _ _ _
    exact absolutePath_eq_ok_iff
  constructor
  · intro h
    obtain ⟨timeout, htimeout, hrest⟩ := ok_of_bind h
    obtain ⟨output, houtput, hrest⟩ := ok_of_bind hrest
    obtain ⟨root, hroot', hrest⟩ := ok_of_bind hrest
    obtain rfl := Except.ok.inj hrest
    exact ⟨⟨timeout, rfl, hnumber.1 htimeout⟩, hnumber.1 houtput, hroot.1 hroot'⟩
  · intro h
    obtain ⟨⟨ms, hms, htimeout⟩, houtput, hroot'⟩ := h
    have htimeout' : setting positive timeoutVariable lookup Settings.default.toolTimeout.toMillis = .ok ms :=
      hnumber.2 htimeout
    have houtput' : setting positive outputVariable lookup Settings.default.maxOutputBytes = .ok s.maxOutputBytes :=
      hnumber.2 houtput
    have hroot'' : setting absolutePath rootVariable lookup Settings.default.procRoot = .ok s.procRoot :=
      hroot.2 hroot'
    rw [ofEnvironment, htimeout', houtput', hroot'', ← show Settings.mk (.ofMillis ms) _ _ = s by rw [← hms]]
    rfl

/-- Each variable that is set has a value of its kind. -/
structure Valid (lookup : String → Option String) : Prop where
  timeout : ∀ value, lookup timeoutVariable = some value → ∃ n, GivesNumber value n
  output : ∀ value, lookup outputVariable = some value → ∃ n, GivesNumber value n
  root : ∀ value, lookup rootVariable = some value → ∃ p, GivesRoot value p

theorem exists_ofEnvironment_iff {lookup : String → Option String} :
    (∃ s, ofEnvironment lookup = .ok s) ↔ Valid lookup := by
  simp only [ofEnvironment_eq_ok_iff]
  constructor
  · intro h
    obtain ⟨s, ⟨ms, -, htimeout⟩, houtput, hroot⟩ := h
    exact ⟨exists_isGiven_iff.1 ⟨ms, htimeout⟩, exists_isGiven_iff.1 ⟨_, houtput⟩, exists_isGiven_iff.1 ⟨_, hroot⟩⟩
  · intro h
    obtain ⟨ms, htimeout⟩ := exists_isGiven_iff.2 h.timeout
    obtain ⟨output, houtput⟩ := exists_isGiven_iff.2 h.output
    obtain ⟨root, hroot⟩ := exists_isGiven_iff.2 h.root
    exact ⟨⟨.ofMillis ms, output, root⟩, ⟨ms, rfl, htimeout⟩, houtput, hroot⟩

theorem GivesNumber.unique {value : String} {n m : Nat} (h : GivesNumber value n) (h' : GivesNumber value m) :
    n = m := by
  have hread : positive "" value = .ok n := positive_eq_ok_iff.2 h
  rw [positive_eq_ok_iff.2 h'] at hread
  exact (Except.ok.inj hread).symm

theorem GivesRoot.unique {value : String} {p q : Path} (h : GivesRoot value p) (h' : GivesRoot value q) : p = q :=
  h.text.trans h'.text.symm

theorem IsGiven.unique {α : Type} {gives : String → α → Prop} {default a b : α} {value? : Option String}
    (ha : IsGiven gives default value? a) (hb : IsGiven gives default value? b)
    (hunique : ∀ value, gives value a → gives value b → a = b) : a = b := by
  cases value? with
  | none => exact Eq.trans ha (Eq.symm hb)
  | some value => exact hunique value ha hb

/-- Settings of two environments that have each value in common for which the environments agree on its variable. -/
structure AgreeOn (s t : Settings) (lookup other : String → Option String) : Prop where
  timeout : lookup timeoutVariable = other timeoutVariable → s.toolTimeout = t.toolTimeout
  output : lookup outputVariable = other outputVariable → s.maxOutputBytes = t.maxOutputBytes
  root : lookup rootVariable = other rootVariable → s.procRoot = t.procRoot

theorem IsOf.agreeOn {s t : Settings} {lookup other : String → Option String} (hs : s.IsOf lookup) (ht : t.IsOf other) :
    s.AgreeOn t lookup other := by
  obtain ⟨⟨ms, hms, hstimeout⟩, hsoutput, hsroot⟩ := hs
  obtain ⟨⟨mt, hmt, httimeout⟩, htoutput, htroot⟩ := ht
  constructor
  · intro heq
    rw [heq] at hstimeout
    rw [hms, hmt, hstimeout.unique httimeout fun _ => GivesNumber.unique]
  · intro heq
    rw [heq] at hsoutput
    exact hsoutput.unique htoutput fun _ => GivesNumber.unique
  · intro heq
    rw [heq] at hsroot
    exact hsroot.unique htroot fun _ => GivesRoot.unique

/-- Settings that diagnostics can be run with, and that a document can hold. -/
structure IsUsable (s : Settings) : Prop where
  timeout : ∃ ms, 0 < ms ∧ ms ≤ Text.maxU64 ∧ s.toolTimeout = .ofMillis ms
  output_pos : 0 < s.maxOutputBytes
  output_le : s.maxOutputBytes ≤ Text.maxU64
  absolute : s.procRoot.isAbsolute = true
  text : ∃ text, s.procRoot = .ofString text

variable {s : Settings} {lookup : String → Option String}

theorem IsGiven.pos_le {default n : Nat} {value? : Option String} (h : IsGiven GivesNumber default value? n)
    (hdefault : 0 < default ∧ default ≤ Text.maxU64) : 0 < n ∧ n ≤ Text.maxU64 := by
  cases value? with
  | none =>
    obtain rfl : n = default := h
    exact hdefault
  | some value =>
    have hvalue : GivesNumber value n := h
    exact ⟨hvalue.pos, hvalue.le_max⟩

theorem IsOf.isUsable (h : s.IsOf lookup) : s.IsUsable := by
  obtain ⟨ms, hms, htimeout⟩ := h.timeout
  have hmillis := htimeout.pos_le (by decide)
  have houtput := h.output.pos_le (by decide)
  have hroot : s.procRoot.isAbsolute = true ∧ ∃ text, s.procRoot = .ofString text := by
    have hgiven := h.root
    rw [IsGiven.eq_def] at hgiven
    split at hgiven
    · rename_i value _
      refine ⟨hgiven.absolute, String.ofList (Text.trim value.toList), ?_⟩
      rw [hgiven.text, Path.ofString, Bytes.ofString, String.toList_ofList]
    · rw [hgiven]
      exact ⟨rfl, "/proc", rfl⟩
  exact ⟨⟨ms, hmillis.1, hmillis.2, hms⟩, houtput.1, houtput.2, hroot.1, hroot.2⟩

theorem pathToJson?_ofString (text : String) : pathToJson? (.ofString text) = some (.text text) := by
  simp [pathToJson?, Path.ofString, Bytes.ofString]

end Settings

end ProcessProbe
