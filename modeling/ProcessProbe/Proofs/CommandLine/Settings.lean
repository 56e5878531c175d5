import ProcessProbe.CommandLine.Arguments
import ProcessProbe.Proofs.CommandLine.Events

/-!
# Settings of a command line

A command line may replace the timeout of the environment. Main statement: what it replaces it by is a positive number
of milliseconds of 64 bits, so settings from outside of the program can be used whichever way they come.
-/

namespace ProcessProbe

namespace CommandLine

/-- A timeout that has been given fits 64 bits. -/
def Given.TimeoutFits (g : Given) : Prop := ∀ ms, g.timeoutMillis = some ms → ms ≤ Text.maxU64

variable {command : Option Subcommand} {g g' : Given}

theorem Given.eq_of_once {α : Type} {old new given : Option α} (h : once old new = .ok given) : given = new := by
  rw [once] at h
  split at h
  · contradiction
  · exact (Except.ok.inj h).symm

theorem Given.TimeoutFits.add (hg : g.TimeoutFits) {item : Item} (h : Given.add command g item = .ok g') :
    g'.TimeoutFits := by
  have hother {α : Type} {x : Except Reading α} {f : α → Given} (hx : (do return f (← x)) = Except.ok g')
      (hf : ∀ a, (f a).timeoutMillis = g.timeoutMillis) : g'.TimeoutFits := by
    obtain ⟨a, -, ha⟩ := ok_of_bind hx
    intro ms hms
    rw [← Except.ok.inj ha, hf a] at hms
    exact hg ms hms
  cases item with
  | flag f =>
    cases f with
    | verbose => exact Except.ok.inj h ▸ hg
    | quiet | every =>
      rw [Given.add] at h
      split at h
      · contradiction
      · exact Except.ok.inj h ▸ hg
    | help | version | format | timeout | journal | strategy | source | parent => contradiction
  | option f value =>
    cases f with
    | timeout =>
      obtain ⟨given, hgiven, hg'⟩ := ok_of_bind h
      intro ms hms
      have hread : (Text.readNat Text.maxU64 value.toList).toOption = some ms := by
        rw [← Except.ok.inj hg', eq_of_once hgiven] at hms
        exact hms
      cases hvalue : Text.readNat Text.maxU64 value.toList with
      | error defect => simp [hvalue, Except.toOption] at hread
      | ok n =>
        obtain rfl : n = ms := by simpa [hvalue, Except.toOption] using hread
        exact (Text.readNat_eq_ok_iff.1 hvalue).2
    | format | journal | source | parent => exact hother h fun _ => rfl
    | strategy =>
      rw [Given.add.eq_def] at h
      simp only at h
      split at h
      · exact hother h fun _ => rfl
      · exact hother h fun _ => rfl
    | verbose | quiet | every | help | version => contradiction
  | operand value =>
    rw [Given.add.eq_def] at h
    simp only at h
    split at h
    · exact hother h fun _ => rfl
    · exact hother h fun _ => rfl
    · contradiction
  | unknown => contradiction

theorem Given.TimeoutFits.foldlM (hg : g.TimeoutFits) {items : List Item}
    (h : items.foldlM (Given.add command) g = .ok g') : g'.TimeoutFits := by
  induction items generalizing g with
  | nil => exact Except.ok.inj h ▸ hg
  | cons item items ih =>
    rw [List.foldlM_cons] at h
    obtain ⟨next, hnext, hrest⟩ := ok_of_bind h
    exact ih (hg.add hnext) hrest

theorem Given.timeoutFits_nothing : Given.nothing.TimeoutFits := by simp [TimeoutFits, nothing]

theorem Given.TimeoutFits.options {before after : Given} (hbefore : before.TimeoutFits) (hafter : after.TimeoutFits)
    {ms : Nat} (hms : (before.options after).timeoutMillis = some ms) : ms ≤ Text.maxU64 := by
  have hor : after.timeoutMillis.or before.timeoutMillis = some ms := hms
  rcases Option.or_eq_some_iff.1 hor with hgiven | ⟨-, hgiven⟩
  · exact hafter ms hgiven
  · exact hbefore ms hgiven

theorem timeoutFits_of_readCommand {command : Subcommand} {args : List String} {c : Command}
    (h : readCommand command args = .ok (g, c)) : g.TimeoutFits := by
  obtain ⟨given, hgiven, hrest⟩ := ok_of_bind h
  split at hrest
  · obtain ⟨rfl, -⟩ := Prod.mk.inj (Except.ok.inj hrest)
    exact Given.timeoutFits_nothing.foldlM hgiven
  · contradiction

theorem timeoutMillis_le_of_readProgram {args : List String} {line : CommandLine} {ms : Nat}
    (h : readProgram args = .ok line) (hms : line.options.timeoutMillis = some ms) : ms ≤ Text.maxU64 := by
  obtain ⟨before, hbefore, hrest⟩ := ok_of_bind h
  split at hrest
  · contradiction
  · split at hrest
    · contradiction
    · split at hrest
      · obtain ⟨⟨after, c⟩, hcommand, hrest⟩ := ok_of_bind hrest
        obtain ⟨whole, hwhole, hrest⟩ := ok_of_bind hrest
        obtain rfl := Except.ok.inj hrest
        have hwhole := (Given.timeoutFits_nothing.foldlM hbefore).foldlM hwhole
        exact hwhole.options (timeoutFits_of_readCommand hcommand) hms
      · contradiction

/-- The settings of a run are those of its environment, with the timeout of its options over theirs. -/
theorem exists_of_settings {σ : Type} {host : Host σ} {t : σ} {r : Run} {o : Options} {s : Settings}
    (h : ((settings r o).run host t).1 = .ok s) :
    ∃ lookup given, Settings.ofEnvironment lookup = .ok given ∧ o.timeoutMillis ≠ some 0 ∧ s = o.over given := by
  cases hgiven : (Inspector.environmentSettings.run host t).1 with
  | error e =>
    obtain ⟨⟨message, hrefused⟩, -⟩ := settings_of_invalid r o hgiven
    rw [hrefused] at h
    contradiction
  | ok given =>
    by_cases htimeout : o.timeoutMillis = some 0
    · obtain ⟨⟨message, hrefused⟩, -⟩ := settings_of_refused r o hgiven htimeout
      rw [hrefused] at h
      contradiction
    · rw [(settings_of_accepted r o hgiven htimeout).1] at h
      exact ⟨_, given, hgiven, htimeout, (Except.ok.inj h).symm⟩

end CommandLine

namespace Settings

/-- Settings that a caller gets from an environment, or a run from its environment and its command line. -/
inductive Entered : Settings → Prop
  | environment {lookup : String → Option String} {s : Settings} (h : ofEnvironment lookup = .ok s) : Entered s
  | commandLine {σ : Type} {host : Host σ} {t : σ} {args : List String} {line : CommandLine} {r : CommandLine.Run}
    {s : Settings} (hline : CommandLine.readProgram args = .ok line)
    (h : ((CommandLine.settings r line.options).run host t).1 = .ok s) : Entered s

theorem Entered.isUsable {s : Settings} (h : s.Entered) : s.IsUsable := by
  cases h with
  | environment h => exact (ofEnvironment_eq_ok_iff.1 h).isUsable
  | @commandLine _ _ _ _ line _ _ hline h =>
    obtain ⟨lookup, given, hgiven, hpos, rfl⟩ := CommandLine.exists_of_settings h
    have husable := (ofEnvironment_eq_ok_iff.1 hgiven).isUsable
    cases htimeout : line.options.timeoutMillis with
    | none =>
      rw [CommandLine.Options.over, htimeout]
      exact husable
    | some ms =>
      have hle := CommandLine.timeoutMillis_le_of_readProgram hline htimeout
      have hne : ms ≠ 0 := fun hzero => hpos (hzero ▸ htimeout)
      rw [CommandLine.Options.over, htimeout]
      exact ⟨⟨ms, Nat.pos_of_ne_zero hne, hle, rfl⟩, husable.output_pos, husable.output_le, husable.absolute,
        husable.text⟩

end Settings

end ProcessProbe
