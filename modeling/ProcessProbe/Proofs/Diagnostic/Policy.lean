import ProcessProbe.Proofs.Host.Steady
import ProcessProbe.Proofs.Text.Decimal
import ProcessProbe.Proofs.Text.Utf8
import ProcessProbe.Settings

/-!
# Running the diagnostics of queries

A tool is run if the list of allowed commands has it or is empty. The policy of the settings lets the diagnostics of
queries run, so such a run comes to whatever the host answers.
-/

namespace ProcessProbe.Diagnostic

variable {σ : Type} {host : Host σ} {steady : σ → Prop}

/-- Whether a policy lets a tool run. -/
def Policy.Allows (p : Policy) (tool : String) : Prop := p.allowed = [] ∨ tool ∈ p.allowed

section Tools

variable {p : Policy} {tool : String} {args : List String} (htool : tool ∈ tools)

include htool

private theorem tool_is_clean : (tool.isEmpty || tool.toList.any Policy.forbidden.contains) = false ∧
    (Path.ofString tool).isAbsolute = false := by
  revert tool
  decide

theorem baseName_tool : Policy.baseName tool = tool := by
  have hname : (Path.ofString tool).fileName? = some (Bytes.ofString tool) := by
    revert tool
    decide
  rw [Policy.baseName, hname]
  simp [Bytes.shown, Bytes.ofString]

theorem check_of_allows (hallows : p.Allows tool) : p.check tool = pure (.ok ()) := by
  obtain ⟨hclean, hrelative⟩ := tool_is_clean htool
  have hscreen : p.screen tool = .ok () := by
    rw [Policy.screen, if_neg (by simp [hclean]), if_neg]
    cases hallows with
    | inl hempty => simp [hempty]
    | inr hmem => simp [hmem]
  rw [Policy.check, hscreen]
  simp only [hrelative]
  rfl

theorem run_of_allows (hallows : p.Allows tool) (hargs : Policy.holdsZeroByte tool args = false) :
    p.run tool args none =
      Policy.outcome tool args <$> Inquiry.start ⟨tool, args, p.timeout, p.maxOutputBytes⟩ := by
  rw [Policy.run, check_of_allows htool hallows, pure_bind, map_eq_pure_bind]
  simp only [hargs]
  rfl

theorem run_of_not_allows (hallows : ¬p.Allows tool) : p.run tool args none = pure (.error (.notAllowed tool)) := by
  have hscreen : p.screen tool = .error (.notAllowed tool) := by
    rw [Policy.Allows, not_or] at hallows
    rw [Policy.screen, if_neg (by simp [(tool_is_clean htool).1]), baseName_tool htool, if_pos (by simp [hallows])]
  rw [Policy.run, Policy.check, hscreen, pure_bind]

end Tools

theorem run_policy (settings : Settings) {command : String} {args : List String} (htool : command ∈ tools)
    (hargs : Policy.holdsZeroByte command args = false) :
    settings.policy.run command args none =
      Policy.outcome command args <$> Inquiry.start ⟨command, args, settings.toolTimeout, settings.maxOutputBytes⟩ :=
  run_of_allows htool (.inr htool) hargs

theorem run_policy_comesTo {settings : Settings} {command : String} {args : List String}
    {P : Except Error Output → Prop} (htool : command ∈ tools) (hargs : Policy.holdsZeroByte command args = false)
    (h : ∀ s, steady s → P (Policy.outcome command args
      (host.answer (.run ⟨command, args, settings.toolTimeout, settings.maxOutputBytes⟩) s).1)) :
    Inquiry.ComesTo host steady (settings.policy.run command args none) P := by
  rw [run_policy settings htool hargs]
  exact Inquiry.ComesTo.map_send h

theorem holdsZeroByte_tableArgs : Policy.holdsZeroByte "ps" tableArgs = false := by decide

private theorem zero_not_mem_message (h : Handle) : '\x00' ∉ h.message.toList := by
  rw [Handle.message, Text.toList_toString]
  exact Text.not_mem_decimal (by decide) h.pid

theorem holdsZeroByte_childrenArgs (selectLive : Bool) (h : Handle) :
    Policy.holdsZeroByte "pgrep" (childrenArgs selectLive h) = false := by
  have hpid := zero_not_mem_message h
  cases selectLive <;> simp [Policy.holdsZeroByte, childrenArgs, liveStates, hpid]

theorem holdsZeroByte_stateArgs (h : Handle) : Policy.holdsZeroByte "ps" (stateArgs h) = false := by
  simp [Policy.holdsZeroByte, stateArgs, zero_not_mem_message h]

theorem holdsZeroByte_directoryArgs (h : Handle) : Policy.holdsZeroByte "lsof" (directoryArgs h) = false := by
  simp [Policy.holdsZeroByte, directoryArgs, zero_not_mem_message h]

end ProcessProbe.Diagnostic
