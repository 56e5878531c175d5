import ProcessProbe.Proofs.Process.HandleOrigin
import ProcessProbe.Proofs.Query.Discipline

/-!
# Probes

A process is probed by sending signal zero to its number. Zero and the negative numbers would reach groups of processes,
or all of them. Main statement: handles have positive numbers however they are made, so on no host does a query send the
signal to another number than the positive one of the process it is about.
-/

namespace ProcessProbe

open Discipline (Question)

/-- The check that the number of a handle is positive always passes: the one thing that is asked is the probe. -/
theorem Liveness.transcript_ensureExists {σ : Type} (host : Host σ) (h : Handle) (s : σ) :
    (ensureExists h).outcome.transcript host s = [⟨.probe h.toInt, (host.answer (.probe h.toInt) s).1⟩] := by
  rw [ensureExists_eq, Query.outcome_lift_bind, Inquiry.transcript_bind]
  rfl

namespace Discipline

variable {σ : Type} {host : Host σ} {s : σ} {i : Inspector} {h : Handle} {exchange : Exchange} {n : Int}

theorem eq_of_probe {q : Question} (hmem : exchange ∈ (q.inquiry i h).transcript host s)
    (hprobe : exchange.request = .probe n) : n = h.toInt := by
  obtain ⟨before, after, hasked⟩ := List.append_of_mem hmem
  have hrule := (inquiry_asksOnly i h q []).rule_of_mem hasked
  rw [hprobe] at hrule
  rcases hrule with hrule | ⟨event, hreport⟩
  · exact hrule
  · contradiction

/-- An enumeration is about no process, so it meets the rule of every one, and they differ in whom to probe. -/
theorem not_probe_of_relations {source : Source} (hmem : exchange ∈ (i.relations source).outcome.transcript host s) :
    exchange.request ≠ .probe n := by
  intro hprobe
  obtain ⟨before, after, hasked⟩ := List.append_of_mem hmem
  have hrule (h : Handle) : n = h.toInt := by
    have hrule := (relations_asksOnly i h source []).rule_of_mem hasked
    rw [hprobe] at hrule
    exact hrule
  have hone := hrule ⟨1, by decide, by decide⟩
  have htwo := hrule ⟨2, by decide, by decide⟩
  exact absurd (hone.symm.trans htwo) (by decide)

end Discipline

namespace Handle

open Liveness (ensureExists)

/-- A number, a text or a document is made a handle exactly when it gives an integer from 1 to 2147483647, and the
handle has this number; the document of a table is read exactly when it gives such numbers only. What is written of a
handle or of a table is read back. The bits of a handle are one positive number, with a sign and without. So the check
before the probe refuses none on any host, a question probes no number but that of the process it is about, and an
enumeration probes none. -/
theorem only_positive_numbers_probed :
    (∀ o : Origin, (∃ h, o.handle? = some h) ↔ ∃ n, o.Gives n ∧ 1 ≤ n ∧ n ≤ 2147483647) ∧
      (∀ (o : Origin) (n : Int) (h : Handle), o.Gives n → (o.handle? = some h ↔ h.toInt = n)) ∧
      (∀ text, (∃ t, RelationTable.ofText? text = some t) ↔
        ∃ document items, Json.ofString? text = some document ∧ RelationTable.itemsIn? document = some items ∧
          ∀ item ∈ items, Relation.GivesHandles item) ∧
      (∀ text t, RelationTable.ofText? text = some t →
        ∃ document items, Json.ofString? text = some document ∧ RelationTable.itemsIn? document = some items ∧
          List.Forall₂ Relation.GivenBy t.rows items) ∧
      (∀ t : RelationTable, RelationTable.ofText? t.toJson.compact = some t) ∧
      (∀ h : Handle, (Origin.text h.message.toList).handle? = some h ∧
        (Origin.document h.toJson.compact).handle? = some h ∧
        h.pid.toUInt32.toInt32.toInt = h.toInt ∧ h.toInt = h.pid ∧ 0 < h.toInt) ∧
      ∀ (σ : Type) (host : Host σ) (s : σ) (h : Handle),
        (ensureExists h).outcome.transcript host s = [⟨.probe h.toInt, (host.answer (.probe h.toInt) s).1⟩] ∧
        (∀ failure, ((ensureExists h).outcome.run host s).1 = .error failure → failure.kind ≠ .invalidHandle) ∧
        ∀ i : Inspector,
          (∀ q : Question, ∀ exchange ∈ (q.inquiry i h).transcript host s, ∀ n, exchange.request = .probe n →
            n = h.toInt ∧ 0 < n ∧ n ≤ 2147483647) ∧
          ∀ source, ∀ exchange ∈ (i.relations source).outcome.transcript host s, ∀ n, exchange.request ≠ .probe n := by
  have hpos (h : Handle) : 0 < h.toInt := h.one_le_toInt
  refine ⟨fun o => Origin.exists_handle?_iff, fun o n h hgives => hgives.handle?_eq_some_iff,
    fun text => RelationTable.exists_ofText?_iff, fun text t => RelationTable.ofText?_eq_some_iff.1,
    RelationTable.ofText?_compact, fun h => ?_, fun σ host s h => ?_⟩
  · have hread : (Origin.text h.message.toList).handle? = some h := congrArg Except.toOption h.ofText_message
    exact ⟨hread, h.ofDocument?_compact, h.toInt_toInt32_pid, rfl, hpos h⟩
  · refine ⟨Liveness.transcript_ensureExists host h s, ?_, fun i => ⟨?_, ?_⟩⟩
    · intro failure hfailure hkind
      have hwithin := Liveness.ensureExists_failsOnly h σ host s trivial failure hfailure
      exact absurd (hkind ▸ hwithin.kind_mem) (by decide)
    · intro q exchange hmem n hprobe
      obtain rfl := Discipline.eq_of_probe hmem hprobe
      exact ⟨rfl, hpos h, h.toInt_le⟩
    · intro source exchange hmem n
      exact Discipline.not_probe_of_relations hmem

open Inspector (emptyHost equipped nobody)

/-- The handle 5 is made of a number, a text and a document and stands in a table, the bits of -1 are no handle, and on
the empty host the process 5 is probed and not found. -/
theorem only_positive_numbers_probed_five :
    (Origin.unsigned 5).handle? = some nobody ∧ (Origin.text "\t+005 ".toList).handle? = some nobody ∧
      (Origin.document " 5\n").handle? = some nobody ∧ (Origin.unsigned 4294967295).handle? ≠ some nobody ∧
      (∃ document items, Json.ofString? (RelationTable.mk [⟨nobody, none⟩]).toJson.compact = some document ∧
        RelationTable.itemsIn? document = some items ∧ List.Forall₂ Relation.GivenBy [⟨nobody, none⟩] items) ∧
      (((ensureExists nobody).outcome.run emptyHost ()).1 = .error (.notFound 5) ∧
        (Failure.notFound 5).kind ≠ .invalidHandle) ∧
      ∃ exchange ∈ ((Question.childrenVia .processGroup).inquiry equipped nobody).transcript emptyHost (),
        exchange.request = .probe 5 ∧ (0 : Int) < 5 := by
  obtain ⟨-, hmade, -, hrows, hwritten, -, hprobed⟩ := only_positive_numbers_probed
  have hnumber : (Origin.unsigned 5).Gives 5 := rfl
  have hbits : (Origin.unsigned 4294967295).Gives 4294967295 := rfl
  have hdigits : Text.IsDigits ['0', '0', '5'] 5 := ⟨by simp, by simp, by decide⟩
  have htext : (Origin.text "\t+005 ".toList).Gives 5 := .numeral (.plus hdigits)
  have hdocument : (Origin.document " 5\n").Gives 5 :=
    ⟨[' '], ['\n'], by simp [Json.isBlank], by simp [Json.isBlank], by decide⟩
  have hfailed : ((ensureExists nobody).outcome.run emptyHost ()).1 = .error (.notFound 5) := rfl
  have hasked : ⟨.probe 5, .error .noSuchProcess⟩ ∈
      ((Question.childrenVia .processGroup).inquiry equipped nobody).transcript emptyHost () :=
    List.mem_cons_of_mem _ List.mem_cons_self
  obtain ⟨-, hkinds, hqueries⟩ := hprobed Unit emptyHost () nobody
  obtain ⟨-, hpos, -⟩ := (hqueries equipped).1 _ _ hasked 5 rfl
  exact ⟨(hmade _ 5 nobody hnumber).2 rfl, (hmade _ 5 nobody htext).2 rfl, (hmade _ 5 nobody hdocument).2 rfl,
    mt (hmade _ 4294967295 nobody hbits).1 (by decide), hrows _ _ (hwritten ⟨[⟨nobody, none⟩]⟩),
    ⟨hfailed, hkinds _ hfailed⟩, _, hasked, rfl, hpos⟩

end Handle

end ProcessProbe
