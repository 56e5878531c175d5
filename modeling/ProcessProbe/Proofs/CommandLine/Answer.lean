import Mathlib.Data.List.Chain
import Mathlib.Data.List.Forall2
import ProcessProbe.CommandLine.Answer

/-!
# Outcomes side by side

Neighbours are compared, and as sameness is an equivalence that tells whether any two values are the same. Main
statement: what the exit code and the object of such an answer say about the outcomes.
-/

namespace ProcessProbe.CommandLine.Answer

variable {S α : Type} {same : α → α → Bool}

theorem agree_iff_isChain (values : List α) :
    agree same values = true ↔ values.IsChain fun a b => same a b = true := by
  induction values with
  | nil => simp [agree]
  | cons a rest ih =>
    cases rest with
    | nil => simp [agree]
    | cons b rest =>
      have hstep : agree same (a :: b :: rest) = (same a b && agree same (b :: rest)) := rfl
      rw [hstep, Bool.and_eq_true, ih, List.isChain_cons_cons]

theorem agree_iff (hsame : Equivalence fun a b => same a b = true) (values : List α) :
    agree same values = true ↔ ∀ a ∈ values, ∀ b ∈ values, same a b = true := by
  have htrans : IsTrans α fun a b => same a b = true := ⟨fun _ _ _ => hsame.trans⟩
  have hsymm : Std.Symm fun a b => same a b = true := ⟨fun _ _ => hsame.symm⟩
  rw [agree_iff_isChain, List.isChain_iff_pairwise]
  constructor
  · intro h a ha b hb
    exact h.forall_of_forall (fun x _ => hsame.refl x) ha hb
  · intro h
    exact List.pairwise_of_forall_mem_list h

theorem agree_eq_false_iff (hsame : Equivalence fun a b => same a b = true) (values : List α) :
    agree same values = false ↔ ∃ a ∈ values, ∃ b ∈ values, same a b = false := by
  rw [← Bool.not_eq_true, agree_iff hsame]
  simp

variable {outcomes : List (S × Except Failure α)}

theorem mem_values {a : α} : a ∈ values outcomes ↔ ∃ x, (x, .ok a) ∈ outcomes := by
  rw [values, List.mem_filterMap]
  constructor
  · rintro ⟨⟨x, outcome⟩, hmem, hvalue⟩
    cases outcome with
    | ok b =>
      obtain rfl : b = a := Option.some.inj hvalue
      exact ⟨x, hmem⟩
    | error failure => contradiction
  · rintro ⟨x, hmem⟩
    exact ⟨(x, .ok a), hmem, rfl⟩

theorem compared_of_agree {code : α → ExitCode} (hsame : Equivalence fun a b => same a b = true)
    (hcode : ∀ a b, same a b = true → code a = code b) (hagree : agree same (values outcomes) = true) {a : α}
    (ha : a ∈ values outcomes) : compared same code outcomes = code a := by
  rw [compared]
  cases hvalues : values outcomes with
  | nil =>
    rw [hvalues] at ha
    contradiction
  | cons first rest =>
    rw [hvalues] at hagree ha
    simp only [hagree, if_true]
    exact hcode _ _ ((agree_iff hsame _).1 hagree first List.mem_cons_self a ha)

theorem compared_of_differ {code : α → ExitCode} (hagree : agree same (values outcomes) = false) :
    compared same code outcomes = .internal := by
  rw [compared]
  cases hvalues : values outcomes with
  | nil =>
    rw [hvalues] at hagree
    contradiction
  | cons first rest =>
    rw [hvalues] at hagree
    simp [hagree]

/-- Without any value there is a last failure, and it decides. -/
theorem compared_of_none (same : α → α → Bool) (code : α → ExitCode) (hne : outcomes ≠ [])
    (hnone : values outcomes = []) : ∃ x failure, outcomes.getLast? = some (x, .error failure) ∧
      compared same code outcomes = .ofFailure failure := by
  obtain ⟨before, ⟨x, outcome⟩, rfl⟩ := List.eq_nil_or_concat outcomes |>.resolve_left hne
  cases outcome with
  | ok a =>
    have ha : a ∈ values (before.concat (x, .ok a)) := mem_values.2 ⟨x, by simp⟩
    rw [hnone] at ha
    contradiction
  | error failure =>
    refine ⟨x, failure, by simp, ?_⟩
    rw [compared, hnone]
    simp

/-- An entry of a report describes the outcome of one strategy. -/
structure Describes (name : S → String) (write : α → Option Json) (entry : S × Except Failure α) (result : Json) :
    Prop where
  strategy : result.get? "strategy" = some (.text (name entry.1))
  answered : ∀ a, entry.2 = .ok a → result.get? "status" = some (.text "ok") ∧ result.get? "value" = write a
  failed : ∀ failure, entry.2 = .error failure →
    result.get? "status" = some (.text "error") ∧ result.get? "error" = some failure.toJson

theorem describes_of_resultToJson? {name : S → String} {write : α → Option Json} {x : S}
    {outcome : Except Failure α} {result : Json} (h : resultToJson? name write x outcome = some result) :
    Describes name write (x, outcome) result := by
  cases outcome with
  | ok a =>
    obtain ⟨value, hvalue, rfl⟩ := Option.map_eq_some_iff.1 h
    refine ⟨rfl, fun b hb => ?_, fun failure hfailure => (nomatch hfailure)⟩
    cases hb
    exact ⟨rfl, hvalue.symm⟩
  | error failure =>
    obtain rfl := Option.some.inj h
    refine ⟨rfl, fun a ha => (nomatch ha), fun other hother => ?_⟩
    cases hother
    exact ⟨rfl, rfl⟩

theorem exists_forall₂_mapM {β γ : Type} {f : β → Option γ} {xs : List β} (h : ∀ x ∈ xs, ∃ y, f x = some y) :
    ∃ ys, xs.mapM f = some ys ∧ List.Forall₂ (fun x y => f x = some y) xs ys := by
  induction xs with
  | nil => exact ⟨[], rfl, .nil⟩
  | cons x xs ih =>
    obtain ⟨y, hy⟩ := h x List.mem_cons_self
    obtain ⟨ys, hys, hall⟩ := ih fun z hz => h z (List.mem_cons_of_mem x hz)
    exact ⟨y :: ys, by simp [List.mapM_cons, hy, hys], .cons hy hall⟩

theorem exists_of_mapM {β γ : Type} {f : β → Option γ} {xs : List β} {ys : List γ} (h : xs.mapM f = some ys) {x : β}
    (hx : x ∈ xs) : ∃ y, f x = some y := by
  induction xs generalizing ys with
  | nil => contradiction
  | cons first rest ih =>
    rw [List.mapM_cons] at h
    obtain ⟨y, hy, hrest⟩ := Option.bind_eq_some_iff.1 h
    obtain ⟨zs, hzs, -⟩ := Option.bind_eq_some_iff.1 hrest
    rcases List.mem_cons.1 hx with rfl | hx
    · exact ⟨y, hy⟩
    · exact ih hzs hx

/-- A field of the object that is printed. -/
def field? (name : String) (a : Answer) : Option Json :=
  match a.payload with
  | .object fields => (Json.object fields).get? name
  | _ => none

/-- The code and the object of an answer to compared outcomes. -/
structure Reports (format : Format) (name : S → String) (same : α → α → Bool) (code : α → ExitCode)
    (write : α → Option Json) (outcomes : List (S × Except Failure α)) (a : Answer) : Prop where
  code_eq : a.code = compared same code outcomes
  agree_eq : format = .json → a.field? "agree" = some (.bool (agree same (values outcomes)))
  results : format = .json →
    ∃ results, a.field? "results" = some (.array results) ∧ List.Forall₂ (Describes name write) outcomes results

theorem exists_ofOutcomes? {format : Format} (command : Subcommand) (h : Handle) (time : String) (name : S → String)
    (code : α → ExitCode) {write : α → Option Json}
    (hwrite : format = .json → ∀ a ∈ values outcomes, ∃ v, write a = some v) :
    ∃ a, ofOutcomes? format command h time name same code write outcomes = some a ∧
      Reports format name same code write outcomes a := by
  cases format with
  | json =>
    have hresult : ∀ entry ∈ outcomes, ∃ result, resultToJson? name write entry.1 entry.2 = some result := by
      rintro ⟨x, outcome⟩ hmem
      cases outcome with
      | ok a =>
        obtain ⟨v, hv⟩ := hwrite rfl a (mem_values.2 ⟨x, hmem⟩)
        exact ⟨_, congrArg (Option.map _) hv⟩
      | error failure => exact ⟨_, rfl⟩
    obtain ⟨results, hmap, hall⟩ := exists_forall₂_mapM hresult
    refine ⟨_, congrArg (Option.map _) hmap, rfl, fun _ => rfl, fun _ => ⟨results, rfl, ?_⟩⟩
    exact hall.imp fun _ _ => describes_of_resultToJson?
  | summary => exact ⟨_, rfl, rfl, fun h => (nomatch h), fun h => (nomatch h)⟩

/-- There is no answer just when a value of an object cannot be written. -/
theorem ofOutcomes?_eq_none_iff {format : Format} (command : Subcommand) (h : Handle) (time : String) (name : S → String)
    (code : α → ExitCode) {write : α → Option Json} :
    ofOutcomes? format command h time name same code write outcomes = none ↔
      format = .json ∧ ∃ a ∈ values outcomes, write a = none := by
  constructor
  · intro hnone
    by_contra hwritten
    have hwrite : format = .json → ∀ a ∈ values outcomes, ∃ v, write a = some v := by
      intro hformat a ha
      apply Option.ne_none_iff_exists'.1
      intro ha'
      exact hwritten ⟨hformat, a, ha, ha'⟩
    have hexists : ∃ answer, ofOutcomes? format command h time name same code write outcomes = some answer :=
      (exists_ofOutcomes? command h time name code hwrite).imp fun _ hanswer => hanswer.1
    exact Option.ne_none_iff_exists'.2 hexists hnone
  · rintro ⟨rfl, a, ha, hunwritten⟩
    obtain ⟨x, hmem⟩ := mem_values.1 ha
    rw [ofOutcomes?, Option.map_eq_none_iff]
    by_contra hsome
    obtain ⟨results, hresults⟩ := Option.ne_none_iff_exists'.1 hsome
    obtain ⟨result, hresult⟩ := exists_of_mapM hresults hmem
    have hvalue : (write a).map (fun value => Json.object
        [("strategy", .text (name x)), ("status", .text "ok"), ("value", value)]) = some result := hresult
    rw [hunwritten] at hvalue
    contradiction

end ProcessProbe.CommandLine.Answer
