import Mathlib.Data.List.Induction
import Mathlib.Data.List.Nodup
import ProcessProbe.Journal.Line
import ProcessProbe.Proofs.Text.Decimal

/-!
# Recorded values

Values are looked up by their names, and laid over each other. Main statement: what nested scopes have under a name is
what the innermost one has that has it at all, and no name occurs twice.
-/

namespace ProcessProbe.Journal

namespace Recorded

variable {r outer inner : Recorded} {name n : String} {value v : Json}

def names (r : Recorded) : List String := r.map (·.1)

@[simp] theorem find?_nil (name : String) : find? [] name = none := rfl

@[simp] theorem find?_cons (f : String × Json) (r : Recorded) (name : String) :
    find? (f :: r) name = if f.1 = name then some f.2 else r.find? name := by
  by_cases h : f.1 = name <;> simp [find?, h]

theorem find?_append (r r' : Recorded) (name : String) : find? (r ++ r') name = (r.find? name).or (find? r' name) := by
  induction r with
  | nil => simp
  | cons f r ih =>
    by_cases h : f.1 = name
    · simp [h]
    · simp [h, ih]

theorem mem_names_iff : name ∈ r.names ↔ ∃ v, r.find? name = some v := by
  induction r with
  | nil => simp [names]
  | cons f r ih =>
    by_cases h : f.1 = name
    · simp [names, h]
    · simpa [names, h, Ne.symm h] using ih

theorem find?_eq_none_iff : r.find? name = none ↔ name ∉ r.names := by
  rw [mem_names_iff]
  cases r.find? name <;> simp

theorem nodup_cons_iff {f : String × Json} : (names (f :: r)).Nodup ↔ find? r f.1 = none ∧ r.names.Nodup := by
  rw [find?_eq_none_iff]
  exact List.nodup_cons

theorem mem_iff_find?_eq (h : r.names.Nodup) : (name, v) ∈ r ↔ r.find? name = some v := by
  induction r with
  | nil => simp
  | cons f r ih =>
    obtain ⟨hnew, hrest⟩ := nodup_cons_iff.1 h
    rw [find?_cons, List.mem_cons, ih hrest]
    by_cases hname : f.1 = name
    · rw [hname] at hnew
      simp [hname, hnew, Prod.ext_iff, eq_comm]
    · simp [hname, Prod.ext_iff, Ne.symm hname]

@[simp] theorem find?_put : (r.put name value).find? n = if n = name then some value else r.find? n := by
  induction r with
  | nil => simp [put, eq_comm]
  | cons f r ih =>
    obtain ⟨m, w⟩ := f
    by_cases hm : m = name
    · by_cases hn : n = name
      · simp [put, hm, hn]
      · simp [put, hm, hn, Ne.symm hn]
    · by_cases hn : n = name
      · subst hn
        simpa [put, hm] using ih
      · simp [put, hm, hn, ih]

theorem nodup_put (h : r.names.Nodup) : (r.put name value).names.Nodup := by
  induction r with
  | nil => simp [put, names]
  | cons f r ih =>
    obtain ⟨hnew, hrest⟩ := nodup_cons_iff.1 h
    rw [put]
    split
    · rename_i hname
      exact nodup_cons_iff.2 ⟨hname ▸ hnew, hrest⟩
    · rename_i hname
      apply nodup_cons_iff.2
      exact ⟨by simp [hname, hnew], ih hrest⟩

theorem nodup_append {r' : Recorded} (hr : r.names.Nodup) (hr' : r'.names.Nodup)
    (h : ∀ name ∈ r.names, r'.find? name = none) : (names (r ++ r')).Nodup := by
  rw [names, List.map_append]
  apply List.Nodup.append hr hr'
  intro name hname hname'
  exact find?_eq_none_iff.1 (h name hname) hname'

/-- A value under a name, if there is one. -/
def optional (name : String) (value? : Option Json) : Recorded := value?.toList.map (name, ·)

theorem find?_optional (name : String) (value? : Option Json) (n : String) :
    (optional name value?).find? n = if n = name then value? else none := by
  cases value? <;> simp [optional, eq_comm]

theorem eq_of_mem_optional {value? : Option Json} (h : n ∈ (optional name value?).names) : n = name := by
  obtain ⟨v, hv⟩ := mem_names_iff.1 h
  rw [find?_optional] at hv
  by_contra hname
  simp [hname] at hv

theorem nodup_optional (name : String) (value? : Option Json) : (optional name value?).names.Nodup := by
  cases value? <;> simp [optional, names]

/-- Each name of the inner values is laid over the outer ones once, so the order does not matter. -/
theorem find?_overlay (h : inner.names.Nodup) :
    (outer.overlay inner).find? n = (inner.find? n).or (outer.find? n) := by
  induction inner generalizing outer with
  | nil => simp [overlay]
  | cons f inner ih =>
    obtain ⟨hnew, hrest⟩ := nodup_cons_iff.1 h
    have hstep : outer.overlay (f :: inner) = overlay (outer.put f.1 f.2) inner := rfl
    rw [hstep, ih hrest, find?_put, find?_cons]
    by_cases hn : f.1 = n
    · rw [hn] at hnew
      simp [hn, hnew]
    · simp [hn, Ne.symm hn]

theorem nodup_overlay (h : outer.names.Nodup) : (outer.overlay inner).names.Nodup := by
  induction inner generalizing outer with
  | nil => exact h
  | cons f inner ih => exact ih (nodup_put h)

end Recorded

/-! ## Values of fields -/

/-- The value that fields record under a name: the last one that has a written form. -/
def recorded? (fields : Fields) (name : String) : Option Json :=
  fields.reverse.findSome? fun f => if f.1 = name then f.2.toJson? else none

theorem recorded?_concat (fields : Fields) (f : String × Value) (name : String) :
    recorded? (fields ++ [f]) name = if f.1 = name then f.2.toJson?.or (recorded? fields name) else
      recorded? fields name := by
  rw [recorded?, List.reverse_concat, List.findSome?_cons, ← recorded?]
  by_cases h : f.1 = name
  · cases f.2.toJson? <;> simp [h]
  · simp [h]

namespace Recorded

variable {r : Recorded} {key : String}

theorem ofFields_concat (fields : Fields) (f : String × Value) :
    ofFields (fields ++ [f]) = (f.2.toJson?).elim (ofFields fields) ((ofFields fields).put f.1) := by
  rw [ofFields, List.foldl_concat]
  rfl

theorem find?_ofFields (fields : Fields) (name : String) : (ofFields fields).find? name = recorded? fields name := by
  induction fields using List.reverseRecOn with
  | nil => rfl
  | append_singleton fields f ih =>
    rw [ofFields_concat, recorded?_concat]
    cases f.2.toJson? with
    | none => simp [ih]
    | some v =>
      by_cases h : f.1 = name
      · simp [h]
      · simp [h, Ne.symm h, ih]

theorem nodup_ofFields (fields : Fields) : (ofFields fields).names.Nodup := by
  induction fields using List.reverseRecOn with
  | nil => exact List.nodup_nil
  | append_singleton fields f ih =>
    rw [ofFields_concat]
    cases f.2.toJson? with
    | none => exact ih
    | some v => exact nodup_put ih

/-! ## Correlation -/

theorem find?_correlation (r : Recorded) (key : String) :
    r.correlation.find? key = if key ∈ correlationKeys then (r.find? key).map (normalize key) else none := by
  rw [correlation]
  induction correlationKeys with
  | nil => simp
  | cons k keys ih =>
    rw [List.filterMap_cons]
    cases hk : r.find? k with
    | none =>
      by_cases heq : k = key
      · subst heq
        simpa [hk] using ih
      · simpa [heq, Ne.symm heq] using ih
    | some v =>
      by_cases heq : k = key
      · subst heq
        simp [hk]
      · simpa [heq, Ne.symm heq] using ih

theorem names_correlation (r : Recorded) :
    r.correlation.names = correlationKeys.filter fun key => (r.find? key).isSome := by
  rw [correlation]
  induction correlationKeys with
  | nil => rfl
  | cons k keys ih => cases hk : r.find? k <;> simpa [List.filterMap_cons, hk, names] using ih

theorem nodup_correlation (r : Recorded) : r.correlation.names.Nodup := by
  rw [names_correlation]
  exact List.Nodup.filter _ (by decide)

theorem mem_others_iff {name : String} {v : Json} : (name, v) ∈ r.others ↔ name ∉ correlationKeys ∧ (name, v) ∈ r := by
  simp [others, and_comm]

theorem nodup_others (h : r.names.Nodup) : r.others.names.Nodup := h.sublist (List.filter_sublist.map _)

theorem mem_without_iff {name n : String} {v : Json} : (n, v) ∈ r.without name ↔ n ≠ name ∧ (n, v) ∈ r := by
  simp [without, and_comm]

theorem nodup_without {name : String} (h : r.names.Nodup) : (r.without name).names.Nodup :=
  h.sublist (List.filter_sublist.map _)

end Recorded

theorem find?_correlationOf {scopes : List Recorded} (h : ∀ r ∈ scopes, r.names.Nodup) (key : String) :
    (correlationOf scopes).find? key = scopes.findSome? (·.find? key) := by
  induction scopes with
  | nil => rfl
  | cons r scopes ih =>
    have hstep : correlationOf (r :: scopes) = (correlationOf scopes).overlay r := rfl
    obtain ⟨hr, hscopes⟩ := List.forall_mem_cons.1 h
    rw [hstep, Recorded.find?_overlay hr, ih hscopes, List.findSome?_cons]
    cases r.find? key <;> rfl

theorem nodup_correlationOf (scopes : List Recorded) : (correlationOf scopes).names.Nodup := by
  induction scopes with
  | nil => exact List.nodup_nil
  | cons r scopes ih => exact Recorded.nodup_overlay ih

/-- How a value is written at the top of a line: a text that is a process number of 64 bits becomes that number. -/
inductive Lifts (key : String) : Json → Json → Prop
  | number {s : String} {n : Nat} (hkey : key = "pid") (h : Text.IsNumeral s.toList n) (hle : n ≤ Text.maxU64) :
    Lifts key (.text s) (.ofNat n)
  | same {v : Json} (h : key = "pid" → ∀ s, v = .text s → ∀ n, Text.IsNumeral s.toList n → Text.maxU64 < n) :
    Lifts key v v

theorem lifts_normalize (key : String) (v : Json) : Lifts key v (normalize key v) := by
  cases v with
  | text s =>
    by_cases hkey : key = "pid"
    · cases hread : Text.readNat Text.maxU64 s.toList with
      | ok n =>
        obtain ⟨hnumeral, hle⟩ := Text.readNat_eq_ok_iff.1 hread
        simpa [normalize, hkey, hread] using Lifts.number rfl hnumeral hle
      | error defect =>
        simp only [normalize, hkey, if_true, hread]
        apply Lifts.same
        intro _ t ht n hnumeral
        obtain rfl := Json.text.inj ht
        apply Nat.lt_of_not_le
        intro hle
        rw [Text.readNat_eq_ok_iff.2 ⟨hnumeral, hle⟩] at hread
        contradiction
    · simp only [normalize, hkey, if_false]
      exact .same fun h => absurd h hkey
  | _ => exact .same fun _ _ h => Json.noConfusion h

theorem normalize_eq_iff {key : String} {v w : Json} : normalize key v = w ↔ Lifts key v w := by
  constructor
  · intro h
    exact h ▸ lifts_normalize key v
  · intro h
    cases h with
    | number hkey h hle => simp [normalize, hkey, Text.readNat_eq_ok_iff.2 ⟨h, hle⟩]
    | same h =>
      have hlifts := lifts_normalize key v
      generalize normalize key v = w at hlifts
      cases hlifts with
      | number hkey hnumeral hle => exact absurd hle (Nat.not_le_of_lt (h hkey _ rfl _ hnumeral))
      | same _ => rfl

end ProcessProbe.Journal
