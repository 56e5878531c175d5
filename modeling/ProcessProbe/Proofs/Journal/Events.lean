import Mathlib.Data.List.Forall2
import ProcessProbe.Journal.Line
import ProcessProbe.Proofs.Host.Exchange
import ProcessProbe.Proofs.Host.Transcript

/-!
# Events of an inquiry

The entries that an inquiry makes in the journal, and the events among them. Those of an inquiry that is made of parts
are the ones of its parts, and a quiet part has none. Main statement: a journal that admits every event has one
line for each of them, in order.
-/

namespace ProcessProbe

variable {α β σ : Type}

/-- The entry that a request makes in the journal. -/
def Request.entry? : Request → Option Journal.Entry
  | .record entry => some entry
  | _ => none

def Journal.Entry.event? : Journal.Entry → Option Journal.Event
  | .event e => some e
  | _ => none

namespace Inquiry

def journal (host : Host σ) (q : Inquiry α) (s : σ) : List Journal.Entry :=
  (q.requests host s).filterMap Request.entry?

def events (host : Host σ) (q : Inquiry α) (s : σ) : List Journal.Event :=
  (q.journal host s).filterMap Journal.Entry.event?

theorem events_bind (host : Host σ) (q : Inquiry α) (f : α → Inquiry β) (s : σ) :
    (q >>= f).events host s = q.events host s ++ (f (q.run host s).1).events host (q.run host s).2 := by
  rw [events, journal, requests_bind, List.filterMap_append, List.filterMap_append]
  rfl

@[simp] theorem events_pure (host : Host σ) (value : α) (s : σ) : (pure value : Inquiry α).events host s = [] := rfl

theorem requests_eq_map_transcript (host : Host σ) (q : Inquiry α) (s : σ) :
    q.requests host s = (q.transcript host s).map (·.request) := by
  induction q generalizing s with
  | done value => rfl
  | ask request next ih => exact congrArg (request :: ·) (ih ..)

/-- The request reports no event. -/
def quiet (_ : List Exchange) (request : Request) : Prop := request.entry?.bind Journal.Entry.event? = none

/-- Whatever it is answered, and whatever came before, the inquiry reports no event. -/
def Quiet (q : Inquiry α) : Prop := ∀ past, q.AsksOnly quiet past fun _ _ => True

namespace Quiet

theorem pure {value : α} : (Pure.pure value : Inquiry α).Quiet := fun _ => trivial

theorem send {request : Request} (h : request.entry?.bind Journal.Entry.event? = none) :
    (Inquiry.send request).Quiet := fun _ => ⟨h, fun _ => trivial⟩

theorem bind {q : Inquiry α} {f : α → Inquiry β} (hq : q.Quiet) (hf : ∀ value, (f value).Quiet) :
    (q >>= f).Quiet := by
  intro past
  apply (hq past).bind
  intro past' value _ _
  exact hf value past'

theorem events_eq_nil {q : Inquiry α} (hq : q.Quiet) (host : Host σ) (s : σ) : q.events host s = [] := by
  have hrequest : ∀ request ∈ q.requests host s, request.entry?.bind Journal.Entry.event? = none := by
    intro request hmem
    rw [requests_eq_map_transcript] at hmem
    obtain ⟨exchange, hexchange, rfl⟩ := List.mem_map.1 hmem
    obtain ⟨before, after, hsplit⟩ := List.append_of_mem hexchange
    exact (hq []).rule_of_mem hsplit
  rw [events, journal, List.filterMap_filterMap]
  exact List.filterMap_eq_nil_iff.2 hrequest

end Quiet

end Inquiry

namespace Journal

/-- Every event is written, wherever it happens. -/
def Filter.AdmitsAll (filter : Filter) : Prop := ∀ around event, filter.admitsEvent around event = true

theorem Filter.admitsAll_everything : everything.AdmitsAll := by
  intro around event
  have hlevel : Threshold.admits (.upTo .trace) event.level = true := by cases event.level <;> rfl
  have hstatic : staticallyAdmits [⟨.upTo .trace, none, none, none⟩] event.target event.level = true := hlevel
  exact Bool.or_eq_true_iff.2 (.inr hstatic)

/-- A journal that admits every event has one line for each of them, in order. -/
theorem lines_of_admitsAll {filter : Filter} (hfilter : filter.AdmitsAll) (time : String) (entries : List Entry) :
    List.Forall₂ (fun written event => ∃ spans, written = line time spans event)
      ((lines filter time entries).filterMap id) (entries.filterMap Entry.event?) := by
  suffices hfrom : ∀ scopes, List.Forall₂ (fun written event => ∃ spans, written = line time spans event)
      ((linesFrom filter time scopes entries).filterMap id) (entries.filterMap Entry.event?) from hfrom []
  induction entries with
  | nil => exact fun _ => .nil
  | cons entry entries ih =>
    intro scopes
    have hrest := ih (scopesAfter filter scopes entry)
    cases entry with
    | enter span => exact hrest
    | leave => exact hrest
    | event e =>
      have hline : lineOf? filter time scopes (.event e) = some (line time (scopes.map (·.correlation)) e) := by
        rw [lineOf?, if_pos (hfilter _ e)]
      rw [linesFrom, hline]
      exact .cons ⟨_, rfl⟩ hrest

end Journal

end ProcessProbe
