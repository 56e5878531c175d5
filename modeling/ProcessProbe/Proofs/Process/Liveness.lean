import ProcessProbe.Process.Liveness
import ProcessProbe.Proofs.Host.Path
import ProcessProbe.Proofs.Host.Steady
import ProcessProbe.Proofs.Text.Decimal
import ProcessProbe.Proofs.Text.Utf8

/-!
# What liveness rests on

The text that a record is read as, and where the record of a process is: no two processes have it in one place.
-/

namespace ProcessProbe.Liveness

open Text (decimal)

def textIn : Except SystemError Bytes → Except SystemError (List Char)
  | .error e => .error e
  | .ok bytes =>
    match Utf8.decode? bytes with
    | some text => .ok text
    | none => .error .notText

theorem textIn_eq_ok_iff {answer : Except SystemError Bytes} {text : List Char} :
    textIn answer = .ok text ↔ answer = .ok (Utf8.encode text) := by
  cases answer with
  | error e => simp [textIn]
  | ok bytes =>
    rw [Except.ok.injEq, eq_comm (b := Utf8.encode text), ← Utf8.decode?_eq_some_iff, textIn]
    cases Utf8.decode? bytes <;> simp

theorem textIn_of_forall_ne {bytes : Bytes} (h : ∀ text, Utf8.encode text ≠ bytes) :
    textIn (.ok bytes) = .error .notText := by
  cases hdecode : Utf8.decode? bytes with
  | none => simp [textIn, hdecode]
  | some text => exact absurd (Utf8.decode?_eq_some_iff.1 hdecode) (h text)

theorem readText_eq (path : Path) : readText path = textIn <$> Inquiry.readFile path := by
  rw [readText, map_eq_pure_bind]
  congr 1
  funext answer
  cases answer with
  | error e => rfl
  | ok bytes =>
    simp only [textIn]
    cases Utf8.decode? bytes <;> rfl

theorem run_readText_of_read {σ : Type} {host : Host σ} {s s' : σ} {path : Path}
    {answer : Except SystemError Bytes} (hread : host.answer (.readFile path) s = (answer, s')) :
    (readText path).run host s = (textIn answer, s') := by
  rw [readText_eq, Inquiry.run_map, Inquiry.run_readFile, hread]

private theorem encodeChar_of_isDigit {c : Char} (h : c.isDigit = true) :
    String.utf8EncodeChar c = [UInt8.ofNat c.toNat] := by
  rw [Char.isDigit_iff_toNat] at h
  have hhi : c.toNat ≤ 57 := h.2
  exact if_pos (show c.toNat ≤ 127 by omega)

private theorem separator_not_mem_encode_decimal (n : Nat) : Path.separator ∉ Utf8.encode (decimal n) := by
  intro h
  obtain ⟨c, hc, hbyte⟩ := List.mem_flatMap.1 h
  have hdigit := Text.isDigit_of_mem_decimal hc
  rw [encodeChar_of_isDigit hdigit, List.mem_singleton] at hbyte
  rw [Char.isDigit_iff_toNat] at hdigit
  have hrange : 48 ≤ c.toNat ∧ c.toNat ≤ 57 := hdigit
  have hnat : 47 = c.toNat % 256 := congrArg UInt8.toNat hbyte
  omega

private theorem encode_decimal_ne_nil (n : Nat) : Utf8.encode (decimal n) ≠ [] := by
  rw [Ne, ← show Utf8.encode [] = [] from rfl]
  exact fun h => Text.decimal_ne_nil n (Utf8.encode_injective h)

theorem entry_eq (procRoot : Path) {name : String} (hname : (Path.ofString name).isAbsolute = false) :
    ∃ before, ∀ pid, (entry procRoot pid name).bytes =
      before ++ Utf8.encode (decimal pid) ++ Path.separator :: (Path.ofString name).bytes := by
  obtain ⟨before, hbefore⟩ := procRoot.join_eq_append
  refine ⟨before, fun pid => ?_⟩
  have hbytes : (Path.ofString (toString pid)).bytes = Utf8.encode (decimal pid) := by
    rw [Path.ofString, Bytes.ofString, Text.toList_toString]
  have hpid : (Path.ofString (toString pid)).isAbsolute = false := by
    rw [Path.isAbsolute, hbytes, beq_eq_false_iff_ne]
    exact fun h => separator_not_mem_encode_decimal pid (List.mem_of_head? h)
  have hjoin := hbefore _ hpid
  rw [hbytes] at hjoin
  exact Path.join_of_not_mem_separator hjoin (encode_decimal_ne_nil pid) (separator_not_mem_encode_decimal pid) hname

theorem entry_injective {procRoot : Path} {name : String} (hname : (Path.ofString name).isAbsolute = false)
    {m n : Nat} (h : entry procRoot m name = entry procRoot n name) : m = n := by
  obtain ⟨before, hbefore⟩ := entry_eq procRoot hname
  have hbytes := congrArg Path.bytes h
  rw [hbefore, hbefore] at hbytes
  have hdigits := List.append_cancel_left (List.append_cancel_right hbytes)
  exact Text.decimal_injective (Utf8.encode_injective hdigits)

theorem entry_stat_beq (procRoot : Path) (m n : Nat) :
    (entry procRoot m "stat" == entry procRoot n "stat") = (m == n) := by
  rw [Bool.eq_iff_iff, beq_iff_eq, beq_iff_eq]
  exact ⟨entry_injective (by decide), fun h => by rw [h]⟩

/-! ## On a steady host -/

/-- What the answer to a signal says about the existence of a process. -/
def existence (h : Handle) : Except SystemError Unit → Except Failure Unit
  | .ok () => .ok ()
  | .error e =>
    if e = .operationNotPermitted then .ok ()
    else if e = .noSuchProcess then .error (.notFound h.pid)
    else .error (.backendUnavailable "kill" s!"existence check failed: {e.message}")

theorem ensureExists_eq (h : Handle) :
    ensureExists h = (do Query.ofExcept (existence h (← Inquiry.probe h.toInt))) := by
  have hpos : ¬h.toInt ≤ 0 := by
    have := h.pid_pos
    simp only [Handle.toInt]
    omega
  rw [ensureExists, if_neg hpos]
  refine congrArg (liftM (Inquiry.probe h.toInt) >>= ·) (funext fun answer => ?_)
  cases answer with
  | ok => rfl
  | error e =>
    simp only [existence]
    split
    · rfl
    · split <;> rfl

section Steady

open Diagnostic (Policy)

variable {σ : Type} {host : Host σ} {steady : σ → Prop} (hkeeps : host.Keeps steady) (p : Policy) {procRoot : Path}
  {h : Handle}

include hkeeps

theorem ensureExists_comesTo {answer : Except SystemError Unit}
    (hprobe : ∀ s, steady s → (host.answer (.probe h.toInt) s).1 = answer) :
    Query.ComesTo host steady (ensureExists h) (· = existence h answer) := by
  rw [ensureExists_eq]
  refine Query.ComesTo.bind_lift hkeeps (P := (· = answer)) hprobe fun answer' hanswer => ?_
  rw [hanswer]
  exact Query.ComesTo.ofExcept rfl

theorem runState_comesTo_of_record {state : Char}
    (hstat : ∀ s, steady s → ∃ text record, Report.StatRecord.ofText text = .ok record ∧ record.state = state ∧
      textIn (host.answer (.readFile (entry procRoot h.pid "stat")) s).1 = .ok text) :
    Query.ComesTo host steady (runState p procRoot h) (· = .ok (some state)) := by
  have hrecord : Inquiry.ComesTo host steady (recordEvidence procRoot h) (· = .state state) := by
    refine Inquiry.ComesTo.bind hkeeps (P := fun text => ∃ t record, Report.StatRecord.ofText t = .ok record ∧
      record.state = state ∧ text = .ok t) ?_ fun text htext => ?_
    · rw [readText_eq]
      exact Inquiry.ComesTo.map_send hstat
    · obtain ⟨t, record, hread, hstate, rfl⟩ := htext
      simp only [hread]
      exact Inquiry.ComesTo.pure (congrArg Evidence.state hstate)
  refine Query.ComesTo.bind_lift hkeeps (P := (· = .state state)) ?_ fun evidence hevidence => ?_
  · refine Inquiry.ComesTo.bind hkeeps hrecord fun evidence hevidence => ?_
    rw [hevidence]
    exact Inquiry.ComesTo.pure rfl
  · rw [hevidence]
    exact Query.ComesTo.pure rfl

theorem ensureLive_comesTo_of_absent
    (hprobe : ∀ s, steady s → (host.answer (.probe h.toInt) s).1 = .error .noSuchProcess) :
    Query.ComesTo host steady (ensureLive p procRoot h) (· = .error (.notFound h.pid)) := by
  refine Query.ComesTo.bind hkeeps (ensureExists_comesTo hkeeps hprobe) (fun _ hexists => ?_) fun failure hfailure => ?_
  · contradiction
  · exact congrArg Except.error (Except.error.inj hfailure)

theorem ensureLive_comesTo_of_zombie (hprobe : ∀ s, steady s → (host.answer (.probe h.toInt) s).1 = .ok ())
    (hstat : ∀ s, steady s → ∃ text record, Report.StatRecord.ofText text = .ok record ∧ record.state = zombie ∧
      textIn (host.answer (.readFile (entry procRoot h.pid "stat")) s).1 = .ok text) :
    Query.ComesTo host steady (ensureLive p procRoot h) (· = .error (.notFound h.pid)) := by
  refine Query.ComesTo.bind hkeeps (ensureExists_comesTo hkeeps hprobe) (fun _ _ => ?_) fun _ hfailure => ?_
  · refine Query.ComesTo.bind hkeeps (runState_comesTo_of_record hkeeps p hstat) (fun state hzombie => ?_) (by simp)
    rw [Except.ok.inj hzombie, if_pos rfl]
    exact Query.ComesTo.throw rfl
  · contradiction

/-- A process that a signal reaches counts as live if neither its record nor `ps` can be read. -/
theorem ensureLive_comesTo_of_undecided (hprobe : ∀ s, steady s → (host.answer (.probe h.toInt) s).1 = .ok ())
    (hstat : ∀ s, steady s → textIn (host.answer (.readFile (entry procRoot h.pid "stat")) s).1 = .error .notText)
    (hps : Inquiry.ComesTo host steady (p.run "ps" (Diagnostic.stateArgs h) none) fun result => ∃ e, result = .error e) :
    Query.ComesTo host steady (ensureLive p procRoot h) (· = .ok ()) := by
  have hrecord : Inquiry.ComesTo host steady (recordEvidence procRoot h) (· = .undecided) := by
    refine Inquiry.ComesTo.bind hkeeps (P := (· = .error .notText)) ?_ fun text htext => ?_
    · rw [readText_eq]
      exact Inquiry.ComesTo.map_send hstat
    · rw [htext]
      exact Inquiry.ComesTo.pure rfl
  have hevidence : Inquiry.ComesTo host steady (evidence p procRoot h) (· = .undecided) := by
    refine Inquiry.ComesTo.bind hkeeps hrecord fun evidence hevidence => ?_
    rw [hevidence]
    refine Inquiry.ComesTo.bind hkeeps hps fun result hresult => ?_
    obtain ⟨e, rfl⟩ := hresult
    exact Inquiry.ComesTo.pure rfl
  have hstate : Query.ComesTo host steady (runState p procRoot h) (· = .ok none) := by
    refine Query.ComesTo.bind_lift hkeeps (P := (· = Evidence.undecided)) hevidence fun evidence hundecided => ?_
    rw [hundecided]
    exact Query.ComesTo.pure rfl
  refine Query.ComesTo.bind hkeeps (ensureExists_comesTo hkeeps hprobe) (fun _ _ => ?_) fun _ hfailure => ?_
  · refine Query.ComesTo.bind hkeeps hstate (fun state hnone => ?_) (by simp)
    rw [Except.ok.inj hnone]
    exact Query.ComesTo.pure rfl
  · contradiction

end Steady

end ProcessProbe.Liveness
