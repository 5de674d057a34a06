/-
How the execution of a command ends.

A process leaves a return code and, if its log is captured, that log.  Lines of text always hold a
complaint, and the complaint is a text (`scan_quotes`).  So once the log is read nothing goes wrong any more:
the execution has succeeded if the return code is zero, and else it has failed with that complaint.  Reading
the log comes first, whatever the return code, and it goes wrong exactly for bytes that encode no text
(`execute_error_iff`).
-/
import MediaCommand.Proofs.Complaints

namespace MediaCommand

/-! ### Logs -/

namespace Launch

/-- What a log says: bytes say the text that they encode. -/
def ProcessLog.Says : ProcessLog → String → Prop
  | .bytes data, said => said.toByteArray = ⟨data.toArray⟩
  | .text s, said => said = s

/-- What the log that a process left says, if it left one. -/
def Ending.Says (ending : Ending) (said : Option String) : Prop :=
  Option.Rel ProcessLog.Says ending.log said

theorem fromUTF8?_eq_some {b : ByteArray} {said : String} :
    String.fromUTF8? b = some said ↔ said.toByteArray = b := by
  unfold String.fromUTF8?
  split
  · rw [Option.some.injEq, ← String.toByteArray_inj]
    exact eq_comm
  · rename_i hinvalid
    refine iff_of_false nofun ?_
    rintro rfl
    exact hinvalid said.isValidUTF8

theorem decodeLog_some (left : ProcessLog) :
    (∀ said, left.Says said → decodeLog (some left) = .ok (some said)) ∧
    ((∀ said, ¬left.Says said) → decodeLog (some left) = .error (.fault .notUtf8)) := by
  cases left with
  | text s => exact ⟨fun said h => congrArg (Except.ok ∘ some) h.symm, fun h => absurd rfl (h s)⟩
  | bytes data =>
      unfold decodeLog
      dsimp only
      cases hread : String.fromUTF8? ⟨data.toArray⟩ with
      | none =>
          refine ⟨fun said h => ?_, fun _ => rfl⟩
          rw [fromUTF8?_eq_some.mpr h] at hread
          cases hread
      | some said =>
          have hsaid := fromUTF8?_eq_some.mp hread
          refine ⟨fun said' h => ?_, fun h => absurd hsaid (h said)⟩
          rw [fromUTF8?_eq_some.mpr h] at hread
          rw [hread]

/-- A log that says something is read. -/
theorem decodeLog_ok {log : Option ProcessLog} {said : Option String}
    (h : Option.Rel ProcessLog.Says log said) : decodeLog log = .ok said := by
  cases h with
  | none => rfl
  | some h => exact (decodeLog_some _).1 _ h

/-- Reading a log goes wrong exactly if there is one that says nothing. -/
theorem decodeLog_error_iff {log : Option ProcessLog} {e : Error} :
    decodeLog log = .error e ↔
      e = .fault .notUtf8 ∧ ∃ left, log = some left ∧ ∀ said, ¬left.Says said := by
  constructor
  · intro h
    cases log with
    | none => cases h
    | some left =>
        have hsilent : ∀ said, ¬left.Says said := by
          intro said hsaid
          rw [(decodeLog_some left).1 said hsaid] at h
          cases h
        rw [(decodeLog_some left).2 hsilent] at h
        exact ⟨(Except.error.inj h).symm, left, rfl, hsilent⟩
  · rintro ⟨rfl, left, rfl, hsilent⟩
    exact (decodeLog_some left).2 hsilent

/-! ### Failures -/

/-- The complaint of a process that failed: in what its log says, or that there is nothing. -/
theorem failure_logLines (t : Texts) (log : Option String) :
    ∃ complaint, ErrorLog.failure t (logLines log) = .ok (.text complaint) ∧
      (∀ said, log = some said → said ≠ "" →
        ErrorLog.scan t (.ofTexts (ErrorLog.lines said)) = .ok (.text complaint)) ∧
      (log.getD "" = "" → complaint = "FFmpeg failed for unknown reason (no log available).") := by
  cases log with
  | none => exact ⟨_, rfl, nofun, fun _ => rfl⟩
  | some said =>
      by_cases hempty : said = ""
      · subst hempty
        exact ⟨_, rfl, fun said h hne => absurd (Option.some.inj h).symm hne, fun _ => rfl⟩
      · have hlines : logLines (some said) = some (.ofTexts (ErrorLog.lines said)) := by
          show (if said.isEmpty then none else some _) = _
          rw [if_neg (by simpa using hempty)]
        obtain ⟨complaint, hscan, -⟩ := ErrorLog.scan_quotes t (ErrorLog.lines_ne_nil said)
        rw [hlines]
        refine ⟨complaint, hscan, ?_, fun h => absurd h hempty⟩
        rintro said' h -
        cases h
        exact hscan

/-- A process that ended badly has failed, with a wording that depends on whether the caller has seen the
log. -/
theorem failureOf_ne_zero {t : Texts} {capture : Value} {returnCode : Int} {log : Option String}
    {complaint : String} (h : returnCode ≠ 0)
    (hcomplaint : ErrorLog.failure t (logLines log) = .ok (.text complaint)) :
    failureOf t capture returnCode log = .ok (some
      (if capture.isNull then (ErrorLog.shownFailureText, .text "")
        else (ErrorLog.failureText complaint, .text complaint))) := by
  unfold failureOf ErrorLog.failureWording
  rw [if_neg (by simpa using h), hcomplaint]
  cases capture <;> rfl

end Launch

/-! ### Executions -/

/-- The request that runs a command: the log is captured unless the caller decides about it. -/
def Request.running (r : Request) (command : CommandId) : Request :=
  { r with args := .object (.command command), captureLog := some (r.captureLog.getD (.bool true)) }

namespace Session

open Launch

variable {s : Session} {command : CommandId} {r r' : Request} {input : Value} {given : Invocation}

/-- The execution of a command comes to a call of the runner. -/
def Starts (s : Session) (command : CommandId) (r : Request) (input : Value) (given : Invocation) :
    Prop :=
  r.names "self" = false ∧
    ∃ r', withInput (r.running command).listening input = .ok r' ∧ (s.exec r').result = .ok given

/-- A process that was handed over and has ended is answered as soon as its log is read. -/
theorem run_result (hinput : withInput r.listening input = .ok r')
    (hgiven : (s.exec r').result = .ok given) (report : Option String)
    (listener : Progress.Listener) (ending : Ending) :
    (s.run r input report listener ending).result
      = ((decodeLog ending.log).mapError s.explain).map fun log =>
        ⟨given, (monitored listener false (r'.reported report)).told, ending.returnCode, log⟩ := by
  unfold run
  rw [hinput]
  show (s.exec r').result.bind _ = _
  rw [hgiven]
  rfl

theorem executed_zero {f : Finished} (h : f.returnCode = 0) : s.executed r f = .ok (.succeeded f) := by
  unfold executed failureOf
  rw [h]
  rfl

theorem executed_ne_zero {f : Finished} {complaint : String} (h : f.returnCode ≠ 0)
    (hcomplaint : ErrorLog.failure s.scene.texts (logLines f.log) = .ok (.text complaint)) :
    s.executed r f = .ok
      (if r.capture.isNull then .failed f ErrorLog.shownFailureText (.text "")
        else .failed f (ErrorLog.failureText complaint) (.text complaint)) := by
  unfold executed
  rw [failureOf_ne_zero h hcomplaint]
  cases r.capture.isNull <;> rfl

/-- Nothing goes wrong any more once the log is read. -/
theorem executed_ok (s : Session) (r : Request) (f : Finished) : ∃ how, s.executed r f = .ok how := by
  by_cases h : f.returnCode = 0
  · exact ⟨_, executed_zero h⟩
  · obtain ⟨complaint, hcomplaint, -⟩ := failure_logLines s.scene.texts f.log
    exact ⟨_, executed_ne_zero h hcomplaint⟩

section Started

variable (hstarts : s.Starts command r input given) (report : Option String)
  (listener : Progress.Listener)
include hstarts

/-- What becomes of the execution of a command whose process was handed over and has ended. -/
theorem execute_result (ending : Ending) :
    ∃ blocks, (s.execute command r input report listener ending).result
      = ((decodeLog ending.log).mapError s.explain).bind fun log =>
        (s.executed (r.running command) ⟨given, blocks, ending.returnCode, log⟩).mapError s.explain := by
  obtain ⟨hself, r', hinput, hgiven⟩ := hstarts
  refine ⟨(monitored listener false (r'.reported report)).told, ?_⟩
  unfold execute
  rw [hself]
  show (s.run (r.running command) input report listener ending).result.bind _ = _
  rw [run_result hinput hgiven]
  cases decodeLog ending.log <;> rfl

/-- Such an execution goes wrong exactly if the log is no text. -/
theorem execute_error_iff (ending : Ending) (e : Explained) :
    (s.execute command r input report listener ending).result = .error e ↔
      e = ⟨.fault .notUtf8, none⟩ ∧ ∃ left, ending.log = some left ∧ ∀ said, ¬left.Says said := by
  have hcause : s.explain (.fault .notUtf8) = ⟨.fault .notUtf8, none⟩ := explain_described rfl
  obtain ⟨blocks, hended⟩ := execute_result hstarts report listener ending
  rw [hended]
  cases hlog : decodeLog ending.log with
  | error why =>
      obtain ⟨rfl, hsilent⟩ := decodeLog_error_iff.mp hlog
      rw [← hcause]
      exact ⟨fun h => ⟨(Except.error.inj h).symm, hsilent⟩, fun h => congrArg Except.error h.1.symm⟩
  | ok log =>
      obtain ⟨how, hhow⟩ := s.executed_ok (r.running command) ⟨given, blocks, ending.returnCode, log⟩
      refine iff_of_false (fun h => ?_) (fun h => ?_)
      · change Except.mapError _ _ = _ at h
        rw [hhow] at h
        cases h
      · rw [decodeLog_error_iff.mpr ⟨rfl, h.2⟩] at hlog
        cases hlog

/-- With any other log it succeeds, or fails with the complaint in the log. -/
theorem execute_ended {ending : Ending} {said : Option String} (hsaid : ending.Says said) :
    ∃ f : Finished, f.invocation = given ∧ f.returnCode = ending.returnCode ∧ f.log = said ∧
      (s.execute command r input report listener ending).result
        = (s.executed (r.running command) f).mapError s.explain := by
  obtain ⟨blocks, hended⟩ := execute_result hstarts report listener ending
  refine ⟨⟨given, blocks, ending.returnCode, said⟩, rfl, rfl, rfl, ?_⟩
  rw [hended, decodeLog_ok hsaid]
  rfl

end Started

/-- A command that can be compiled is handed over by any request that is not refused. -/
theorem starts_of_compiled {c : Command} {args : List String} {path : String}
    (hcommand : s.objects.command command = .ok c)
    (hargs : s.objects.commandArgs s.scene.texts s.settings.mapsPerOutput c = .ok (args.map .text))
    (hpath : s.program.toStart c.executable = .ok path)
    (hnames : ∀ name ∈ ["self", "input"] ++ (["args", "executable"] ++ ["ffmpeg_args", "sp_run"]),
      r.names name = false)
    (hmonitor : r.monitor = .null) (hinput : input = .null ∨ ∃ data, input = .bytes data)
    (honce : ¬DecidesTwice r args) (hapart : ¬LogMeetsOutput r args) :
    ∃ given, s.Starts command r input given := by
  obtain ⟨hown, hrunner⟩ := List.forall_mem_append.mp hnames
  have hlistening : (r.running command).listening = r.running command := by
    unfold Request.listening
    exact if_pos (congrArg Value.isNull hmonitor)
  -- What reaches the launcher differs from the request in the input data and standard input alone.
  obtain ⟨stdin, hr'⟩ := withInput_fresh (r := r.running command) hinput (hown "input" (by decide))
  let r' : Request := { r.running command with keywords := r.keywords ++ [("input", input)], stdin }
  have hresolved : resolveArgs s.scene r'.args = .ok (c.executable, args.map .text) := by
    show (do
      let c ← s.objects.command command
      return (c.executable, ← s.objects.commandArgs s.scene.texts s.settings.mapsPerOutput c)) = _
    rw [hcommand]
    show (do return (c.executable, ← s.objects.commandArgs s.scene.texts s.settings.mapsPerOutput c)) = _
    rw [hargs]
    rfl
  have hurl : reportsTo s.objects r' = .ok (r.progressFile.map .text) := reportsTo_file _ hmonitor
  have hnames' : ∀ name ∈ ["args", "executable"] ++ ["ffmpeg_args", "sp_run"],
      r'.names name = false := by
    intro name hname
    show (r.keywords ++ [("input", input)]).any (·.1 == name) = false
    have hother : ∀ name ∈ ["args", "executable"] ++ ["ffmpeg_args", "sp_run"],
        [("input", input)].any (·.1 == name) = false := by simp
    rw [List.any_append, hother name hname, Bool.or_false]
    exact hrunner name hname
  have hgiven := exec_result_given hresolved hurl hnames' honce hapart
  rw [hpath] at hgiven
  exact ⟨_, hown "self" (by decide), r', hlistening.symm ▸ hr', hgiven⟩

/-- **The execution of a command goes wrong exactly if its log is no text.**  A command that can be compiled
is started by any request that is not refused.  Once its process has ended, the execution goes wrong for bytes
that encode no text and for nothing else, whatever the return code.  In every other case it succeeds if the
return code is zero, and else it fails with the complaint in the log, which is kept back where the log was
shown. -/
theorem legible_failures_reported (s : Session) (command : CommandId) (r : Request) (input : Value) :
    (∀ c args path, s.objects.command command = .ok c →
      s.objects.commandArgs s.scene.texts s.settings.mapsPerOutput c = .ok (args.map .text) →
      s.program.toStart c.executable = .ok path →
      (∀ name ∈ ["self", "input"] ++ (["args", "executable"] ++ ["ffmpeg_args", "sp_run"]),
        r.names name = false) →
      r.monitor = .null → (input = .null ∨ ∃ data, input = .bytes data) →
      ¬DecidesTwice r args → ¬LogMeetsOutput r args → ∃ given, s.Starts command r input given) ∧
    ∀ given, s.Starts command r input given → ∀ report listener ending,
      let ended := (s.execute command r input report listener ending).result
      let capture := r.captureLog.getD (.bool true)
      (∀ e, ended = .error e ↔ e = ⟨.fault .notUtf8, none⟩ ∧
        ∃ left, ending.log = some left ∧ ∀ said, ¬left.Says said) ∧
      (∀ said, ending.Says said → ∃ f : Finished,
        f.invocation = given ∧ f.returnCode = ending.returnCode ∧ f.log = said ∧
        (ending.returnCode = 0 → ended = .ok (.succeeded f)) ∧
        (ending.returnCode ≠ 0 → capture.isNull = true →
          ended = .ok (.failed f ErrorLog.shownFailureText (.text ""))) ∧
        (ending.returnCode ≠ 0 → capture.isNull = false → ∃ complaint,
          ended = .ok (.failed f (ErrorLog.failureText complaint) (.text complaint)) ∧
          (∀ log, said = some log → log ≠ "" → s.complaintIn (.text log) = .ok (.text complaint)) ∧
          (said.getD "" = "" →
            complaint = "FFmpeg failed for unknown reason (no log available)."))) := by
  refine ⟨fun _ _ _ => starts_of_compiled, ?_⟩
  intro given hstarts report listener ending ended capture
  refine ⟨execute_error_iff hstarts report listener ending, ?_⟩
  intro said hsaid
  obtain ⟨f, hinvocation, hcode, hlog, hended⟩ := execute_ended hstarts report listener hsaid
  obtain ⟨complaint, hcomplaint, hscan, hnothing⟩ := failure_logLines s.scene.texts f.log
  refine ⟨f, hinvocation, hcode, hlog, ?_, ?_, ?_⟩
  · intro hzero
    exact hended.trans (congrArg (Except.mapError s.explain) (executed_zero (hcode.trans hzero)))
  · intro hfailed hnull
    have hshown : (r.running command).capture.isNull = true := hnull
    have hexecuted : s.executed (r.running command) f = _ := executed_ne_zero (hcode ▸ hfailed) hcomplaint
    rw [if_pos hshown] at hexecuted
    exact hended.trans (congrArg (Except.mapError s.explain) hexecuted)
  · intro hfailed hcaptured
    have hhidden : (r.running command).capture.isNull = false := hcaptured
    have hexecuted : s.executed (r.running command) f = _ := executed_ne_zero (hcode ▸ hfailed) hcomplaint
    rw [if_neg (Bool.eq_false_iff.mp hhidden)] at hexecuted
    have hreported : ended = .ok (.failed f (ErrorLog.failureText complaint) (.text complaint)) :=
      hended.trans (congrArg (Except.mapError s.explain) hexecuted)
    rw [hlog] at hscan hnothing
    refine ⟨complaint, hreported, ?_, hnothing⟩
    intro log htext hne
    rw [complaintIn_text]
    exact hscan log htext hne

/-- A process ends with a log of one byte that encodes no text: the execution goes wrong, whether the process
has failed or not. -/
theorem illegible_log_hides_ending :
    let objects : Objects :=
      { inputs := [⟨some (.text "in.mp4"), [], some 0⟩], outputs := [⟨some (.text "out.mp4"), [], []⟩]
        commands := [{ options := [], executable := none, inputs := [⟨0⟩], outputs := [⟨0⟩] }] }
    let s : Session := { objects, program := { path := some "ffmpeg" } }
    ∀ returnCode, (s.execute ⟨0⟩ { args := .null } .null none {} ⟨returnCode, some (.bytes [0xff])⟩).result
      = .error ⟨.fault .notUtf8, none⟩ := by
  intro objects s returnCode
  have hillegible : ∀ said, ¬(ProcessLog.bytes [0xff]).Says said := by
    intro said hsaid
    have hvalid : (⟨#[0xff]⟩ : ByteArray).IsValidUTF8 := hsaid ▸ said.isValidUTF8
    exact absurd (hvalid.isUTF8FirstByte_getElem_zero (by decide)) (by decide)
  have hcommand : s.objects.command ⟨0⟩
      = .ok { options := [], executable := none, inputs := [⟨0⟩], outputs := [⟨0⟩] } := rfl
  have hargs : s.objects.commandArgs s.scene.texts s.settings.mapsPerOutput
      { options := [], executable := none, inputs := [⟨0⟩], outputs := [⟨0⟩] }
      = .ok (["-i", "in.mp4", "out.mp4"].map .text) := by rfl
  have honce : ¬DecidesTwice { args := .null } ["-i", "in.mp4", "out.mp4"] := fun h => absurd h.1 (by decide)
  have hapart : ¬LogMeetsOutput { args := .null } ["-i", "in.mp4", "out.mp4"] :=
    fun h => absurd h.1 (by decide)
  obtain ⟨hstarts, hended⟩ := legible_failures_reported s ⟨0⟩ { args := .null } .null
  obtain ⟨given, hgiven⟩ := hstarts _ _ _ hcommand hargs rfl (by decide) rfl (.inl rfl) honce hapart
  exact ((hended given hgiven none {} ⟨returnCode, some (.bytes [0xff])⟩).1 _).mpr
    ⟨rfl, _, rfl, hillegible⟩

end Session

end MediaCommand
