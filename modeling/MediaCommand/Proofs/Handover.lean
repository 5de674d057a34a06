/-
What the process runner is handed for a request.

Whether the arguments read standard input or write standard output is said here of the arguments alone
(`ReadsStdin`, `WritesStdout`).  From that, from the settings and from the request follow the two ways in
which a request is refused (`DecidesTwice`, `LogMeetsOutput`), and otherwise the flags in front of the
arguments and where the streams lead (`Handover`).
-/
import MediaCommand.Proofs.Dictionaries
import MediaCommand.Proofs.FoundProgram

namespace MediaCommand

namespace Launch

/-! ### What the arguments do -/

/-- Standard input is one of the inputs. -/
def ReadsStdin (args : List String) : Prop :=
  ∃ url ∈ ["-", "pipe:", "pipe:0"], ["-i", url] <:+: args

/-- The last argument is standard output. -/
def WritesStdout (args : List String) : Prop :=
  ∃ url ∈ ["-", "pipe:", "pipe:1"], args.getLast? = some url

theorem readsStdin_iff (args : List String) :
    readsStdin (args.map .text) = true ↔ ReadsStdin args := by
  induction args with
  | nil => simp [readsStdin, ReadsStdin]
  | cons a rest ih =>
      cases rest with
      | nil => simp [readsStdin, ReadsStdin, List.infix_cons_iff]
      | cons b rest =>
          -- A pair of neighbours stands at the head or further behind.
          have hpair : ∀ url, ["-i", url] <:+: a :: b :: rest ↔
              (a = "-i" ∧ b = url) ∨ ["-i", url] <:+: b :: rest := by
            intro url
            rw [List.infix_cons_iff, List.cons_prefix_cons, List.cons_prefix_cons]
            simp [eq_comm]
          have hhead : (Argument.text a == .text "-i" && stdinUrls.contains (.text b)) = true ↔
              ∃ url ∈ ["-", "pipe:", "pipe:0"], a = "-i" ∧ b = url := by
            simp [stdinUrls, and_comm]
          rw [List.map_cons] at ih
          rw [List.map_cons, List.map_cons, readsStdin, Bool.or_eq_true, ih, hhead]
          simp only [ReadsStdin, hpair, and_or_left, exists_or]

theorem writesStdout_iff (args : List String) :
    writesStdout (args.map .text) = true ↔ WritesStdout args := by
  unfold writesStdout
  rw [List.getLast?_map]
  cases hlast : args.getLast? with
  | none => simp [WritesStdout, hlast]
  | some url => simp [WritesStdout, hlast, stdoutUrls]

theorem eq_null {v : Value} (h : v.isNull = true) : v = .null := by
  cases v with
  | null => rfl
  | _ => cases h

/-- Texts among arguments are found by their letters. -/
theorem contains_text (args : List String) (word : String) :
    (args.map Argument.text).contains (.text word) = true ↔ word ∈ args := by
  simp

/-! ### Refusals -/

/-- The caller and the arguments both decide whether to overwrite files. -/
def DecidesTwice (r : Request) (args : List String) : Prop :=
  r.overwrite.isNull = false ∧ ("-y" ∈ args ∨ "-n" ∈ args)

/-- The log is to go with the output, and the output goes into a pipe. -/
def LogMeetsOutput (r : Request) (args : List String) : Prop :=
  Handle.stdout.isMeant r.stderr = true ∧
    (Handle.pipe.isMeant r.stdout = true ∨ r.stdout.isNull = true ∧ WritesStdout args)

/-- The output leads into a pipe if it is asked to, or if nothing is asked and the arguments write there. -/
theorem stdout_piped_iff (r : Request) (args : List String) :
    Handle.pipe.isMeant (stdoutValue r (args.map .text)) = true ↔
      Handle.pipe.isMeant r.stdout = true ∨ r.stdout.isNull = true ∧ WritesStdout args := by
  unfold stdoutValue
  rw [← writesStdout_iff]
  cases hnull : r.stdout.isNull with
  | false => simp
  | true =>
      have hasked : Handle.pipe.isMeant r.stdout = false := by
        rw [eq_null hnull]
        decide
      cases hwrites : writesStdout (args.map .text) with
      | false => simp [hasked]
      | true =>
          have hpiped : Handle.pipe.isMeant Handle.pipe.toValue = true := by decide
          exact iff_of_true hpiped (.inr ⟨rfl, rfl⟩)

/-! ### Flags -/

/-- The flags that name a file for progress reports; an empty name is none. -/
def reportFlags (url : Option String) : List String :=
  match url.filter (!·.isEmpty) with
  | some file => ["-progress", file]
  | none => []

/-- The flag that answers whether to overwrite files, if the caller does. -/
def answerFlags (o : Objects) (r : Request) : List String :=
  if r.overwrite.isNull then [] else [if o.truth r.overwrite then "-y" else "-n"]

/-- The flags that silence the program. -/
def quietFlags (o : Objects) (settings : Settings) (r : Request) (args : List String) : List String :=
  stdinFlag settings (args.map .text) ++ bannerFlag o settings r (args.map .text)

variable {o : Objects} {settings : Settings} {r : Request} {args : List String} {url : Option String}

/-- Without a keyword in its place, progress goes to the file that the request names. -/
theorem reportsTo_file (o : Objects) (h : r.monitor = .null) :
    reportsTo o r = .ok (r.progressFile.map .text) := by
  unfold reportsTo
  rw [h]
  cases r.progressFile <;> rfl

theorem progressFlag_texts (h : reportsTo o r = .ok (url.map .text)) :
    progressFlag o r = .ok ((reportFlags url).map .text) := by
  have hnamed : (url.map Argument.text).filter (fun file => o.truth file.toValue)
      = (url.filter (!·.isEmpty)).map .text := by
    rw [Option.filter_map]
    congr 2
    funext file
    show (file != "") = !file.isEmpty
    rw [Bool.eq_iff_iff]
    simp
  unfold progressFlag reportFlags
  rw [h]
  dsimp only [bind, Except.bind]
  rw [hnamed]
  cases url.filter (!·.isEmpty) <;> rfl

/-- Whether to overwrite files is decided by the caller, unless the arguments decide it as well. -/
theorem overwriteFlag_texts (o : Objects) (r : Request) (args : List String) :
    (DecidesTwice r args → overwriteFlag o r (args.map .text) = .error .overwriteTwice) ∧
    (¬DecidesTwice r args → overwriteFlag o r (args.map .text) = .ok (answerFlags o r)) := by
  have hdecided : ((args.map Argument.text).contains (.text "-y") ||
      (args.map Argument.text).contains (.text "-n")) = true ↔ "-y" ∈ args ∨ "-n" ∈ args := by
    rw [Bool.or_eq_true, contains_text, contains_text]
  unfold overwriteFlag DecidesTwice answerFlags
  cases hnull : r.overwrite.isNull with
  | true =>
      rw [eq_null hnull]
      simp
  | false =>
      split
      · rename_i h
        rw [h] at hnull
        cases hnull
      · rw [← hdecided]
        simp +contextual

theorem flags_twice (hurl : reportsTo o r = .ok (url.map .text)) (h : DecidesTwice r args) :
    flags o settings r (args.map .text) = .error .overwriteTwice := by
  unfold flags
  rw [progressFlag_texts hurl, (overwriteFlag_texts o r args).1 h]
  rfl

theorem flags_once (hurl : reportsTo o r = .ok (url.map .text)) (h : ¬DecidesTwice r args) :
    flags o settings r (args.map .text)
      = .ok ((quietFlags o settings r args ++ reportFlags url ++ answerFlags o r).map .text) := by
  unfold flags
  rw [progressFlag_texts hurl, (overwriteFlag_texts o r args).2 h, List.map_append, List.map_append]
  rfl

/-- Whether the caller, or else the settings, want no banner. -/
def hidesBanner (o : Objects) (settings : Settings) (r : Request) : Bool :=
  if r.hideBanner.isNull then settings.hideBanner else o.truth r.hideBanner

theorem mem_stdinFlag {flag : String} : flag ∈ stdinFlag settings (args.map .text) ↔
    flag = "-nostdin" ∧ settings.noStdin = true ∧ "-nostdin" ∉ args ∧ ¬ReadsStdin args := by
  unfold stdinFlag
  rw [← contains_text args "-nostdin", ← readsStdin_iff]
  split <;> simp_all

theorem bannerFlag_eq (o : Objects) (settings : Settings) (r : Request) (args : List Argument) :
    bannerFlag o settings r args
      = if hidesBanner o settings r && !args.contains (.text "-hide_banner") then ["-hide_banner"]
        else [] := by
  unfold bannerFlag hidesBanner
  cases r.hideBanner <;> rfl

theorem mem_bannerFlag {flag : String} : flag ∈ bannerFlag o settings r (args.map .text) ↔
    flag = "-hide_banner" ∧ hidesBanner o settings r = true ∧ "-hide_banner" ∉ args := by
  rw [bannerFlag_eq, ← contains_text args "-hide_banner"]
  split <;> simp_all

theorem quietFlags_sublist (o : Objects) (settings : Settings) (r : Request) (args : List String) :
    (quietFlags o settings r args).Sublist ["-nostdin", "-hide_banner"] := by
  have hone : ∀ (wanted : Bool) (flag : String),
      (if wanted then [flag] else []).Sublist [flag] := by
    intro wanted flag
    cases wanted with
    | false => exact List.nil_sublist _
    | true => exact List.Sublist.refl _
  exact (hone _ _).append (hone _ _)

/-- A flag that silences the program is added only where the arguments lack it. -/
theorem not_mem_of_quiet {flag : String} (h : flag ∈ quietFlags o settings r args) : flag ∉ args := by
  rcases List.mem_append.mp h with h | h
  · obtain ⟨rfl, -, hmissing, -⟩ := mem_stdinFlag.mp h
    exact hmissing
  · obtain ⟨rfl, -, hmissing⟩ := mem_bannerFlag.mp h
    exact hmissing

/-- The flag that answers whether to overwrite files is added only where the arguments lack it. -/
theorem not_mem_of_answer (h : ¬DecidesTwice r args) {flag : String} (hflag : flag ∈ answerFlags o r) :
    flag ∉ args := by
  unfold answerFlags at hflag
  split at hflag
  · cases hflag
  · rename_i hgiven
    intro hmem
    refine h ⟨by simpa using hgiven, ?_⟩
    rw [List.mem_singleton] at hflag
    split at hflag
    · exact .inl (hflag ▸ hmem)
    · exact .inr (hflag ▸ hmem)

/-! ### Streams -/

/-- A word for a handle is told for nothing but a handle. -/
theorem isNull_told (v : Value) : (Handle.told v).isNull = v.isNull := by
  cases v with
  | int n =>
      show (((Handle.all.find? (·.number == n)).map fun h => Value.text h.word).getD (.int n)).isNull = false
      cases Handle.all.find? (·.number == n) <;> rfl
  | _ => rfl

/-- Standard input is left alone only if nobody asks for it and the arguments do not read it, or read the
input data. -/
theorem isNull_stdinValue (r : Request) (args : List String) :
    (stdinValue r (args.map .text)).isNull = true ↔
      r.stdin.isNull = true ∧ (ReadsStdin args → hasInput r = true) := by
  unfold stdinValue
  rw [← readsStdin_iff]
  cases hasInput r with
  | true => simp
  | false =>
      cases hnull : r.stdin.isNull with
      | false => simp [hnull]
      | true =>
          cases readsStdin (args.map .text) with
          | false => simp [hnull]
          | true => exact iff_of_false nofun (by simp)

theorem isNull_stdoutValue (r : Request) (args : List String) :
    (stdoutValue r (args.map .text)).isNull = true ↔ r.stdout.isNull = true ∧ ¬WritesStdout args := by
  unfold stdoutValue
  rw [← writesStdout_iff]
  cases hnull : r.stdout.isNull with
  | false => simp [hnull]
  | true =>
      cases writesStdout (args.map .text) with
      | false => simp [hnull]
      | true => exact iff_of_false nofun (by simp)

/-! ### The call of the runner -/

/-- What goes into the call of the runner besides the program and the arguments. -/
structure Handover where
  quiet : List String
  report : List String
  answer : List String
  stdin : Value
  stdout : Value
  stderr : Value

/-- The call of the runner: the program, the flags, the arguments as they are, then the streams and what
further keywords the caller gives. -/
def Handover.call (h : Handover) (path : String) (args : List String)
    (keywords : List (String × Value)) : Invocation where
  argv := (path :: (h.quiet ++ h.report ++ h.answer ++ args)).map .text
  keywords := ("stdin", h.stdin) :: ("stdout", h.stdout) :: ("stderr", h.stderr) :: keywords

/-- What a request and the settings ask for, and nothing that the arguments have already. -/
structure Handover.Fits (o : Objects) (settings : Settings) (r : Request) (args : List String)
    (url : Option String) (h : Handover) : Prop where
  quiet : h.quiet.Sublist ["-nostdin", "-hide_banner"]
  closes : "-nostdin" ∈ h.quiet ↔
    settings.noStdin = true ∧ "-nostdin" ∉ args ∧ ¬ReadsStdin args
  hides : "-hide_banner" ∈ h.quiet ↔ hidesBanner o settings r = true ∧ "-hide_banner" ∉ args
  report : h.report = reportFlags url
  answer : h.answer = answerFlags o r
  missing : ∀ flag ∈ h.quiet ++ h.answer, flag ∉ args
  stdin_asked : r.stdin.isNull = false → h.stdin = Handle.told r.stdin
  stdin_alone : h.stdin.isNull = true ↔ r.stdin.isNull = true ∧ (ReadsStdin args → hasInput r = true)
  stdout_asked : r.stdout.isNull = false → h.stdout = Handle.told r.stdout
  stdout_alone : h.stdout.isNull = true ↔ r.stdout.isNull = true ∧ ¬WritesStdout args
  stderr : h.stderr = Handle.told (stderrValue o r)

/-- What goes into the call for a request. -/
def handover (o : Objects) (settings : Settings) (r : Request) (args : List String)
    (url : Option String) : Handover where
  quiet := quietFlags o settings r args
  report := reportFlags url
  answer := answerFlags o r
  stdin := Handle.told (stdinValue r (args.map .text))
  stdout := Handle.told (stdoutValue r (args.map .text))
  stderr := Handle.told (stderrValue o r)

theorem handover_fits (h : ¬DecidesTwice r args) :
    (handover o settings r args url).Fits o settings r args url where
  quiet := quietFlags_sublist o settings r args
  closes := by
    show _ ∈ _ ++ _ ↔ _
    rw [List.mem_append, mem_stdinFlag, mem_bannerFlag]
    simp
  hides := by
    show _ ∈ _ ++ _ ↔ _
    rw [List.mem_append, mem_stdinFlag, mem_bannerFlag]
    simp
  report := rfl
  answer := rfl
  missing := fun flag hflag => (List.mem_append.mp hflag).elim not_mem_of_quiet (not_mem_of_answer h)
  stdin_asked := by
    intro hasked
    show Handle.told (if r.stdin.isNull && _ && _ then _ else _) = _
    rw [hasked]
    rfl
  stdin_alone := (isNull_told _).symm ▸ isNull_stdinValue r args
  stdout_asked := by
    intro hasked
    show Handle.told (if r.stdout.isNull && _ then _ else _) = _
    rw [hasked]
    rfl
  stdout_alone := (isNull_told _).symm ▸ isNull_stdoutValue r args
  stderr := rfl

variable {s : Scene} {program : Program} {asked : Option String}

/-- A list of texts is taken as the arguments that it lists. -/
theorem resolveArgs_texts (s : Scene) (args : List String) :
    resolveArgs s (.list (args.map .text)) = .ok (none, args.map .text) := by
  have hplain : (args.map Value.text).mapM s.plain = .ok args := by
    rw [List.mapM_map]
    exact (mapM_ok_map fun _ _ => by rfl).trans (by rw [List.map_id'])
  show (do return (none, (← (args.map Value.text).mapM s.plain).map Argument.text)) = _
  rw [hplain]
  rfl

section Exec

variable (hargs : resolveArgs s r.args = .ok (asked, args.map .text))
  (hurl : reportsTo s.objects r = .ok (url.map .text))
include hargs hurl

theorem exec_twice (h : DecidesTwice r args) :
    exec s settings program r = .error .overwriteTwice := by
  unfold exec
  rw [hargs]
  show (flags s.objects settings r (args.map .text) >>= _) = _
  rw [flags_twice hurl h]
  rfl

theorem exec_meets (h : ¬DecidesTwice r args) (hmeets : LogMeetsOutput r args) :
    exec s settings program r = .error .stderrIntoStdout := by
  have hpiped := (stdout_piped_iff r args).mpr hmeets.2
  unfold exec
  rw [hargs]
  show (flags s.objects settings r (args.map .text) >>= _) = _
  rw [flags_once hurl h]
  show (if _ then _ else _) = _
  rw [hmeets.1, hpiped]
  rfl

/-- A request that is not refused is handed over as soon as there is a program to start. -/
theorem exec_given (settings : Settings) (program : Program) (h : ¬DecidesTwice r args)
    (hapart : ¬LogMeetsOutput r args) (hnames : ∀ name ∈ ["args", "executable"], r.names name = false) :
    exec s settings program r = (program.toStart asked).bind fun path =>
      .ok ((handover s.objects settings r args url).call path args r.keywords,
        ⟨.debug, " ".intercalate ((path :: (quietFlags s.objects settings r args ++ reportFlags url ++
          answerFlags s.objects r ++ args)).map Shell.quote)⟩) := by
  have hstreams : (Handle.stdout.isMeant r.stderr &&
      Handle.pipe.isMeant (stdoutValue r (args.map .text))) = false := by
    rw [Bool.eq_false_iff, ne_eq, Bool.and_eq_true, stdout_piped_iff]
    exact hapart
  have hvalues : ((quietFlags s.objects settings r args ++ reportFlags url ++ answerFlags s.objects r).map
      Argument.text ++ args.map Argument.text).map Argument.toValue
      = (quietFlags s.objects settings r args ++ reportFlags url ++ answerFlags s.objects r ++ args).map
        Value.text := by
    rw [← List.map_append, List.map_map]
    rfl
  unfold exec
  rw [hargs]
  show (flags s.objects settings r (args.map .text) >>= _) = _
  rw [flags_once hurl h]
  show (if _ then _ else if _ then _ else start _ _ _ _ _) = _
  rw [hstreams, hnames "args" (by decide), hnames "executable" (by decide), hvalues]
  cases hpath : program.toStart asked with
  | error e => exact start_error hpath _ _
  | ok path => exact start_texts hpath _ _

end Exec

/-- The keywords of a call lead the streams, and then come those of the caller. -/
theorem exec_keywords {given : Invocation} {line : LogLine}
    (h : exec s settings program r = .ok (given, line)) :
    ∃ args stdout stderr, given.keywords
      = ("stdin", Handle.told (stdinValue r args)) :: ("stdout", stdout) :: ("stderr", stderr) ::
        r.keywords := by
  -- The call is made at the very end, behind both refusals.
  obtain ⟨⟨asked, args⟩, -, h⟩ := bind_ok.mp h
  obtain ⟨flags, -, h⟩ := bind_ok.mp h
  dsimp only at h
  split at h
  · cases h
  · split at h
    · cases h
    · obtain ⟨path, -, h⟩ := bind_ok.mp h
      obtain ⟨line, -, h⟩ := bind_ok.mp h
      cases h
      exact ⟨args, _, _, rfl⟩

/-- Input data is handed over by its keyword and takes the place of standard input. -/
theorem withInput_ok {r' : Request} {input : Value} (h : withInput r input = .ok r') :
    ∃ data, Dict.get? r'.keywords "input" = some data ∧
      (data.bare.isNull = true ∨ r'.stdin = .null ∧ hasInput r' = true) := by
  unfold withInput at h
  dsimp only at h
  generalize (if input.isNull then (Dict.get? r.keywords "input").getD .null else input) = data at h
  have hget : Dict.get? (Dict.put r.keywords "input" data) "input" = some data := by
    rw [Dict.get?_put, if_pos (beq_self_eq_true _)]
  refine ⟨data, ?_⟩
  cases hbare : data.bare with
  | null =>
      rw [hbare] at h
      cases h
      exact ⟨hget, .inl rfl⟩
  | bytes bs =>
      rw [hbare] at h
      cases h
      refine ⟨hget, .inr ⟨rfl, ?_⟩⟩
      unfold hasInput
      rw [hget]
      cases data with
      | null => cases hbare
      | _ => rfl
  | _ =>
      rw [hbare] at h
      cases h

/-- Input data that is given is put behind the keywords. -/
theorem withInput_fresh {r : Request} {input : Value}
    (hinput : input = .null ∨ ∃ data, input = .bytes data) (hfresh : r.names "input" = false) :
    ∃ stdin, withInput r input
      = .ok { r with keywords := r.keywords ++ [("input", input)], stdin } := by
  have hkeys : "input" ∉ r.keywords.map Prod.fst := by
    intro hmem
    obtain ⟨entry, hentry, hname⟩ := List.mem_map.mp hmem
    have hany : r.names "input" = true := List.any_eq_true.mpr ⟨entry, hentry, beq_iff_eq.mpr hname⟩
    rw [hany] at hfresh
    cases hfresh
  rw [← Dict.put_of_not_mem hkeys]
  unfold withInput
  rw [Dict.get?_of_not_mem hkeys]
  rcases hinput with rfl | ⟨data, rfl⟩
  · exact ⟨r.stdin, rfl⟩
  · exact ⟨.null, rfl⟩

end Launch

/-- There is only one reason why no program can be started. -/
theorem Program.toStart_error {p : Program} {asked : Option String} {e : Error}
    (h : p.toStart asked = .error e) : e = .programNotFound := by
  unfold toStart at h
  split at h
  · cases h
  · exact (Except.error.inj h).symm

/-- A failure that can be put into words is told in these words. -/
theorem Scene.report_described {s : Scene} {e : Error} {text : Option String}
    (h : s.objects.describe s.texts e = .ok text) : s.report e = (e, text) := by
  obtain ⟨n, hn⟩ := Nat.exists_eq_succ_of_ne_zero (Nat.mul_ne_zero (Nat.succ_ne_zero (s.objects.count + 1))
    (Nat.succ_ne_zero s.objects.containerCount))
  unfold Scene.report Scene.depth
  rw [hn, Objects.report, h]

namespace Session

open Launch

variable {s : Session} {r : Request}

theorem explain_described {e : Error} {text : Option String}
    (h : s.scene.objects.describe s.scene.texts e = .ok text) : s.explain e = ⟨e, text⟩ := by
  unfold explain
  rw [Scene.report_described h]

theorem exec_result (hnames : ∀ name ∈ ["ffmpeg_args", "sp_run"], r.names name = false) :
    (s.exec r).result
      = ((Launch.exec s.scene s.settings s.program r).map (·.1)).mapError s.explain := by
  unfold exec
  rw [hnames "ffmpeg_args" (by decide), hnames "sp_run" (by decide), if_neg (by decide)]
  cases Launch.exec s.scene s.settings s.program r <;> rfl

theorem exec_ok {given : Invocation} (h : (s.exec r).result = .ok given) :
    ∃ line, Launch.exec s.scene s.settings s.program r = .ok (given, line) := by
  unfold exec at h
  split at h
  · cases h
  · cases hexec : Launch.exec s.scene s.settings s.program r with
    | error e => rw [hexec] at h; cases h
    | ok made =>
        rw [hexec] at h
        cases h
        exact ⟨made.2, rfl⟩

/-- Input data takes the place of standard input. -/
theorem input_or_stdin {input : Value} {report : Option String} {listener : Progress.Listener}
    {ending : Ending} {f : Finished} (h : (s.run r input report listener ending).result = .ok f)
    {stdin data : Value} (hstdin : Dict.get? f.invocation.keywords "stdin" = some stdin)
    (hdata : Dict.get? f.invocation.keywords "input" = some data) :
    stdin.isNull = true ∨ data.bare.isNull = true := by
  unfold run at h
  cases hinput : withInput r.listening input with
  | error e => rw [hinput] at h; cases h
  | ok r' =>
      rw [hinput] at h
      obtain ⟨given, hgiven, h⟩ := bind_ok.mp h
      obtain ⟨log, -, rfl⟩ := map_ok.mp h
      obtain ⟨line, hexec⟩ := exec_ok hgiven
      obtain ⟨args, stdout, stderr, hkeywords⟩ := exec_keywords hexec
      obtain ⟨data', hdata', hplace⟩ := withInput_ok hinput
      rw [hkeywords] at hstdin hdata
      rw [show Dict.get? (_ :: _ :: _ :: r'.keywords) "input" = Dict.get? r'.keywords "input" from rfl,
        hdata'] at hdata
      cases hdata
      cases hstdin
      rcases hplace with hnone | ⟨hnull, hgiven⟩
      · exact .inr hnone
      · left
        rw [isNull_told, stdinValue, hnull, hgiven]
        rfl

section Outcomes

variable {asked : Option String} {args : List String} {url : Option String}
  (hargs : resolveArgs s.scene r.args = .ok (asked, args.map .text))
  (hurl : reportsTo s.objects r = .ok (url.map .text))
  (hnames : ∀ name ∈ ["args", "executable"] ++ ["ffmpeg_args", "sp_run"], r.names name = false)
include hargs hurl hnames

theorem exec_result_twice (h : DecidesTwice r args) : (s.exec r).result = .error ⟨.overwriteTwice,
    some "Cannot set both the overwrite argument and a y/n global flag."⟩ := by
  rw [exec_result (List.forall_mem_append.mp hnames).2, exec_twice hargs hurl h,
    ← explain_described (s := s) rfl]
  rfl

theorem exec_result_meets (h : ¬DecidesTwice r args) (hmeets : LogMeetsOutput r args) :
    (s.exec r).result = .error ⟨.stderrIntoStdout,
      some "stderr cannot be redirected to stdout, which is in use"⟩ := by
  rw [exec_result (List.forall_mem_append.mp hnames).2, exec_meets hargs hurl h hmeets,
    ← explain_described (s := s) rfl]
  rfl

/-- A request that is not refused is handed over as soon as there is a program to start. -/
theorem exec_result_given (h : ¬DecidesTwice r args) (hapart : ¬LogMeetsOutput r args) :
    (s.exec r).result = ((s.program.toStart asked).map fun path =>
      (handover s.objects s.settings r args url).call path args r.keywords).mapError s.explain := by
  obtain ⟨hlaunch, hdirect⟩ := List.forall_mem_append.mp hnames
  rw [exec_result hdirect, exec_given hargs hurl s.settings s.program h hapart hlaunch]
  cases s.program.toStart asked <;> rfl

/-- A request that is not refused fails for the program alone. -/
theorem exec_cause (h : ¬DecidesTwice r args) (hapart : ¬LogMeetsOutput r args) {e : Explained}
    (herror : (s.exec r).result = .error e) : e.cause = .programNotFound := by
  have hnotFound : s.explain .programNotFound = ⟨.programNotFound, _⟩ := explain_described rfl
  rw [exec_result_given hargs hurl hnames h hapart] at herror
  cases hpath : s.program.toStart asked with
  | ok path => rw [hpath] at herror; cases herror
  | error why =>
      rw [hpath, Program.toStart_error hpath] at herror
      cases herror
      rw [hnotFound]

end Outcomes

/-- **A request is handed over intact, or refused for one of two reasons.**  It is refused exactly if it is
decided twice whether to overwrite files, or if the log is to go with an output that goes into a pipe.  Every
other request fails only if there is no program to start, and else the runner is called with the program, with
flags that are wanted and that the arguments lack, and with the arguments as they are; standard input is led
somewhere if the arguments read it and no input data is given.  A caller that waits never hands over both a
standard input and input data. -/
theorem request_handed_over {asked : Option String} {args : List String} {url : Option String}
    (hargs : resolveArgs s.scene r.args = .ok (asked, args.map .text))
    (hurl : reportsTo s.objects r = .ok (url.map .text))
    (hnames : ∀ name ∈ ["args", "executable"] ++ ["ffmpeg_args", "sp_run"], r.names name = false) :
    ((s.exec r).result = .error ⟨.overwriteTwice,
        some "Cannot set both the overwrite argument and a y/n global flag."⟩ ↔ DecidesTwice r args) ∧
    ((s.exec r).result = .error ⟨.stderrIntoStdout,
        some "stderr cannot be redirected to stdout, which is in use"⟩ ↔
      ¬DecidesTwice r args ∧ LogMeetsOutput r args) ∧
    (¬DecidesTwice r args → ¬LogMeetsOutput r args →
      (∀ path, s.program.toStart asked = .ok path →
        ∃ h : Handover, h.Fits s.objects s.settings r args url ∧
          (s.exec r).result = .ok (h.call path args r.keywords)) ∧
      (∀ e, s.program.toStart asked = .error e →
        (s.exec r).result = .error (s.explain .programNotFound))) ∧
    (∀ input report listener ending f, (s.run r input report listener ending).result = .ok f →
      ∀ stdin data, Dict.get? f.invocation.keywords "stdin" = some stdin →
        Dict.get? f.invocation.keywords "input" = some data →
        stdin.isNull = true ∨ data.bare.isNull = true) := by
  refine ⟨⟨?_, exec_result_twice hargs hurl hnames⟩,
    ⟨?_, fun h => exec_result_meets hargs hurl hnames h.1 h.2⟩, ?_, ?_⟩
  · intro herror
    by_contra h
    by_cases hmeets : LogMeetsOutput r args
    · rw [exec_result_meets hargs hurl hnames h hmeets] at herror
      cases herror
    · cases exec_cause hargs hurl hnames h hmeets herror
  · intro herror
    have h : ¬DecidesTwice r args := by
      intro h
      rw [exec_result_twice hargs hurl hnames h] at herror
      cases herror
    refine ⟨h, ?_⟩
    by_contra hmeets
    cases exec_cause hargs hurl hnames h hmeets herror
  · intro h hapart
    have hgiven := exec_result_given hargs hurl hnames h hapart
    constructor
    · intro path hpath
      refine ⟨handover s.objects s.settings r args url, handover_fits h, ?_⟩
      rw [hgiven, hpath]
      rfl
    · intro e hpath
      rw [hgiven, hpath, Program.toStart_error hpath]
      rfl
  · intro input report listener ending f h stdin data
    exact input_or_stdin h

/-- Arguments that read standard input and write standard output are handed over with pipes for both, and
behind the flags that are left. -/
theorem piped_request_handed_over :
    let s : Session := { program := { path := some "ffmpeg" } }
    let args := ["-i", "-", "-f", "matroska", "pipe:1"]
    let r : Request :=
      { args := .list (args.map .text), overwrite := .bool true, progressFile := some "report" }
    ∃ h : Handover, (s.exec r).result = .ok (h.call "ffmpeg" args []) ∧
      "-nostdin" ∉ h.quiet ∧ h.report = ["-progress", "report"] ∧ h.answer = ["-y"] ∧
      h.stdin.isNull = false ∧ h.stdout.isNull = false := by
  intro s args r
  have hreads : ReadsStdin args := ⟨"-", by decide, by decide⟩
  have hwrites : WritesStdout args := ⟨"pipe:1", by decide, rfl⟩
  have honce : ¬DecidesTwice r args := by
    unfold DecidesTwice
    decide
  have hapart : ¬LogMeetsOutput r args := fun h => absurd h.1 (by decide)
  have hreport : reportsTo s.objects r = .ok ((some "report").map .text) := rfl
  obtain ⟨-, -, hgiven, -⟩ :=
    request_handed_over (s := s) (r := r) (resolveArgs_texts s.scene args) hreport (by decide)
  obtain ⟨h, hfits, hcall⟩ := (hgiven honce hapart).1 "ffmpeg" rfl
  refine ⟨h, hcall, fun hquiet => (hfits.closes.mp hquiet).2.2 hreads, hfits.report, hfits.answer, ?_, ?_⟩
  · rw [Bool.eq_false_iff]
    exact fun hnull => absurd ((hfits.stdin_alone.mp hnull).2 hreads) (by decide)
  · rw [Bool.eq_false_iff]
    exact fun hnull => (hfits.stdout_alone.mp hnull).2 hwrites

end Session

end MediaCommand
