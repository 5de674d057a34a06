/-
What is known of the program after it was looked for.

A search first comes upon a program, or upon none, and then asks it for its version; the program may not
start, print nothing, print something else, or name a number that cannot be read.  Here both halves are
said without a session: what a search comes upon (`Search.located`), and the build that the printed text
names (`Build.named?`).

One search moves the path by the first half and the version by both, so the two part where the first half
goes through and the second does not (`search_program`).  Over a run of searches the path is that of the
last program come upon, and the version that of the last search with an answer (`searchAll_program`).  So
what is known is of one program all along exactly if no search without an answer comes upon another program
than the one in use.
-/
import Mathlib.Data.List.Induction
import MediaCommand.Proofs.Lookup
import MediaCommand.Session.Basic

namespace MediaCommand

/-! ### Printed reports -/

namespace VersionReport

theorem item_ofTexts {lines : List String} {number : Nat} {line : String}
    (h : lines[number]? = some line) : (Numbered.ofTexts lines).item number = .ok (.text line) := by
  have hnonneg : ¬(number : Int) < 0 := by omega
  show Numbered.itemAt (lines.map Value.text) number = _
  simp only [Numbered.itemAt, if_neg hnonneg, Int.toNat_natCast, List.getElem?_map, h,
    Option.map_some]

theorem drop_ofTexts (lines : List String) (count : Nat) :
    (Numbered.ofTexts lines).drop count = .ok ((lines.drop count).map .text) := by
  rw [List.map_drop]
  rfl

theorem mapM_asText (lines : List String) :
    (lines.map Value.text).mapM Value.asText = .ok lines := by
  rw [List.mapM_map]
  exact (mapM_ok_map fun _ _ => rfl).trans (by rw [List.map_id'])

/-- No line of a printed report is refused for its kind. -/
theorem lineWith?_ofTexts (phrase : List Char) (lines : List String) (number : Nat) :
    lineWith? phrase (.ofTexts lines) number = .ok (lines[number]?.filter (beginsWith phrase)) := by
  have hsize : (Numbered.ofTexts lines).size = lines.length := List.length_map _
  unfold lineWith?
  rw [hsize]
  cases hline : lines[number]? with
  | none =>
      rw [if_neg (Nat.not_lt.mpr (List.getElem?_eq_none_iff.mp hline))]
      rfl
  | some line =>
      rw [if_pos (List.getElem?_eq_some_iff.mp hline).1, item_ofTexts hline, Option.filter_some]
      rfl

/-- Whether a printed report is read depends on its first line alone, which gives the version. -/
theorem parse_ofTexts (first : String) (rest : List String) :
    (parse (.ofTexts (first :: rest))).map (·.version) = match versionWord? first with
      | none => .error (.unexpectedReport first)
      | some word => .ok word := by
  have hfirst : (Numbered.ofTexts (first :: rest)).item 0 = .ok (.text first) := item_ofTexts rfl
  unfold parse
  rw [hfirst]
  show Except.map _ (match versionWord? first with | none => _ | some word => _) = _
  cases versionWord? first with
  | none => rfl
  | some word =>
      simp only [lineWith?_ofTexts, bind, Except.bind, drop_ofTexts, mapM_asText]
      rfl

end VersionReport

namespace Launch

variable {o : Objects} {program : Program} {asked : Option String} {path : String}

theorem logWords_texts (o : Objects) (words : List String) :
    (words.map Value.text).mapM (logWord o) = .ok (words.map Shell.quote) := by
  rw [List.mapM_map]
  exact mapM_ok_map fun _ _ => rfl

/-- The command line of texts can always be told. -/
theorem logLine_texts (o : Objects) (words : List String) :
    logLine o (words.map .text) = .ok ⟨.debug, " ".intercalate (words.map Shell.quote)⟩ := by
  unfold logLine
  rw [logWords_texts]
  rfl

/-- Arguments that are texts are handed over as soon as there is a program to start. -/
theorem start_texts (h : program.toStart asked = .ok path) (args : List String)
    (keywords : List (String × Value)) :
    start o program asked (args.map .text) keywords
      = .ok (⟨(path :: args).map .text, keywords⟩,
          ⟨.debug, " ".intercalate ((path :: args).map Shell.quote)⟩) := by
  unfold start
  rw [h]
  show (do return (_, ← logLine o ((path :: args).map .text))) = _
  rw [logLine_texts]
  rfl

theorem start_error {e : Error} (h : program.toStart asked = .error e) (args : List Value)
    (keywords : List (String × Value)) : start o program asked args keywords = .error e := by
  unfold start
  rw [h]
  rfl
end Launch

/-- The build that a word for a version names: the number in front of it, or a nightly build if there is
none.  A number that cannot be read names nothing. -/
def Build.ofWord? (word : String) : Option Build :=
  let number := VersionReport.leadingNumber word
  if number.isEmpty then some .nightly
  else ((Program.versionIn (String.ofList number)).map .release).toOption

/-- The build that a printed text names, in the word behind the phrase that opens its first line. -/
def Build.named? (output : String) : Option Build :=
  ((Text.lines output).head?.bind VersionReport.versionWord?).bind Build.ofWord?

theorem buildOf_toOption (report : VersionReport) :
    (Program.buildOf report).toOption = Build.ofWord? report.version := by
  unfold Program.buildOf Build.ofWord?
  dsimp only
  split <;> rfl

/-! ### Searches -/

/-- What a search for the program meets: what the surroundings answer, the settings, the finders, and the
path that is asked for. -/
structure Search where
  host : Host := {}
  settings : Settings := {}
  finders : List Finder := Finder.builtIn
  path : Option String := none

namespace Search

/-- The program that a search comes upon. -/
def located (c : Search) : Option String :=
  (Program.locate c.host c.settings c.finders c.path).1.toOption

/-- The build that the program reports when it is asked for its version. -/
def reported (c : Search) : Option Build :=
  if c.host.missing then none else Build.named? c.host.versionOutput

/-- The program that a search comes upon and the build that this program reports. -/
def answer (c : Search) : Option (String × Build) :=
  c.located.bind fun path => c.reported.map (path, ·)

end Search

/-- The program that an answer tells of. -/
def Program.ofAnswer (answer : Option (String × Build)) : Program :=
  ⟨answer.map (·.1), answer.map (·.2)⟩

namespace Session

/-- Looks for the program in the surroundings of a search. -/
def search (s : Session) (c : Search) : Reply (String × Build) :=
  { s with host := c.host, settings := c.settings, finders := c.finders }.findProgram c.path

/-- The session after one search after the other, whatever becomes of each. -/
def searchAll (s : Session) (cs : List Search) : Session :=
  cs.foldl (fun s c => (s.search c).session) s

variable {s : Session}

theorem toOption_mapError {ε ε' α : Type} (f : ε → ε') (r : Except ε α) :
    (r.mapError f).toOption = r.toOption := by
  cases r <;> rfl

/-- The build that a printed text names is that of the report in it. -/
theorem named?_eq (output : String) :
    Build.named? output = (VersionReport.parse (.ofTexts (Text.lines output))).toOption.bind
      fun report => (Program.buildOf report).toOption := by
  unfold Build.named?
  cases Text.lines output with
  | nil => rfl
  | cons first rest =>
      have hparse := VersionReport.parse_ofTexts first rest
      rw [List.head?_cons, Option.bind_some]
      cases hword : VersionReport.versionWord? first with
      | none =>
          rw [hword] at hparse
          cases hread : VersionReport.parse (.ofTexts (first :: rest)) with
          | error e => rfl
          | ok report =>
              rw [hread] at hparse
              cases hparse
      | some word =>
          rw [hword] at hparse
          obtain ⟨report, hread, rfl⟩ := map_ok.mp hparse
          rw [hread]
          exact (buildOf_toOption report).symm

/-- The program in use reports the build that is named by what it prints. -/
theorem askVersions_reports {path : String} (h : s.program.path = some path) :
    (s.askVersions.result.toOption.bind fun report => (Program.buildOf report).toOption)
      = if s.host.missing then none else Build.named? s.host.versionOutput := by
  have hstart : s.program.toStart none = .ok path := by simp [Program.toStart, h]
  unfold askVersions startNow
  rw [show [Value.text "-version"] = ["-version"].map .text from rfl, Launch.start_texts hstart,
    named?_eq]
  cases s.host.missing with
  | true => rfl
  | false => exact congrArg (Option.bind · _) (toOption_mapError _ _)

/-- A search sets the path as soon as it comes upon a program, and the version once that is reported;
nothing else changes but the surroundings. -/
theorem search_spec (s : Session) (c : Search) :
    (s.search c).result.toOption = c.answer ∧
    (s.search c).session =
      { s with
        host := c.host, settings := c.settings, finders := c.finders
        program := ⟨c.located.or s.program.path, (c.answer.map (·.2)).or s.program.build⟩ } := by
  unfold search Search.answer Search.located findProgram
  obtain ⟨located, told⟩ := Program.locate c.host c.settings c.finders c.path
  cases located with
  | error e => exact ⟨rfl, rfl⟩
  | ok path =>
      have hreported : _ = c.reported := @askVersions_reports
        { s with
          host := c.host, settings := c.settings, finders := c.finders
          program := { s.program with path := some path } } path rfl
      rw [← hreported]
      dsimp only
      generalize askVersions _ = asked
      obtain ⟨-, log, result⟩ := asked
      cases result with
      | error e => exact ⟨rfl, rfl⟩
      | ok report =>
          dsimp only [Except.toOption, Option.bind_some]
          cases Program.buildOf report with
          | error e => exact ⟨rfl, rfl⟩
          | ok build => exact ⟨rfl, rfl⟩

theorem search_program (s : Session) (c : Search) :
    (s.search c).session.program
      = ⟨c.located.or s.program.path, (c.answer.map (·.2)).or s.program.build⟩ := by
  rw [(search_spec s c).2]

theorem search_eq_ok {c : Search} {found : String × Build} :
    (s.search c).result = .ok found ↔ c.answer = some found := by
  rw [← (search_spec s c).1]
  cases (s.search c).result with
  | error e => exact ⟨(nomatch ·), (nomatch ·)⟩
  | ok other =>
      constructor
      · intro h
        exact congrArg some (Except.ok.inj h)
      · intro h
        exact congrArg Except.ok (Option.some.inj h)

theorem answer_eq_some {c : Search} {found : String × Build} :
    c.answer = some found ↔ c.located = some found.1 ∧ c.reported = some found.2 := by
  unfold Search.answer
  cases c.located <;> cases c.reported <;> simp [Prod.ext_iff]

/-- A search with an answer makes that answer known, whatever was known before. -/
theorem search_answered {c : Search} {found : String × Build} (h : c.answer = some found) :
    (s.search c).session.program = Program.ofAnswer (some found) := by
  rw [search_program, h, (answer_eq_some.mp h).1]
  rfl

/-- A search without an answer leaves the version alone, and the path unless it comes upon another
program. -/
theorem search_unanswered {c : Search} (h : c.answer = none) :
    (s.search c).session.program.build = s.program.build ∧
      ((s.search c).session.program = s.program ↔
        c.located = none ∨ c.located = s.program.path) := by
  rw [search_program, h]
  refine ⟨rfl, ?_⟩
  cases hlocated : c.located with
  | none => simp
  | some path =>
      simp only [Option.some_or, reduceCtorEq, false_or]
      constructor
      · exact congrArg Program.path
      · intro hsame
        rw [hsame]
        rfl

/-! ### One search after the other -/

theorem searchAll_concat (s : Session) (cs : List Search) (c : Search) :
    s.searchAll (cs ++ [c]) = ((s.searchAll cs).search c).session :=
  List.foldl_concat ..

/-- After a run of searches the path is that of the last program come upon, and the version that of the
last answer. -/
theorem searchAll_program (s : Session) (cs : List Search) :
    (s.searchAll cs).program
      = ⟨(cs.filterMap Search.located).getLast?.or s.program.path,
          ((cs.filterMap Search.answer).getLast?.map (·.2)).or s.program.build⟩ := by
  induction cs using List.reverseRecOn with
  | nil => rfl
  | append_singleton cs c ih =>
      rw [searchAll_concat, search_program, ih, List.filterMap_append, List.filterMap_append,
        List.getLast?_append, List.getLast?_append, Option.map_or, Option.or_assoc, Option.or_assoc]
      congr 2
      · cases hlocated : c.located <;> simp [hlocated]
      · cases hanswer : c.answer <;> simp [hanswer]

/-- What is known is of the last answer all along exactly if each search without an answer comes upon no
program, or upon the one in use. -/
theorem searchAll_settled_iff {s : Session} (hfresh : s.program = {}) (cs : List Search) :
    (∀ before, before <+: cs → (s.searchAll before).program
        = Program.ofAnswer (before.filterMap Search.answer).getLast?) ↔
      ∀ before c, before ++ [c] <+: cs → c.answer = none →
        c.located = none ∨ c.located = (s.searchAll before).program.path := by
  have hkept : ∀ {before c}, (s.searchAll before).program
        = Program.ofAnswer (before.filterMap Search.answer).getLast? → c.answer = none →
      ((s.searchAll (before ++ [c])).program
          = Program.ofAnswer ((before ++ [c]).filterMap Search.answer).getLast? ↔
        c.located = none ∨ c.located = (s.searchAll before).program.path) := by
    intro before c hbefore hanswer
    rw [searchAll_concat, ← (search_unanswered hanswer).2, List.filterMap_append]
    simp [hanswer, hbefore]
  constructor
  · intro h before c hprefix hanswer
    have hbefore := h before ((List.prefix_append before [c]).trans hprefix)
    exact (hkept hbefore hanswer).mp (h _ hprefix)
  · intro h before
    induction before using List.reverseRecOn with
    | nil => exact fun _ => hfresh
    | append_singleton before c ih =>
        intro hprefix
        have hbefore := ih ((List.prefix_append before [c]).trans hprefix)
        cases hanswer : c.answer with
        | none => exact (hkept hbefore hanswer).mpr (h before c hprefix hanswer)
        | some found =>
            rw [searchAll_concat, search_answered hanswer, List.filterMap_append]
            simp [hanswer]

theorem isFound_iff {p : Program} : p.isFound = true ↔ ∃ path, p.path = some path ∧ path ≠ "" := by
  unfold Program.isFound
  cases p.path with
  | none => simp
  | some path => simp [Option.filter_some]

/-- **A search moves the path before it knows the version.**  It answers exactly if it comes upon a program
that reports a build, and then both are known.  Without an answer the version stays, but the path stays only
if the search came upon no program or upon the one in use.  After a run of searches from a fresh start the
path is that of the last program come upon and the version that of the last answer: they are of one program
all along exactly if each search without an answer comes upon no program or upon the one in use, and a
program counts as found as soon as one was come upon, whether or not any search has answered. -/
theorem path_known_before_version (s : Session) (cs : List Search) :
    (∀ c found, (s.search c).result = .ok found ↔
      c.located = some found.1 ∧ c.reported = some found.2) ∧
    (∀ c found, (s.search c).result = .ok found →
      (s.search c).session.program = ⟨some found.1, some found.2⟩) ∧
    (∀ c e, (s.search c).result = .error e →
      (s.search c).session.program.build = s.program.build ∧
        ((s.search c).session.program = s.program ↔
          c.located = none ∨ c.located = s.program.path)) ∧
    (let fresh : Session := { s with program := {} }
     (fresh.searchAll cs).program.path = (cs.filterMap Search.located).getLast? ∧
     (fresh.searchAll cs).program.build = (cs.filterMap Search.answer).getLast?.map (·.2) ∧
     ((∀ before, before <+: cs → (fresh.searchAll before).program
         = Program.ofAnswer (before.filterMap Search.answer).getLast?) ↔
       ∀ before c, before ++ [c] <+: cs → c.answer = none →
         c.located = none ∨ c.located = (fresh.searchAll before).program.path) ∧
     ((fresh.searchAll cs).program.isFound = true ↔
       ∃ path, (cs.filterMap Search.located).getLast? = some path ∧ path ≠ "")) := by
  let fresh : Session := { s with program := {} }
  have hprogram : (fresh.searchAll cs).program = ⟨(cs.filterMap Search.located).getLast?,
      (cs.filterMap Search.answer).getLast?.map (·.2)⟩ := by
    rw [searchAll_program, Option.or_none, Option.or_none]
  refine ⟨fun c found => search_eq_ok.trans answer_eq_some, ?_, ?_, congrArg Program.path hprogram,
    congrArg Program.build hprogram, searchAll_settled_iff rfl cs, ?_⟩
  · intro c found h
    exact search_answered (search_eq_ok.mp h)
  · intro c e h
    apply search_unanswered
    rw [← (search_spec s c).1, h]
    rfl
  · rw [isFound_iff, hprogram]

/-- A program is found that reports a build, and then another one that prints nothing: the path of the
second goes with the version of the first. -/
theorem silent_program_in_use :
    let host (path output : String) : Host := { programs := [path], versionOutput := output }
    let first : Search := { host := host "ffmpeg" "ffmpeg version 6.1.1 by", path := some "ffmpeg" }
    let silent : Search := { host := host "/opt/ffmpeg" "", path := some "/opt/ffmpeg" }
    first.answer = some ("ffmpeg", .release { release := [6, 1] }) ∧ silent.answer = none ∧
      (({} : Session).searchAll [first, silent]).program
        = ⟨some "/opt/ffmpeg", some (.release { release := [6, 1] })⟩ := by
  intro host first silent
  have hfirst : first.answer = some ("ffmpeg", .release { release := [6, 1] }) := by decide
  have hsilent : silent.answer = none := by decide
  obtain ⟨-, -, -, hpath, hbuild, -⟩ := path_known_before_version {} [first, silent]
  refine ⟨hfirst, hsilent, ?_⟩
  have hlocated : [first, silent].filterMap Search.located = ["ffmpeg", "/opt/ffmpeg"] := by decide
  rw [hlocated] at hpath
  simp only [List.filterMap_cons, hfirst, hsilent, List.filterMap_nil] at hbuild
  exact congrArg₂ Program.mk hpath hbuild

end Session

end MediaCommand
