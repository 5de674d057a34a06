/-
Printed reports are read back.

A report opens with the version.  It may tell how the program was built and configured, each on a line of its
own, and then come the libraries: a name, the version that was built with, padded so that the numbers stand
below each other, and behind a slash the version that is linked.  Whatever else follows holds no slash behind
a blank.

Reading such a report gives what was printed.  The word in the first line ends at the first blank.  The
options are the words of their line (`options_configurationLine`).  A row is cut at the first slash behind a
blank, and the longest run of blanks behind its name is skipped first, so the padding in front of the number
goes as well (`library?_line`); no other line names a library.  The two lines that may be missing do not
shift what is read, because no row can be taken for one of them (`parse_lines`).
-/
import MediaCommand.Proofs.Dictionaries
import MediaCommand.Proofs.VersionChecks
import MediaCommand.Proofs.WordsBack

namespace MediaCommand

open Version

namespace VersionReport

/-! ### What is printed -/

/-- A word has no blank in it, and is not empty. -/
structure IsWord (word : String) : Prop where
  ne_empty : word ≠ ""
  unbroken : ∀ c ∈ word.toList, Text.isBlank c = false

/-- The version of a library as it is printed: numbers and dots, padded with blanks. -/
structure IsPadded (version : String) : Prop where
  inked : ∃ c ∈ version.toList, c ≠ ' '
  letters : ∀ c ∈ version.toList, c.isDigit = true ∨ c = '.' ∨ c = ' '

/-- What is printed about a library: its name, the version that was built with, and the version that is
linked. -/
structure LibraryRow where
  name : String
  gap : String
  version : String
  linked : String
  isWord : IsWord name
  unmarked : beginsWith configurationMark name = false
  gap_ne_empty : gap ≠ ""
  blank : ∀ c ∈ gap.toList, Text.isBlank c = true
  isPadded : IsPadded version

namespace LibraryRow

/-- The line of a library. -/
def line (row : LibraryRow) : String := row.name ++ row.gap ++ row.version ++ " / " ++ row.linked

/-- The version that was built with, without the padding. -/
def number (row : LibraryRow) : String := String.ofList (row.version.toList.filter (· != ' '))

end LibraryRow

/-- The line of a configuration. -/
def configurationLine (options : List String) : String :=
  "configuration:" ++ String.join (options.map (" --" ++ ·))

/-- What a report says, and how it is laid out. -/
structure Printout where
  word : String
  afterWord : String
  built : Option String
  configuration : Option (List String)
  rows : List LibraryRow
  further : List String
  isWord : IsWord word
  apart : ∀ c, afterWord.toList.head? = some c → Text.isBlank c = true
  areWords : ∀ options ∈ configuration, ∀ option ∈ options, IsWord option
  unslashed : ∀ line ∈ further, ¬[' ', '/'] <:+: line.toList
  unmarked : ∀ line ∈ further,
    beginsWith builtWith line = false ∧ beginsWith configurationMark line = false

namespace Printout

/-- The lines of a report. -/
def lines (p : Printout) : List String :=
  ("ffmpeg version " ++ p.word ++ p.afterWord) :: ((p.built.map ("built with" ++ ·)).toList ++
    ((p.configuration.map configurationLine).toList ++ (p.rows.map LibraryRow.line ++ p.further)))

/-- The version that the last row about a library gives. -/
def number? (p : Printout) (name : String) : Option String :=
  (p.rows.reverse.find? (·.name == name)).map LibraryRow.number

end Printout

/-! ### The configuration -/

/-- Texts stand in the order of their code points. -/
theorem compareLists_toNat (cs : List Char) : ∀ ds,
    (compareLists (fun c d : Char => compare c.toNat d.toNat) cs ds != .gt) = true ↔ ¬ds < cs := by
  induction cs with
  | nil => intro ds; cases ds <;> simp [compareLists]
  | cons c cs ih =>
      intro ds
      cases ds with
      | nil => simp [compareLists]
      | cons d ds =>
          rw [compareLists, List.cons_lt_cons_iff]
          rcases Nat.lt_trichotomy c.toNat d.toNat with h | h | h
          · have hlt : ¬d < c := fun h' => Nat.lt_asymm h h'
            have hne : d ≠ c := by
              rintro rfl
              exact Nat.lt_irrefl _ h
            simp [Nat.compare_eq_lt.mpr h, hlt, hne]
          · obtain rfl := Char.toNat_inj.mp h
            simp [← ih]
          · have hlt : d < c := h
            simp [Nat.compare_eq_gt.mpr h, hlt]

theorem textLe_iff {s t : String} : textLe s t = true ↔ s ≤ t := by
  rw [← String.not_lt, String.lt_iff]
  exact compareLists_toNat _ _

theorem sortedOptions_perm (line : String) : (sortedOptions line).Perm (options line) :=
  List.mergeSort_perm _ _

theorem sortedOptions_pairwise (line : String) : (sortedOptions line).Pairwise (· ≤ ·) := by
  have htrans : ∀ s t u : String, textLe s t = true → textLe t u = true → textLe s u = true := by
    intro s t u hst htu
    exact textLe_iff.mpr (String.le_trans (textLe_iff.mp hst) (textLe_iff.mp htu))
  have htotal : ∀ s t : String, (textLe s t || textLe t s) = true := by
    intro s t
    rw [Bool.or_eq_true, textLe_iff, textLe_iff]
    exact String.le_total s t
  exact (List.pairwise_mergeSort htrans htotal (options line)).imp textLe_iff.mp

/-- A line of words with a blank in front of each but the first is cut into them. -/
theorem splitOnClass_spaced {first : List Char} (hfirst : ∀ c ∈ first, Text.isBlank c = false)
    {words : List (List Char)} (hwords : ∀ word ∈ words, ∀ c ∈ word, Text.isBlank c = false) :
    Text.splitOnClass Text.isBlank (first ++ words.flatMap (' ' :: ·)) = first :: words := by
  induction words generalizing first with
  | nil =>
      rw [splitOnClass_append hfirst]
      show [first ++ []] = [first]
      rw [List.append_nil]
  | cons word words ih =>
      have hmore : ∀ w ∈ words, ∀ c ∈ w, Text.isBlank c = false :=
        fun w hw => hwords w (List.mem_cons_of_mem word hw)
      rw [splitOnClass_append hfirst, List.flatMap_cons, List.cons_append, Text.splitOnClass,
        if_pos (by decide), ih (hwords word List.mem_cons_self) hmore]
      show (first ++ []) :: word :: words = _
      rw [List.append_nil]

/-- The options of a configuration are read from its line. -/
theorem options_configurationLine {given : List String} (h : ∀ option ∈ given, IsWord option) :
    options (configurationLine given) = given := by
  have hline : (configurationLine given).toList = configurationMark ++
      (given.map fun option => "--".toList ++ option.toList).flatMap (' ' :: ·) := by
    unfold configurationLine
    rw [String.toList_append, String.toList_join, List.flatMap_map, List.flatMap_map]
    refine congrArg _ (List.flatMap_congr fun option _ => ?_)
    rw [String.toList_append]
    rfl
  unfold options
  rw [hline, splitOnClass_spaced (forall_mem_of_all rfl), List.tail_cons, List.filterMap_map]
  · refine (List.filterMap_congr fun option hoption => ?_).trans List.filterMap_some
    cases hchars : option.toList with
    | nil => exact absurd (String.toList_eq_nil_iff.mp hchars) (h option hoption).ne_empty
    | cons c rest =>
        have hdashed : "--".toList ++ option.toList = '-' :: '-' :: c :: rest := by
          rw [hchars]
          rfl
        simp only [Function.comp_apply, hdashed]
        rw [← hchars, String.ofList_toList]
  · intro word hword c hc
    obtain ⟨option, hoption, rfl⟩ := List.mem_map.mp hword
    rcases List.mem_append.mp hc with hdash | hletter
    · obtain rfl : c = '-' := by simpa using hdash
      decide
    · exact (h option hoption).unbroken c hletter

/-! ### Libraries -/

/-- What stands in front of the first slash behind a blank is cut off. -/
theorem upToSlash_append {rest : List Char} {c : Char} {more : List Char} (taken : List Char)
    (hmore : ∀ d ∈ c :: more, d ≠ '\n' ∧ d ≠ '/') :
    upToSlash taken (c :: (more ++ ' ' :: '/' :: rest)) = some (taken.reverse ++ c :: more) := by
  have hline : ¬(c == '\n') = true := by simpa using (hmore c List.mem_cons_self).1
  induction more generalizing c taken with
  | nil =>
      rw [List.nil_append, upToSlash, if_neg hline, List.reverse_cons]
  | cons d more ih =>
      have hrest : ∀ e ∈ d :: more, e ≠ '\n' ∧ e ≠ '/' :=
        fun e he => hmore e (List.mem_cons_of_mem c he)
      have hapart : ∀ tail, d :: (more ++ ' ' :: '/' :: rest) ≠ ' ' :: '/' :: tail := by
        intro tail h
        cases more with
        | nil => cases h
        | cons e more =>
            cases h
            exact (hrest '/' (by simp)).2 rfl
      rw [List.cons_append, upToSlash, if_neg hline, ih (c :: taken) hrest]
      · rw [List.reverse_cons, List.append_assoc, List.singleton_append]
      · simpa using (hrest d List.mem_cons_self).1
      · exact hapart

/-- Such a slash has to be there. -/
theorem upToSlash_some {taken cs found : List Char} (h : upToSlash taken cs = some found) :
    [' ', '/'] <:+: cs := by
  induction cs generalizing taken with
  | nil => cases h
  | cons c rest ih =>
      rw [upToSlash.eq_def] at h
      dsimp only at h
      split at h
      · cases h
      · split at h
        · exact List.infix_cons (List.prefix_append [' ', '/'] _).isInfix
        · exact List.infix_cons (ih h)

theorem afterBlanks_some {tail found : List Char} {n : Nat} (h : afterBlanks tail n = some found) :
    [' ', '/'] <:+: tail := by
  induction n with
  | zero => cases h
  | succ n ih =>
      rw [afterBlanks] at h
      cases hcut : upToSlash [] (tail.drop (n + 1)) with
      | none =>
          rw [hcut] at h
          exact ih h
      | some found => exact (upToSlash_some hcut).trans (List.drop_suffix ..).isInfix

/-- All blanks are skipped if a slash follows what stands behind them. -/
theorem afterBlanks_append {blanks tail found : List Char} (hne : blanks ≠ [])
    (h : upToSlash [] tail = some found) : afterBlanks (blanks ++ tail) blanks.length = some found := by
  cases blanks with
  | nil => exact absurd rfl hne
  | cons blank more =>
      rw [List.length_cons, afterBlanks, List.cons_append, List.drop_succ_cons, List.drop_left, h]
      rfl

/-- A line without a slash behind a blank names no library. -/
theorem library?_unslashed {line : String} (h : ¬[' ', '/'] <:+: line.toList) : library? line = none := by
  unfold library?
  dsimp only
  split
  · rfl
  · rw [Option.map_eq_none_iff, Option.eq_none_iff_forall_ne_some]
    intro found hfound
    exact h ((afterBlanks_some hfound).trans (List.dropWhile_suffix _).isInfix)

/-- A digit or a dot is neither blank nor any other character that a line is cut at. -/
theorem inked_letter {c : Char} (h : c.isDigit = true ∨ c = '.') :
    Text.isBlank c = false ∧ c ≠ 'w' ∧ c ≠ '\n' ∧ c ≠ '/' := by
  rcases h with hdigit | rfl
  · obtain ⟨i, hi, rfl⟩ := exists_of_isDigit hdigit
    revert i
    decide
  · decide

/-- A padded version begins with blanks and goes on with a digit or a dot. -/
theorem IsPadded.cut {version : String} (h : IsPadded version) :
    ∃ pad c more, version.toList = pad ++ c :: more ∧ (∀ d ∈ pad, d = ' ') ∧ c ≠ ' ' := by
  have hspan := List.takeWhile_append_dropWhile (p := (· == ' ')) (l := version.toList)
  cases hcore : version.toList.dropWhile (· == ' ') with
  | nil =>
      obtain ⟨c, hc, hinked⟩ := h.inked
      exact absurd (by simpa using List.dropWhile_eq_nil_iff.mp hcore c hc) hinked
  | cons c more =>
      rw [hcore] at hspan
      refine ⟨_, c, more, hspan.symm, fun d hd => by simpa using List.mem_takeWhile_imp hd, ?_⟩
      have hhead := List.head?_dropWhile_not (· == ' ') version.toList
      rw [hcore] at hhead
      simpa using hhead

namespace LibraryRow

variable (row : LibraryRow)

/-- What stands behind the number in a row. -/
def behind : List Char := ' ' :: '/' :: ' ' :: row.linked.toList

/-- Where a row is cut: behind the name and behind the blanks in front of the number. -/
theorem line_cut : ∃ blanks c more,
    row.line.toList = row.name.toList ++ (blanks ++ c :: (more ++ row.behind)) ∧
    blanks ≠ [] ∧ (∀ d ∈ blanks, Text.isBlank d = true) ∧
    (∀ d ∈ c :: more, d.isDigit = true ∨ d = '.' ∨ d = ' ') ∧ c ≠ ' ' ∧
    String.ofList ((c :: more).filter (· != ' ')) = row.number := by
  obtain ⟨pad, c, more, hversion, hpad, hinked⟩ := row.isPadded.cut
  refine ⟨row.gap.toList ++ pad, c, more, ?_, ?_, ?_, ?_, hinked, ?_⟩
  · unfold line
    simp only [String.toList_append, hversion, List.append_assoc]
    rfl
  · intro h
    exact row.gap_ne_empty (String.toList_eq_nil_iff.mp (List.append_eq_nil_iff.mp h).1)
  · intro d hd
    rcases List.mem_append.mp hd with hgap | hpadding
    · exact row.blank d hgap
    · rw [hpad d hpadding]
      decide
  · intro d hd
    exact row.isPadded.letters d (hversion ▸ List.mem_append_right pad hd)
  · have hnone : pad.filter (· != ' ') = [] := List.filter_eq_nil_iff.mpr fun d hd => by simp [hpad d hd]
    unfold number
    rw [hversion, List.filter_append, hnone, List.nil_append]

/-- The name is the first word of the line, and a digit or a dot comes behind the next blanks. -/
theorem line_spans : ∃ blanks c more,
    row.line.toList.takeWhile (!Text.isBlank ·) = row.name.toList ∧
    row.line.toList.dropWhile (!Text.isBlank ·) = blanks ++ c :: (more ++ row.behind) ∧
    blanks ≠ [] ∧ (∀ d ∈ blanks, Text.isBlank d = true) ∧ Text.isBlank c = false ∧ c ≠ 'w' ∧
    (∀ d ∈ c :: more, d ≠ '\n' ∧ d ≠ '/') ∧
    String.ofList ((c :: more).filter (· != ' ')) = row.number := by
  obtain ⟨blanks, c, more, hline, hne, hblanks, hletters, hinked, hnumber⟩ := row.line_cut
  have hhead : ∀ d, (blanks ++ c :: (more ++ row.behind)).head? = some d → (!Text.isBlank d) = false := by
    intro d hd
    rw [List.head?_append_of_ne_nil _ hne] at hd
    simp [hblanks d (List.mem_of_head? hd)]
  obtain ⟨hname, htail⟩ := span_boundary (p := (!Text.isBlank ·)) (n := row.name.toList)
    (by simpa using row.isWord.unbroken) hhead
  have hfirst := (hletters c List.mem_cons_self).imp_right (·.resolve_right hinked)
  obtain ⟨hnotBlank, hw, -⟩ := inked_letter hfirst
  refine ⟨blanks, c, more, ?_, ?_, hne, hblanks, hnotBlank, hw, ?_, hnumber⟩
  · rw [hline, hname]
  · rw [hline, htail]
  · intro d hd
    rcases or_assoc.mpr (hletters d hd) with hletter | rfl
    · exact (inked_letter hletter).2.2
    · decide

theorem library?_line : library? row.line = some (row.name, row.number) := by
  obtain ⟨blanks, c, more, hname, htail, hne, hblanks, hinked, -, hmore, hnumber⟩ := row.line_spans
  have hcut : upToSlash [] (c :: (more ++ row.behind)) = some (c :: more) := upToSlash_append [] hmore
  have hskipped : (blanks ++ c :: (more ++ row.behind)).takeWhile Text.isBlank = blanks := by
    refine (span_boundary hblanks ?_).1
    rintro d hd
    cases hd
    exact hinked
  unfold library?
  dsimp only
  rw [hname, htail, hskipped, afterBlanks_append hne hcut, Option.map_some, hnumber, String.ofList_toList]
  exact if_neg (by simpa using row.isWord.ne_empty)

/-- The line of a library opens with none of the phrases that open other lines. -/
theorem beginsWith_line :
    beginsWith builtWith row.line = false ∧ beginsWith configurationMark row.line = false := by
  obtain ⟨blanks, c, more, hname, htail, hne, hblanks, hinked, hw, -⟩ := row.line_spans
  constructor
  · -- Behind the first word of that phrase and a blank there is a letter.
    refine Bool.eq_false_iff.mpr fun h => hw ?_
    obtain ⟨rest, hrest⟩ := List.isPrefixOf_iff_prefix.mp h
    rw [← hrest] at htail
    have hnext := congrArg (List.dropWhile Text.isBlank) htail
    rw [(span_boundary hblanks (by rintro d hd; cases hd; exact hinked)).2] at hnext
    exact (List.cons.inj hnext).1.symm
  · refine Bool.eq_false_iff.mpr fun h => Bool.eq_false_iff.mp row.unmarked ?_
    obtain ⟨rest, hrest⟩ := List.isPrefixOf_iff_prefix.mp h
    rw [← hrest, List.takeWhile_append_of_pos (forall_mem_of_all rfl)] at hname
    exact List.isPrefixOf_iff_prefix.mpr ⟨_, hname⟩

end LibraryRow

/-! ### Lines -/

/-- A line that may be missing is told from the next one by the phrase that opens it. -/
theorem optional_line {phrase : List Char} {line? : Option String} {rest : List String}
    (hline : ∀ line ∈ line?, beginsWith phrase line = true)
    (hrest : ∀ line, rest.head? = some line → beginsWith phrase line = false) :
    (line?.toList ++ rest).head?.filter (beginsWith phrase) = line? := by
  cases line? with
  | some line => exact Option.filter_some_pos (hline line rfl)
  | none =>
      rw [Option.filter_eq_none_iff]
      intro line hfirst
      rw [hrest line hfirst]
      nofun

/-- The lines that may be missing are found where they are, and the others are read as libraries. -/
theorem parse_lines {first word : String} {built configured : Option String} {body : List String}
    (hfirst : versionWord? first = some word) (hbuilt : ∀ line ∈ built, beginsWith builtWith line = true)
    (hconfigured : ∀ line ∈ configured, beginsWith configurationMark line = true)
    (happart : ∀ line, (configured.toList ++ body).head? = some line → beginsWith builtWith line = false)
    (hbody : ∀ line, body.head? = some line → beginsWith configurationMark line = false) :
    parse (.ofTexts (first :: (built.toList ++ (configured.toList ++ body))))
      = .ok ⟨word, configured.map sortedOptions, librariesOf body⟩ := by
  have hitem : (Numbered.ofTexts (first :: (built.toList ++ (configured.toList ++ body)))).item 0
      = .ok (.text first) := item_ofTexts rfl
  have hnext : (first :: (built.toList ++ (configured.toList ++ body)))[1]?.filter (beginsWith builtWith)
      = built := by
    rw [← List.head?_drop]
    exact optional_line hbuilt happart
  have hafter : (first :: (built.toList ++ (configured.toList ++ body))).drop (if built.isSome then 2 else 1)
      = configured.toList ++ body := by
    cases built <;> rfl
  unfold parse
  simp only [hitem, bind, Except.bind, Value.asText, hfirst, lineWith?_ofTexts, drop_ofTexts, mapM_asText]
  rw [hnext]
  generalize (if built.isSome then 2 else 1) = next at hafter ⊢
  rw [← List.head?_drop, hafter, optional_line hconfigured hbody]
  have hfurther : (first :: (built.toList ++ (configured.toList ++ body))).drop
      (if configured.isSome then next + 1 else next) = body := by
    cases configured with
    | none => exact hafter
    | some line => exact List.drop_drop.symm.trans (congrArg (List.drop 1) hafter)
  rw [hfurther]
  rfl

namespace Printout

variable (p : Printout)

/-- The libraries are those of the rows. -/
theorem librariesOf_rows : librariesOf (p.rows.map LibraryRow.line ++ p.further)
    = (p.rows.map (·.name)).eraseDups.filterMap fun name => (p.number? name).map (name, ·) := by
  have hfurther : p.further.filterMap library? = [] :=
    List.filterMap_eq_nil_iff.mpr fun line hline => library?_unslashed (p.unslashed line hline)
  have hrows : (p.rows.map LibraryRow.line).filterMap library?
      = p.rows.map fun row => (row.name, row.number) := by
    rw [List.filterMap_map, List.filterMap_congr fun row _ => row.library?_line]
    exact congrFun List.filterMap_eq_map p.rows
  have hlast : ∀ name, Dict.last? (p.rows.map fun row => (row.name, row.number)) name = p.number? name := by
    intro name
    unfold Dict.last? Dict.get? number?
    rw [← List.map_reverse, List.find?_map, Option.map_map]
    rfl
  unfold librariesOf
  rw [List.filterMap_append, hfurther, List.append_nil, hrows, Dict.ofList_eq, List.map_map]
  simp only [hlast]
  rfl

/-- There are libraries exactly if there is a row. -/
theorem libraries_eq_nil : ((p.rows.map (·.name)).eraseDups.filterMap
    fun name => (p.number? name).map (name, ·)) = [] ↔ p.rows = [] := by
  constructor
  · intro hnone
    refine List.eq_nil_iff_forall_not_mem.mpr fun row hrow => ?_
    have hname : row.name ∈ (p.rows.map (·.name)).eraseDups :=
      List.mem_eraseDups.mpr (List.mem_map_of_mem hrow)
    have hmissing := List.filterMap_eq_nil_iff.mp hnone row.name hname
    rw [Option.map_eq_none_iff, number?, Option.map_eq_none_iff, List.find?_eq_none] at hmissing
    exact hmissing row (List.mem_reverse.mpr hrow) (beq_self_eq_true row.name)
  · intro hrows
    rw [hrows]
    rfl

/-- A line behind the configuration is not taken for one in front of it. -/
theorem beginsWith_body {line : String} (h : (p.rows.map LibraryRow.line ++ p.further).head? = some line) :
    beginsWith builtWith line = false ∧ beginsWith configurationMark line = false := by
  rcases List.mem_append.mp (List.mem_of_head? h) with hrow | hfurther
  · obtain ⟨row, -, rfl⟩ := List.mem_map.mp hrow
    exact row.beginsWith_line
  · exact p.unmarked line hfurther

theorem versionWord?_first : versionWord? ("ffmpeg version " ++ p.word ++ p.afterWord) = some p.word := by
  have hline : "ffmpeg version " ++ p.word ++ p.afterWord
      = String.ofList (opening ++ (p.word.toList ++ p.afterWord.toList)) := by
    rw [← String.toList_inj, String.toList_ofList, String.toList_append, String.toList_append,
      List.append_assoc]
    rfl
  have hne : p.word.toList ≠ [] := fun h => p.isWord.ne_empty (String.toList_eq_nil_iff.mp h)
  have hread := versionWord?_opening p.isWord.unbroken hne p.apart
  rw [hline, hread, String.ofList_toList]

/-- A report is read as what was printed. -/
theorem parse_printed : parse (.ofTexts p.lines) = .ok
    ⟨p.word, p.configuration.map (sortedOptions ∘ configurationLine),
      (p.rows.map (·.name)).eraseDups.filterMap fun name => (p.number? name).map (name, ·)⟩ := by
  have hopens : ∀ phrase rest : String, beginsWith phrase.toList (phrase ++ rest) = true := by
    intro phrase rest
    unfold beginsWith
    rw [String.toList_append]
    exact List.isPrefixOf_iff_prefix.mpr (List.prefix_append ..)
  have hbuilt : ∀ line ∈ p.built.map ("built with" ++ ·), beginsWith builtWith line = true := by
    intro line hline
    obtain ⟨rest, -, rfl⟩ := Option.map_eq_some_iff.mp hline
    exact hopens _ rest
  have hconfigured : ∀ line ∈ p.configuration.map configurationLine,
      beginsWith configurationMark line = true := by
    intro line hline
    obtain ⟨options, -, rfl⟩ := Option.map_eq_some_iff.mp hline
    exact hopens _ _
  have happart : ∀ line, ((p.configuration.map configurationLine).toList ++
      (p.rows.map LibraryRow.line ++ p.further)).head? = some line → beginsWith builtWith line = false := by
    intro line hline
    cases hconfiguration : p.configuration with
    | none =>
        rw [hconfiguration] at hline
        exact (p.beginsWith_body hline).1
    | some options =>
        rw [hconfiguration] at hline
        cases hline
        show beginsWith builtWith ("configuration:" ++ _) = false
        unfold beginsWith
        rw [String.toList_append]
        rfl
  rw [← p.librariesOf_rows, ← Option.map_map]
  exact parse_lines p.versionWord?_first hbuilt hconfigured happart fun line hline =>
    (p.beginsWith_body hline).2

end Printout

end VersionReport

/-! ### Reports as values -/

namespace Session

open VersionReport

/-- **A printed report is read back.**  What is read of it is the word for the version, the options of the
configuration in order, and under the name of each library the number in its last row without the padding.
There is no entry for a configuration that is not told, and none for libraries if there is no row. -/
theorem printed_report_read_back (s : Session) (p : Printout) :
    ∃ r, s.readReport (.list (p.lines.map .text)) = .ok r ∧ r.version = p.word ∧
      Option.Rel (fun options sorted => sorted.Perm options ∧ sorted.Pairwise (· ≤ ·))
        p.configuration r.configuration ∧
      r.libraries = (p.rows.map (·.name)).eraseDups.filterMap
        (fun name => (p.number? name).map (name, ·)) ∧
      r.toValue = .dict ((.text "version", .text r.version) ::
        ((r.configuration.map fun options =>
            (Value.text "configuration", .list (options.map .text))).toList ++
          if p.rows = [] then []
          else [(.text "library_versions", .dict (r.libraries.map fun e => (.text e.1, .text e.2)))])) := by
  have hread : s.readReport (.list (p.lines.map .text)) = parse (.ofTexts p.lines) := by
    unfold readReport
    rw [numbered_listed rfl]
    rfl
  refine ⟨_, hread.trans p.parse_printed, rfl, ?_, rfl, ?_⟩
  · cases hconfiguration : p.configuration with
    | none => exact .none
    | some options =>
        have hoptions := options_configurationLine (p.areWords options hconfiguration)
        refine .some ⟨?_, sortedOptions_pairwise _⟩
        exact (sortedOptions_perm _).trans (.of_eq hoptions)
  · unfold VersionReport.toValue librariesEntry configurationEntry
    dsimp only
    simp only [List.isEmpty_iff, p.libraries_eq_nil]
    cases p.configuration <;> rfl

/-- A report without a line about the build, with two options and a library that is listed twice. -/
theorem repeated_library_read_back :
    let lines := ["ffmpeg version 6.1.1 Copyright (c) 2000-2023", "configuration: --enable-gpl --arch=x86/64",
      "libavutil      58. 29.100 / 58. 29.100", "libavcodec     60. 31.102 / 60. 31.102",
      "libavutil       9.  1.  0 /  9.  1.  0", "Exiting with exit code 0"]
    ∃ r, ({} : Session).readReport (.list (lines.map .text)) = .ok r ∧ r.version = "6.1.1" ∧
      (∃ sorted, r.configuration = some sorted ∧ sorted.Perm ["enable-gpl", "arch=x86/64"] ∧
        sorted.Pairwise (· ≤ ·)) ∧
      r.libraries = [("libavutil", "9.1.0"), ("libavcodec", "60.31.102")] := by
  intro lines
  have hunslashed : ∀ line ∈ ["Exiting with exit code 0"], ¬[' ', '/'] <:+: line.toList := by
    intro line hline h
    obtain rfl := List.mem_singleton.mp hline
    exact absurd (h.subset (List.mem_cons_of_mem ' ' List.mem_cons_self)) (by decide)
  let p : Printout :=
    { word := "6.1.1", afterWord := " Copyright (c) 2000-2023", built := none,
      configuration := some ["enable-gpl", "arch=x86/64"],
      rows := [
        ⟨"libavutil", "      ", "58. 29.100", "58. 29.100", ⟨by decide, forall_mem_of_all rfl⟩, by decide, by decide,
          forall_mem_of_all rfl, ⟨⟨'5', by decide, by decide⟩, forall_mem_of_all rfl⟩⟩,
        ⟨"libavcodec", "     ", "60. 31.102", "60. 31.102", ⟨by decide, forall_mem_of_all rfl⟩, by decide, by decide,
          forall_mem_of_all rfl, ⟨⟨'6', by decide, by decide⟩, forall_mem_of_all rfl⟩⟩,
        ⟨"libavutil", "      ", " 9.  1.  0", " 9.  1.  0", ⟨by decide, forall_mem_of_all rfl⟩, by decide, by decide,
          forall_mem_of_all rfl, ⟨⟨'9', by decide, by decide⟩, forall_mem_of_all rfl⟩⟩],
      further := ["Exiting with exit code 0"], isWord := ⟨by decide, forall_mem_of_all rfl⟩,
      apart := by rintro c ⟨⟩; decide
      areWords := by
        rintro options ⟨⟩ option hoption
        simp only [List.mem_cons, List.not_mem_nil, or_false] at hoption
        rcases hoption with rfl | rfl <;> exact ⟨by decide, forall_mem_of_all rfl⟩
      unslashed := hunslashed, unmarked := by decide }
  obtain ⟨r, hread, hversion, hconfiguration, hlibraries, -⟩ := printed_report_read_back {} p
  refine ⟨r, hread, hversion, ?_, hlibraries.trans (by rfl)⟩
  revert hconfiguration
  cases r.configuration with
  | none => exact fun h => nomatch h
  | some sorted => exact fun | .some h => ⟨sorted, rfl, h⟩

end Session

end MediaCommand
