/-
The complaint in a log.

A log is a text or is given line by line.  A text has line feeds and carriage returns between its lines,
in any number, and blanks may follow the last line.  Cut at its line ends such a text gives its lines back
(`lines_of_written`), so the two forms hold the same complaint.

Which lines belong together is told by the last line, and which of them are there depends on how many there
are.  Whatever the lines say, there is a complaint and it quotes them (`scan_quotes`): it is the first line,
or up to three lines at the end, behind which the last line may be left out.  Only the remark that nothing
was asked of the program is replaced by words of its own.
-/
import MediaCommand.Proofs.WordsBack

namespace MediaCommand

/-! ### Texts cut into lines -/

namespace Text

variable {line rest : List Char}

theorem splitAtLineEnds_ne_nil (cs : List Char) : splitAtLineEnds cs ≠ [] := by
  fun_induction splitAtLineEnds cs <;> simp_all

/-- A character that is no line end is put in front of the first piece. -/
theorem splitAtLineEnds_cons {c : Char} (hc : isLineEnd c = false) (rest : List Char) :
    splitAtLineEnds (c :: rest) = (splitAtLineEnds rest).modifyHead (c :: ·) := by
  rw [splitAtLineEnds.eq_def]
  simp only [hc, Bool.false_eq_true, if_false]
  cases hpieces : splitAtLineEnds rest with
  | nil => exact absurd hpieces (splitAtLineEnds_ne_nil rest)
  | cons piece pieces => rfl

/-- Characters without a line end stay in front of the first piece. -/
theorem splitAtLineEnds_append (h : ∀ c ∈ line, isLineEnd c = false) (rest : List Char) :
    splitAtLineEnds (line ++ rest) = (splitAtLineEnds rest).modifyHead (line ++ ·) := by
  induction line with
  | nil =>
      show splitAtLineEnds rest = (splitAtLineEnds rest).modifyHead fun piece => piece
      cases splitAtLineEnds rest <;> rfl
  | cons c cs ih =>
      rw [List.cons_append, splitAtLineEnds_cons (h c List.mem_cons_self),
        ih fun d hd => h d (List.mem_cons_of_mem c hd), List.modifyHead_modifyHead]
      rfl

/-- However many line ends there are, they cut once. -/
theorem splitAtLineEnds_ends {ends : List Char} (hne : ends ≠ []) (hends : ∀ c ∈ ends, isLineEnd c = true)
    {d : Char} (hd : isLineEnd d = false) :
    splitAtLineEnds (ends ++ d :: rest) = [] :: splitAtLineEnds (d :: rest) := by
  induction ends with
  | nil => exact absurd rfl hne
  | cons c more ih =>
      have hc := hends c List.mem_cons_self
      cases more with
      | nil =>
          rw [List.singleton_append, splitAtLineEnds.eq_def]
          simp only [hc, hd, if_true, Bool.false_eq_true, if_false]
      | cons c' more =>
          rw [List.cons_append, List.cons_append, splitAtLineEnds.eq_def]
          simp only [hc, hends c' (by simp), if_true]
          exact ih (List.cons_ne_nil c' more) fun x hx => hends x (List.mem_cons_of_mem c hx)

/-- Blanks at the end do not count. -/
theorem trimEndChars_append {blanks : List Char} (hblanks : ∀ c ∈ blanks, isBlank c = true)
    (hend : ∀ c, line.getLast? = some c → isBlank c = false) : trimEndChars (line ++ blanks) = line := by
  have hkept : line.reverse.dropWhile isBlank = line.reverse := by
    cases hline : line.reverse with
    | nil => rfl
    | cons c more =>
        refine List.dropWhile_cons_of_neg (Bool.eq_false_iff.mp (hend c ?_))
        rw [List.getLast?_eq_head?_reverse, hline]
        rfl
  unfold trimEndChars
  rw [List.reverse_append, List.dropWhile_append_of_pos (by simpa using hblanks), hkept,
    List.reverse_reverse]

end Text

namespace ErrorLog

/-- A line that is not empty and holds no line end. -/
structure IsLine (line : String) : Prop where
  ne_empty : line ≠ ""
  unbroken : ∀ c ∈ line.toList, Text.isLineEnd c = false

instance (line : String) : Decidable (IsLine line) :=
  decidable_of_iff (line ≠ "" ∧ line.toList.any Text.isLineEnd = false)
    ⟨fun h => ⟨h.1, by simpa using h.2⟩, fun h => ⟨h.ne_empty, by simpa using h.unbroken⟩⟩

/-- Characters are lines with line ends between them, at least one between two lines. -/
inductive Joined : List String → List Char → Prop
  | one {line : String} (hline : IsLine line) : Joined [line] line.toList
  | more {line : String} {ls : List String} {ends cs : List Char} (hline : IsLine line)
      (hne : ends ≠ []) (hends : ∀ c ∈ ends, Text.isLineEnd c = true) (rest : Joined ls cs) :
      Joined (line :: ls) (line.toList ++ (ends ++ cs))

/-- A text writes lines down, the last of which does not end in a blank: they are joined, and there may
be blanks behind them. -/
structure Written (ls : List String) (log : String) : Prop where
  lastLine : ∀ line, ls.getLast? = some line →
    ∀ c, line.toList.getLast? = some c → Text.isBlank c = false
  text : ∃ joined blanks, Joined ls joined ∧ (∀ c ∈ blanks, Text.isBlank c = true) ∧
    log.toList = joined ++ blanks

namespace Joined

variable {ls : List String} {cs : List Char}

theorem ne_nil (h : Joined ls cs) : ls ≠ [] := by
  cases h <;> exact List.cons_ne_nil _ _

/-- What is joined begins with a character of a line. -/
theorem head (h : Joined ls cs) : ∃ d rest, cs = d :: rest ∧ Text.isLineEnd d = false := by
  have hfirst : ∀ {line : String} (more : List Char), IsLine line →
      ∃ d rest, line.toList ++ more = d :: rest ∧ Text.isLineEnd d = false := by
    intro line more hline
    cases hchars : line.toList with
    | nil => exact absurd (String.toList_eq_nil_iff.mp hchars) hline.ne_empty
    | cons d rest => exact ⟨d, rest ++ more, rfl, hline.unbroken d (by simp [hchars])⟩
  cases h with
  | one hline => simpa using hfirst [] hline
  | more hline => exact hfirst _ hline

/-- It ends as the last line does. -/
theorem getLast? (h : Joined ls cs) : ∃ line, ls.getLast? = some line ∧
    cs.getLast? = line.toList.getLast? := by
  induction h with
  | one hline => exact ⟨_, rfl, rfl⟩
  | more hline hne hends rest ih =>
      obtain ⟨line, hlast, hend⟩ := ih
      obtain ⟨d, more, rfl, -⟩ := rest.head
      refine ⟨line, ?_, ?_⟩
      · rw [List.getLast?_cons, hlast]
        rfl
      · rw [List.getLast?_append_of_ne_nil _ (by simp), List.getLast?_append_of_ne_nil _ (by simp), hend]

/-- It is cut into the lines. -/
theorem splitAtLineEnds (h : Joined ls cs) : Text.splitAtLineEnds cs = ls.map String.toList := by
  induction h with
  | @one line hline =>
      have hcut := Text.splitAtLineEnds_append hline.unbroken []
      rw [List.append_nil] at hcut
      rw [hcut]
      show [line.toList ++ []] = [line.toList]
      rw [List.append_nil]
  | @more line ls ends cs hline hne hends rest ih =>
      obtain ⟨d, more, rfl, hd⟩ := rest.head
      rw [Text.splitAtLineEnds_append hline.unbroken, Text.splitAtLineEnds_ends hne hends hd, ih]
      show (line.toList ++ []) :: _ = _
      rw [List.append_nil]
      rfl

end Joined

/-- A text that writes lines down has these lines. -/
theorem lines_of_written {ls : List String} {log : String} (h : Written ls log) : lines log = ls := by
  obtain ⟨joined, blanks, hjoined, hblanks, htext⟩ := h.text
  obtain ⟨line, hline, hend⟩ := hjoined.getLast?
  have htrimmed : Text.trimEndChars log.toList = joined := by
    rw [htext]
    refine Text.trimEndChars_append hblanks fun c hc => ?_
    exact h.lastLine line hline c (hend ▸ hc)
  unfold lines
  rw [htrimmed, hjoined.splitAtLineEnds, List.map_map]
  exact (List.map_congr_left fun line _ => String.ofList_toList).trans (List.map_id' _)

theorem lines_ne_nil (log : String) : lines log ≠ [] := by
  unfold lines
  simpa using Text.splitAtLineEnds_ne_nil _

/-! ### What is quoted -/

/-- A complaint quotes one, two or three lines next to each other: the first line, or lines behind which at
most the last one is left out. -/
def Quotes (ls : List String) (complaint : String) : Prop :=
  ∃ before block after, ls = before ++ block ++ after ∧ block ≠ [] ∧ block.length ≤ 3 ∧
    complaint = "\n  ".intercalate block ∧ (before = [] ∧ block.length = 1 ∨ after.length ≤ 1)

section Quoting

variable {front back : List String} {line : String}

theorem size_texts (ls : List String) : (Numbered.ofTexts ls).size = ls.length := List.length_map _

/-- A line is found by how many lines are behind it. -/
theorem item_back (front : List String) (line : String) (back : List String) :
    (Numbered.ofTexts (front ++ line :: back)).item (-(back.length + 1)) = .ok (.text line) := by
  have hindex : -(back.length + 1 : Int) + (front ++ line :: back).length = (front.length : Int) := by
    rw [List.length_append, List.length_cons]
    omega
  have hlength : ((front ++ line :: back).map Value.text).length = (front ++ line :: back).length :=
    List.length_map _
  show Numbered.itemAt ((front ++ line :: back).map Value.text) _ = _
  unfold Numbered.itemAt
  have hnegative : -(back.length + 1 : Int) < 0 := by omega
  dsimp only
  rw [hlength, if_pos hnegative, hindex, if_neg (by omega), Int.toNat_natCast, List.getElem?_map,
    List.getElem?_append_right (Nat.le_refl _), Nat.sub_self]
  rfl

theorem lastTogether_texts (ls : List String) (count : Nat) :
    lastTogether (.ofTexts ls) count = .ok (.text (together (ls.drop (ls.length - count)))) := by
  have htake : (Numbered.ofTexts ls).takeLast count = .ok ((ls.drop (ls.length - count)).map .text) := by
    show Except.ok ((ls.map Value.text).drop ((ls.map Value.text).length - count)) = _
    rw [List.length_map, List.map_drop]
  unfold lastTogether
  rw [htake]
  show (do
    return Value.text (together (← ((ls.drop (ls.length - count)).map Value.text).mapM Value.asText))) = _
  rw [VersionReport.mapM_asText]
  rfl

theorem quotes_line (front : List String) (line : String) (hback : back.length ≤ 1) :
    Quotes (front ++ line :: back) line :=
  ⟨front, [line], back, by simp, by simp, by simp, rfl, .inr hback⟩

theorem quotes_two (front : List String) (line line' : String) (hback : back.length ≤ 1) :
    Quotes (front ++ line :: line' :: back) (together [line, line']) :=
  ⟨front, [line, line'], back, by simp, by simp, by simp, rfl, .inr hback⟩

theorem quotes_last {ls : List String} (h : ls ≠ []) {count : Nat} (hpos : 0 < count) (hcount : count ≤ 3) :
    Quotes ls (together (ls.drop (ls.length - count))) := by
  have hlength := List.length_pos_iff.mpr h
  refine ⟨ls.take (ls.length - count), ls.drop (ls.length - count), [], by simp, ?_, ?_, rfl,
    .inr (by simp)⟩
  · rw [ne_eq, List.drop_eq_nil_iff]
    omega
  · rw [List.length_drop]
    omega

end Quoting

/-! ### The complaint in lines -/

section Scanning

variable {ls : List String}

/-- What a remark makes of the line before it quotes the lines. -/
theorem complaintBefore_quotes (t : Texts) (front : List String) (before last : String) (remark : Remark) :
    ∃ complaint, complaintBefore t (.ofTexts (front ++ [before, last])) last (.text before) remark
        = .ok (.text complaint) ∧ Quotes (front ++ [before, last]) complaint := by
  have hbefore : Quotes (front ++ [before, last]) before := quotes_line front before (by simp)
  have hboth : Quotes (front ++ [before, last]) (together [before, last]) :=
    quotes_two front before last (by simp)
  have hlast : Quotes (front ++ [before, last]) last :=
    List.append_cons front before [last] ▸ quotes_line (front ++ [before]) last (by simp)
  cases remark with
  | wrongArgument =>
      show ∃ complaint, (if before == "Error initializing complex filters." &&
        2 < (Numbered.ofTexts (front ++ [before, last])).size then _ else _) = _ ∧ _
      split
      · rename_i hfilters
        rw [size_texts, Bool.and_eq_true, decide_eq_true_eq, List.length_append] at hfilters
        rcases List.eq_nil_or_concat' front with rfl | ⟨front, third, rfl⟩
        · exact absurd hfilters.2 (by simp)
        · have hlines : front ++ [third] ++ [before, last] = front ++ third :: before :: [last] := by simp
          have hthird := item_back front third [before, last]
          rw [hlines]
          change (Numbered.ofTexts _).item (-3) = _ at hthird
          rw [hthird]
          exact ⟨_, rfl, quotes_two front third before (by simp)⟩
      · exact ⟨before, rfl, hbefore⟩
  | addition => exact ⟨_, rfl, hboth⟩
  | globalOptions =>
      show ∃ complaint, (if ends "Invalid argument" before then lastTogether _ 3 else _) = _ ∧ _
      rw [lastTogether_texts]
      split
      · exact ⟨_, rfl, quotes_last (by simp) (by decide) (by decide)⟩
      · exact ⟨_, rfl, hboth⟩
  | failed => exact ⟨before, rfl, hbefore⟩
  | namedArgument =>
      show ∃ complaint, (if begins "[lavfi " before then added t (.text before) last else _) = _ ∧ _
      split
      · exact ⟨_, rfl, hboth⟩
      · exact ⟨before, rfl, hbefore⟩
  | _ => exact ⟨last, rfl, hlast⟩

/-- So does what it makes of the line before it if there is one, and else the remark itself. -/
theorem remarked_quotes (t : Texts) (front : List String) (last : String) (remark : Remark) :
    ∃ complaint, (if (Numbered.ofTexts (front ++ [last])).size < 2 then .ok (.text last)
        else (Numbered.ofTexts (front ++ [last])).item (-2) >>=
          (complaintBefore t (.ofTexts (front ++ [last])) last · remark))
      = Except.ok (.text complaint) ∧ Quotes (front ++ [last]) complaint := by
  split
  · exact ⟨last, rfl, quotes_line front last (by simp)⟩
  · rename_i hmore
    rw [size_texts, List.length_append] at hmore
    rcases List.eq_nil_or_concat' front with rfl | ⟨front, before, rfl⟩
    · exact absurd (by simp) hmore
    · have hbefore := item_back front before [last]
      change (Numbered.ofTexts _).item (-2) = _ at hbefore
      rw [List.append_assoc, List.singleton_append, hbefore]
      exact complaintBefore_quotes t front before last remark

/-- There is a complaint in any lines, and it quotes them unless the last one remarks that nothing was
asked. -/
theorem scan_quotes (t : Texts) (h : ls ≠ []) :
    ∃ complaint, scan t (.ofTexts ls) = .ok (.text complaint) ∧
      (complaint = "No ffmpeg command argument specified" ∨ Quotes ls complaint) := by
  obtain ⟨front, last, rfl⟩ := (List.eq_nil_or_concat' ls).resolve_left h
  have hlast := item_back front last []
  change (Numbered.ofTexts _).item (-1) = _ at hlast
  have hremark := remarked_quotes t front last
  have hquoted : Quotes (front ++ [last]) last := quotes_line front last (by simp)
  have hcomplaint : ∃ complaint', complaint t (.ofTexts (front ++ [last])) = .ok (.text complaint') ∧
      (complaint' = "No ffmpeg command argument specified" ∨ Quotes (front ++ [last]) complaint') := by
    unfold complaint
    rw [hlast]
    dsimp only [bind, Except.bind, Value.asked, Value.bare]
    cases Remark.ofLine last with
    | nothingAsked => exact ⟨_, rfl, .inl rfl⟩
    | opening => exact ⟨_, lastTogether_texts _ 2, .inr (quotes_last h (by decide) (by decide))⟩
    | complaint => exact ⟨last, rfl, .inr hquoted⟩
    | wrongArgument => exact (hremark .wrongArgument).imp fun _ h => h.imp_right .inr
    | addition => exact (hremark .addition).imp fun _ h => h.imp_right .inr
    | globalOptions => exact (hremark .globalOptions).imp fun _ h => h.imp_right .inr
    | failed => exact (hremark .failed).imp fun _ h => h.imp_right .inr
    | namedArgument => exact (hremark .namedArgument).imp fun _ h => h.imp_right .inr
  obtain ⟨first, more, hfirst⟩ := List.exists_cons_of_ne_nil h
  have hitem : (Numbered.ofTexts (front ++ [last])).item 0 = .ok (.text first) :=
    VersionReport.item_ofTexts (congrArg (·[0]?) hfirst)
  unfold scan
  rw [size_texts, hitem, if_neg (by simp)]
  show ∃ complaint', (if begins "Unknown help option " first then _ else _) = _ ∧ _
  split
  · refine ⟨first, rfl, .inr ?_⟩
    rw [hfirst]
    exact ⟨[], [first], more, rfl, by simp, by simp, rfl, .inl ⟨rfl, rfl⟩⟩
  · exact hcomplaint

end Scanning

end ErrorLog

/-! ### Both forms of a log -/

namespace Session

/-- The complaint in a text is that in its lines. -/
theorem complaintIn_text (s : Session) (log : String) :
    s.complaintIn (.text log) = ErrorLog.scan s.scene.texts (.ofTexts (ErrorLog.lines log)) := by
  unfold complaintIn logGiven
  simp only [bind, Except.bind]

/-- The complaint in a list of lines. -/
theorem complaintIn_listed (s : Session) {given : Value} {ls : List String}
    (h : given.bare = .list (ls.map .text)) :
    s.complaintIn given = ErrorLog.scan s.scene.texts (.ofTexts ls) := by
  have hlines : s.logGiven given = .ok (some (.ofTexts ls)) := by
    have hlisted : s.logGiven given = (s.objects.numbered given).map some := by
      cases given with
      | null => cases h
      | text log => cases h
      | _ => rfl
    rw [hlisted, numbered_listed h]
    rfl
  unfold complaintIn
  rw [hlines]
  rfl

/-- **A log makes the same complaint in both forms.**  Lines that are given as a list, and any text that
writes them down with line ends between them and blanks behind them, make one complaint.  It is the remark
that nothing was asked, or it quotes one, two or three lines that stand together in the log. -/
theorem same_complaint_in_both_forms (s : Session) {ls : List String} {log : String} {given : Value}
    (hwritten : ErrorLog.Written ls log) (hgiven : given.bare = .list (ls.map .text)) :
    ∃ complaint, s.complaintIn (.text log) = .ok (.text complaint) ∧
      s.complaintIn given = .ok (.text complaint) ∧
      (complaint = "No ffmpeg command argument specified" ∨ ErrorLog.Quotes ls complaint) := by
  obtain ⟨joined, -, hjoined, -⟩ := hwritten.text
  obtain ⟨complaint, hscan, hquotes⟩ := ErrorLog.scan_quotes s.scene.texts hjoined.ne_nil
  refine ⟨complaint, ?_, ?_, hquotes⟩
  · rw [complaintIn_text, ErrorLog.lines_of_written hwritten, hscan]
  · rw [complaintIn_listed s hgiven, hscan]

/-- Three lines with an empty line among them and a line end and a blank behind them: both forms complain
about the filter. -/
theorem same_complaint_about_filter :
    let ls := ["Filter hflip has an unconnected output", "Error initializing complex filters.",
      "Invalid argument"]
    let log := "Filter hflip has an unconnected output\r\nError initializing complex filters.\n\n" ++
      "Invalid argument\n "
    ErrorLog.Written ls log ∧ ∃ complaint,
      ({} : Session).complaintIn (.text log) = .ok (.text complaint) ∧
      ({} : Session).complaintIn (.list (ls.map .text)) = .ok (.text complaint) ∧
      complaint = "Filter hflip has an unconnected output\n  Error initializing complex filters." := by
  intro ls log
  have hjoined : ErrorLog.Joined ls ("Filter hflip has an unconnected output".toList ++ (['\r', '\n'] ++
      ("Error initializing complex filters.".toList ++ (['\n', '\n'] ++ "Invalid argument".toList)))) :=
    .more (by decide) (by decide) (forall_mem_of_all rfl)
      (.more (by decide) (by decide) (forall_mem_of_all rfl) (.one (by decide)))
  have hwritten : ErrorLog.Written ls log :=
    ⟨by rintro line ⟨⟩ c ⟨⟩; decide, _, ['\n', ' '], hjoined, forall_mem_of_all rfl, by decide⟩
  have hgiven : (Value.list (ls.map .text)).bare = .list (ls.map .text) := rfl
  obtain ⟨complaint, htext, hlist, -⟩ := same_complaint_in_both_forms {} hwritten hgiven
  refine ⟨hwritten, complaint, htext, hlist, ?_⟩
  have htold : ({} : Session).complaintIn (.list (ls.map .text)) = .ok (.text
      "Filter hflip has an unconnected output\n  Error initializing complex filters.") := by rfl
  rw [htold] at hlist
  cases hlist
  rfl

end Session

end MediaCommand
