/-
Words that are written to a line and read back.

A reader of lines stands between two words or inside one.  If it takes a word as it is written for the word
itself, whatever follows, then it reads a line of written words back, since the blanks between them end one
word and begin the next (`read_spaced`).  A written word is taken so by the splitter: bare if no character in
it means anything, and otherwise in single quotes, which are left for every single quote in the word
(`splitFrom_quoteChars`).  So a list of texts and the line that is written of it are the same to whatever
takes both.
-/
import MediaCommand.Proofs.Handover
import MediaCommand.Session.Compose

namespace MediaCommand

/-- What holds of every item of a list can be computed item by item. -/
theorem forall_mem_of_all {α : Type} {P : α → Prop} [DecidablePred P] {l : List α}
    (h : (l.all fun a => decide (P a)) = true) : ∀ a ∈ l, P a :=
  fun a ha => of_decide_eq_true (List.all_eq_true.mp h a ha)

namespace Shell

/-! ### Lines of words -/

/-- A reader that takes each word as it is written, whatever follows, reads a line of written words back. -/
theorem read_spaced (between : List Char → Option (List (List Char)))
    (inside : List Char → List Char → Option (List (List Char)))
    (hnone : between [] = some []) (hlast : ∀ word, inside word [] = some [word])
    (hblank : ∀ word rest, inside word (' ' :: rest) = (between rest).map (word :: ·))
    {words written : List String}
    (h : List.Forall₂ (fun word text => ∀ rest,
      between (text.toList ++ rest) = inside word.toList rest) words written) :
    between (" ".intercalate written).toList = some (words.map String.toList) := by
  rw [String.toList_intercalate]
  show between ([' '].intercalate _) = _
  induction h with
  | nil => exact hnone
  | @cons word text _ _ htaken hmore ih =>
      cases hmore with
      | nil =>
          rw [List.map_singleton, List.intercalate_singleton, ← List.append_nil text.toList, htaken]
          exact hlast word.toList
      | cons =>
          rw [List.map_cons, List.intercalate_cons_of_ne_nil (by simp), List.append_assoc, htaken,
            List.singleton_append, hblank, ih]
          rfl

/-! ### Words to split -/

/-- A plain character ends no word and opens no quotation. -/
theorem ordinary_of_isPlain {c : Char} (h : isPlain c = true) :
    isSeparator c = false ∧ (c == '\\') = false ∧ (c == '\'') = false ∧ (c == '"') = false := by
  have hne : ∀ d, isPlain d = false → c ≠ d := fun d hd heq => by simp [heq, hd] at h
  simp [isSeparator, hne ' ' (by decide), hne '\t' (by decide), hne '\r' (by decide),
    hne '\n' (by decide), hne '\\' (by decide), hne '\'' (by decide), hne '"' (by decide)]

theorem splitFrom_plain {piece : List Char} (h : piece.all isPlain = true) (word rest : List Char) :
    splitFrom .bare word (piece ++ rest) = splitFrom .bare (piece.reverse ++ word) rest := by
  induction piece generalizing word with
  | nil => rfl
  | cons c more ih =>
      rw [List.all_cons, Bool.and_eq_true] at h
      obtain ⟨hblank, hescape, hsingle, hdouble⟩ := ordinary_of_isPlain h.1
      rw [List.cons_append, splitFrom, hblank, hescape, hsingle, hdouble]
      simpa using ih h.2 (c :: word)

/-- A piece in single quotes is read as it is.  At a single quote in it the quotation is closed, the single
quote follows in double quotes, and the quotation is opened again. -/
theorem splitFrom_single (piece word rest : List Char) :
    splitFrom .single word (piece.flatMap singleQuotedChar ++ '\'' :: rest)
      = splitFrom .bare (piece.reverse ++ word) rest := by
  induction piece generalizing word with
  | nil => simp [splitFrom]
  | cons c more ih =>
      have hmore := ih (c :: word)
      rw [List.flatMap_cons, List.append_assoc, List.reverse_cons, List.append_assoc,
        List.singleton_append, ← hmore]
      by_cases hquote : c = '\''
      · subst hquote
        simp [singleQuotedChar, splitFrom, isSeparator]
      · simp [singleQuotedChar, splitFrom, hquote]

/-- A written word is taken for the word itself. -/
theorem splitFrom_quoteChars (word rest : List Char) :
    splitFrom .between [] (quoteChars word ++ rest) = splitFrom .bare word.reverse rest := by
  unfold quoteChars
  cases word with
  | nil => simp [splitFrom, isSeparator]
  | cons c more =>
      rw [List.isEmpty_cons, if_neg Bool.false_ne_true]
      by_cases hplain : (c :: more).all isPlain = true
      · rw [if_pos hplain]
        rw [List.all_cons, Bool.and_eq_true] at hplain
        obtain ⟨hblank, hescape, hsingle, hdouble⟩ := ordinary_of_isPlain hplain.1
        rw [List.cons_append, splitFrom, hblank, hescape, hsingle, hdouble]
        simpa using splitFrom_plain hplain.2 [c] rest
      · rw [if_neg hplain]
        simpa [splitFrom, isSeparator] using splitFrom_single (c :: more) [] rest

/-- A line of written words splits into the words. -/
theorem split_join (words : List String) : split? (join words) = some words := by
  have hchars : splitFrom .between [] (join words).toList = some (words.map String.toList) := by
    refine read_spaced (splitFrom .between []) (fun word => splitFrom .bare word.reverse) rfl
      (fun word => ?_) (fun word rest => ?_) ?_
    · rw [splitFrom, List.reverse_reverse]
    · rw [splitFrom, List.reverse_reverse]
      rfl
    · refine List.forall₂_map_right_iff.mpr (List.forall₂_same.mpr fun word _ rest => ?_)
      rw [quote, String.toList_ofList, splitFrom_quoteChars]
  unfold split?
  rw [hchars]
  simp

end Shell

namespace Launch

theorem splitLine_join (words : List String) : splitLine (Shell.join words) = .ok words := by
  unfold splitLine
  rw [Shell.split_join]

/-- A request is handed over by what its arguments come to. -/
theorem exec_args_congr {s : Scene} {v w : Value} (h : resolveArgs s v = resolveArgs s w)
    (settings : Settings) (program : Program) (r : Request) :
    exec s settings program { r with args := v } = exec s settings program { r with args := w } := by
  unfold exec
  rw [h]
  rfl

end Launch

/-! ### Lists of texts -/

section Listed

variable {v : Value} {args : List String} (h : v.bare = .list (args.map .text))
include h

theorem items_listed (o : Objects) : o.items? v = some (args.map .text) := by
  rw [Objects.items?, h]

theorem elements_listed (o : Objects) : o.elements v = .ok (args.map .text) := by
  rw [Objects.elements, Objects.elements?, h]
  dsimp only
  rw [items_listed h]

theorem numbered_listed (o : Objects) : o.numbered v = .ok (.ofTexts args) := by
  rw [Objects.numbered, h]
  dsimp only
  rw [elements_listed h]
  rfl

/-- A list may be kept under a mark, but it is no text and no object. -/
theorem resolveArgs_listed (s : Scene) :
    Launch.resolveArgs s v = .ok (none, args.map .text) := by
  rw [← Launch.resolveArgs_texts s args]
  cases v with
  | marked mark v =>
      rw [Launch.resolveArgs, items_listed h]
      · rfl
      · nofun
      · nofun
  | list items =>
      cases h
      rfl
  | _ => cases h

theorem directCall_listed (o : Objects) (program : Program) (asked : Value) :
    Launch.directCall o program asked v = (do
      let asked ← Launch.programAsked o asked
      let _ ← program.toStart asked
      return (asked, args.map .text)) := by
  have hcall : Launch.directCall o program asked v = (do
      let asked ← Launch.programAsked o asked
      let _ ← program.toStart asked
      return (asked, ← o.elements v)) := by
    cases v with
    | text line => cases h
    | _ => rfl
  rw [hcall, elements_listed h]
  rfl

theorem readOptions_listed (s : Session) :
    s.readOptions v = Options.read s.objects (.ofTexts args) := by
  have hread : s.readOptions v = (do Options.read s.objects (← s.objects.numbered v)) := by
    cases v with
    | text line => cases h
    | _ => rfl
  rw [hread, numbered_listed h]
  rfl

/-- Without a program to start, a line fails as late as a list does, and in the same way. -/
theorem runDirectly_listed (s : Session) (asked : Value) (keywords : List (String × Value)) :
    s.runDirectly (.text (Shell.join args)) asked keywords = s.runDirectly v asked keywords := by
  unfold Session.runDirectly
  split
  · rfl
  · dsimp only
    rw [directCall_listed h, Launch.directCall, Launch.splitLine_join]
    dsimp only [bind, Except.bind]
    cases Launch.programAsked s.objects ((Dict.get? keywords "executable").getD asked) with
    | error e => rfl
    | ok asked =>
        dsimp only [pure, Except.pure]
        cases hpath : s.program.toStart asked with
        | ok path => rfl
        | error e =>
            dsimp only
            rw [Session.startNow, Launch.start_error hpath]

end Listed

/-! ### A list and its line -/

/-- The line that is written of a list of texts means the list: it splits into the same texts, a request
with either one of them gets the same reply and hands the same call to the process runner, and so does a
direct call of the program; and the options in both are the same, or are refused in the same way. -/
theorem line_means_list (s : Session) {v : Value} {args : List String}
    (h : v.bare = .list (args.map .text)) :
    ∃ line, s.joinWords v = .ok line ∧ Shell.split? line = some args ∧
      (∀ r : Request, s.exec { r with args := .text line } = s.exec { r with args := v }) ∧
      (∀ asked keywords,
        s.runDirectly (.text line) asked keywords = s.runDirectly v asked keywords) ∧
      s.readOptions (.text line) = s.readOptions v := by
  refine ⟨Shell.join args, ?_, Shell.split_join args, fun r => ?_, runDirectly_listed h s, ?_⟩
  · rw [Session.joinWords, elements_listed h]
    show (do return " ".intercalate (← (args.map Value.text).mapM (Launch.logWord s.objects))) = _
    rw [Launch.logWords_texts]
    rfl
  · have hargs : Launch.resolveArgs s.scene (.text (Shell.join args)) = Launch.resolveArgs s.scene v := by
      rw [resolveArgs_listed h, Launch.resolveArgs, Launch.splitLine_join]
      rfl
    unfold Session.exec
    rw [Launch.exec_args_congr hargs]
    rfl
  · rw [readOptions_listed h, Session.readOptions, Launch.splitLine_join]
    rfl

/-- A session with a program to start. -/
def readySession : Session := { program := { path := some "ffmpeg" } }

/-- Words of which all but the last have to be quoted. -/
def quotedWords : List String := ["", "it's", "C:\\a b", "two\nlines", "#1", "é", "-y"]

/-- The line for words that have to be quoted splits into them, and the program is handed them. -/
theorem line_means_list_quoted :
    ∃ line, readySession.joinWords (.marked 300 (.list (quotedWords.map .text))) = .ok line ∧
      line = "'' 'it'\"'\"'s' 'C:\\a b' 'two\nlines' '#1' 'é' -y" ∧
      Shell.split? line = some quotedWords ∧
      (readySession.runDirectly (.text line) .null []).result
        = .ok ⟨("ffmpeg" :: quotedWords).map .text, []⟩ := by
  obtain ⟨line, hline, hsplit, -, hdirect, -⟩ :=
    line_means_list readySession (v := .marked 300 (.list (quotedWords.map .text))) rfl
  refine ⟨line, hline, Except.ok.inj (hline.symm.trans (by rfl)), hsplit, ?_⟩
  rw [hdirect]
  rfl

end MediaCommand
