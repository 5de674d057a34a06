/-
The line that shows a command, as a shell reads it.

A shell tells words apart at blanks, and takes what stands between two double quotes as it stands, except
for the backslash and for what it expands even there.  A backslash in double quotes takes the meaning from
the next character if that has one, joins two lines if the line ends behind it, and is otherwise a backslash
like any other.  The reader here gives up at whatever else a shell gives a meaning to, and above all at
everything that it would expand (`shellFrom`); so what it reads is read without any expansion.

The writer puts a backslash in front of exactly the characters that have a meaning in double quotes, so
neither a run of backslashes in front of a quote nor one at the end of a word is taken for anything else
(`shellFrom_quoted`).  Option names stand bare, which is safe for the characters that they are made of
(`IsOptionName`).
-/
import MediaCommand.Proofs.Mapped
import MediaCommand.Proofs.WordsBack

namespace MediaCommand

namespace Shell

/-! ### Lines as a shell reads them -/

/-- Where a shell stands in a line. -/
inductive Place
  /-- Between two words. -/
  | between
  /-- Inside a word and outside quotes. -/
  | bare
  /-- Inside double quotes. -/
  | quoted
  /-- After a backslash in double quotes. -/
  | escaped
  deriving DecidableEq, Repr

/-- The blanks that end a word. -/
def isBlank (c : Char) : Bool := c == ' ' || c == '\t'

/-- The characters that open an expansion, in double quotes too: the dollar sign and the backtick. -/
def isExpanded (c : Char) : Bool := c == '$' || c.toNat == 0x60

/-- The characters that mean something outside quotes, besides blanks and double quotes: those that end a
command or lead its streams, other ways of quoting, and what is expanded. -/
def isSpecial (c : Char) : Bool :=
  isExpanded c || ['|', '&', ';', '<', '>', '(', ')', '\\', '\'', '\n', '*', '?', '[', '#', '~', '%'].contains c

/-- The words of the rest of a line, given the current word backwards.  There are none if the line ends in
quotes, or if the shell would do anything but tell words apart and take off double quotes. -/
def shellFrom : Place → List Char → List Char → Option (List (List Char))
  | .between, _, [] => some []
  | .bare, word, [] => some [word.reverse]
  | .quoted, _, [] => none
  | .escaped, _, [] => none
  | .between, word, c :: rest =>
    if isBlank c then shellFrom .between word rest
    else if c == '"' then shellFrom .quoted [] rest
    else if isSpecial c then none
    else shellFrom .bare [c] rest
  | .bare, word, c :: rest =>
    if isBlank c then (shellFrom .between [] rest).map (word.reverse :: ·)
    else if c == '"' then shellFrom .quoted word rest
    else if isSpecial c then none
    else shellFrom .bare (c :: word) rest
  | .quoted, word, c :: rest =>
    if c == '"' then shellFrom .bare word rest
    else if c == '\\' then shellFrom .escaped word rest
    else if isExpanded c then none
    else shellFrom .quoted (c :: word) rest
  | .escaped, word, c :: rest =>
    if c == '"' || c == '\\' || isExpanded c then shellFrom .quoted (c :: word) rest
    else if c == '\n' then shellFrom .quoted word rest
    else shellFrom .quoted (c :: '\\' :: word) rest

/-- The words that a shell reads in a line, if it expands nothing. -/
def shellWords? (line : String) : Option (List String) :=
  (shellFrom .between [] line.toList).map (·.map String.ofList)

/-! ### What is shown -/

/-- The characters of option names: letters and digits of any script, and those that join the parts of a
name. -/
def isOptionChar (c : Char) : Bool :=
  c.isAlphanum || ['-', '_', ':', '.', '=', '+', '/'].contains c || 0x80 ≤ c.toNat

/-- Whether a word that begins with a dash is made of the characters of option names. -/
def IsOptionName (word : String) : Prop :=
  word.toList.head? = some '-' → word.toList.all isOptionChar = true

instance (word : String) : Decidable (IsOptionName word) :=
  inferInstanceAs (Decidable (_ → _))

theorem ordinary_of_isOptionChar {c : Char} (h : isOptionChar c = true) :
    isBlank c = false ∧ (c == '"') = false ∧ isSpecial c = false := by
  have hne : ∀ d, isOptionChar d = false → c ≠ d := fun d hd heq => by simp [heq, hd] at h
  have hbacktick : c.toNat ≠ 0x60 := by
    intro hcode
    have hc : c = '\x60' := Char.toNat_inj.mp hcode
    exact hne '\x60' (by decide) hc
  have hexpanded : isExpanded c = false := by
    simp [isExpanded, hne '$' (by decide), hbacktick]
  refine ⟨by simp [isBlank, hne ' ' (by decide), hne '\t' (by decide)],
    by simp [hne '"' (by decide)], ?_⟩
  rw [isSpecial, hexpanded, Bool.false_or, Bool.eq_false_iff, ne_eq, List.contains_iff_mem]
  intro hmem
  have hnone : ['|', '&', ';', '<', '>', '(', ')', '\\', '\'', '\n', '*', '?', '[', '#', '~', '%'].all
      (!isOptionChar ·) = true := by decide
  rw [List.all_eq_true] at hnone
  simpa [h] using hnone c hmem

/-- A piece of an option name is read as it is. -/
theorem shellFrom_bare {piece : List Char} (h : piece.all isOptionChar = true) (word rest : List Char) :
    shellFrom .bare word (piece ++ rest) = shellFrom .bare (piece.reverse ++ word) rest := by
  induction piece generalizing word with
  | nil => rfl
  | cons c more ih =>
      rw [List.all_cons, Bool.and_eq_true] at h
      obtain ⟨hblank, hquote, hspecial⟩ := ordinary_of_isOptionChar h.1
      rw [List.cons_append, shellFrom, hblank, hquote, hspecial]
      simpa using ih h.2 (c :: word)

/-- A backslash is shown in front of exactly the characters that a backslash takes the meaning from. -/
theorem displayChar_eq (c : Char) :
    displayChar c = if c == '"' || c == '\\' || isExpanded c then ['\\', c] else [c] := by
  rw [displayChar, isExpanded, ← Bool.or_assoc]

/-- What is shown in double quotes is read as it is, whatever it is: a character with a meaning there has a
backslash of its own, and any other character is no backslash. -/
theorem shellFrom_quoted (piece word rest : List Char) :
    shellFrom .quoted word (piece.flatMap displayChar ++ '"' :: rest)
      = shellFrom .bare (piece.reverse ++ word) rest := by
  induction piece generalizing word with
  | nil => simp [shellFrom]
  | cons c more ih =>
      have hmore := ih (c :: word)
      rw [List.flatMap_cons, List.append_assoc, List.reverse_cons, List.append_assoc,
        List.singleton_append, ← hmore]
      rw [displayChar_eq]
      cases hmeans : c == '"' || c == '\\' || isExpanded c with
      | true =>
          show shellFrom .escaped word (c :: _) = _
          rw [shellFrom, hmeans]
          rfl
      | false =>
          simp only [Bool.or_eq_false_iff] at hmeans
          obtain ⟨⟨hquote, hescape⟩, hexpanded⟩ := hmeans
          show shellFrom .quoted word (c :: _) = _
          rw [shellFrom, hquote, hescape, hexpanded]
          rfl

/-- A bare name is taken for itself. -/
theorem shellFrom_name {name : String} (hne : name ≠ "") (h : name.toList.all isOptionChar = true)
    (rest : List Char) :
    shellFrom .between [] (name.toList ++ rest) = shellFrom .bare name.toList.reverse rest := by
  cases hname : name.toList with
  | nil => exact absurd (String.toList_eq_nil_iff.mp hname) hne
  | cons c more =>
      rw [hname, List.all_cons, Bool.and_eq_true] at h
      obtain ⟨hblank, hquote, hspecial⟩ := ordinary_of_isOptionChar h.1
      rw [List.cons_append, shellFrom, hblank, hquote, hspecial]
      simpa using shellFrom_bare h.2 [c] rest

/-- A word that is shown is taken for the word itself. -/
theorem shellFrom_display {word : String} (h : IsOptionName word) (rest : List Char) :
    shellFrom .between [] ((display word).toList ++ rest) = shellFrom .bare word.toList.reverse rest := by
  unfold display
  by_cases hdash : word.toList.head? = some '-'
  · have hne : word ≠ "" := by
      rintro rfl
      cases hdash
    rw [if_pos (by simpa using hdash), shellFrom_name hne (h hdash)]
  · rw [if_neg (by simpa using hdash), String.toList_ofList, List.cons_append, List.append_assoc]
    show shellFrom .quoted [] (_ ++ '"' :: rest) = _
    rw [shellFrom_quoted, List.append_nil]

/-- A shell reads a line of texts that it takes for words. -/
theorem shellWords?_spaced {words shown : List String}
    (h : List.Forall₂ (fun word text => ∀ rest,
      shellFrom .between [] (text.toList ++ rest) = shellFrom .bare word.toList.reverse rest) words shown) :
    shellWords? (" ".intercalate shown) = some words := by
  have hchars : shellFrom .between [] (" ".intercalate shown).toList = some (words.map String.toList) := by
    refine read_spaced (shellFrom .between []) (fun word => shellFrom .bare word.reverse) rfl
      (fun word => ?_) (fun word rest => ?_) h
    · rw [shellFrom, List.reverse_reverse]
    · rw [shellFrom, List.reverse_reverse]
      rfl
  unfold shellWords?
  rw [hchars]
  simp

end Shell

namespace Objects

/-! ### Commands -/

theorem commandProgram_ne_empty (found : Option String) (c : Command) : commandProgram found c ≠ "" := by
  unfold commandProgram
  cases hprogram : (c.executable.filter (!·.isEmpty)).or (found.filter (!·.isEmpty)) with
  | none => decide
  | some program =>
      have hkept : program.isEmpty = false := by
        rcases Option.or_eq_some_iff.mp hprogram with hown | ⟨-, hfound⟩
        · simpa using (Option.filter_eq_some_iff.mp hown).2
        · simpa using (Option.filter_eq_some_iff.mp hfound).2
      rintro rfl
      cases hkept

/-- The line that shows a command is read back as its arguments, and nothing in it is expanded: whatever
texts the arguments are, except that those that begin with a dash are made like option names.  In front of
them stands the program, and a program whose name is made of letters, digits and the like is read as well. -/
theorem shown_line_read_back {words : List String} (h : ∀ word ∈ words, Shell.IsOptionName word) :
    Shell.shellWords? (" ".intercalate (words.map Shell.display)) = some words ∧
    ∀ (o : Objects) (t : Texts) (mapsPerOutput : Bool) (found : Option String) (c : Command),
      o.commandArgs t mapsPerOutput c = .ok (words.map .text) →
      ∃ line, o.commandText t mapsPerOutput found c = .ok line ∧
        line = " ".intercalate (commandProgram found c :: words.map Shell.display) ∧
        ((∀ ch ∈ (commandProgram found c).toList, Shell.isOptionChar ch = true ∧ ch ≠ '=') →
          Shell.shellWords? line = some (commandProgram found c :: words)) := by
  have hshown : List.Forall₂ (fun word text => ∀ rest, Shell.shellFrom .between [] (text.toList ++ rest)
      = Shell.shellFrom .bare word.toList.reverse rest) words (words.map Shell.display) :=
    List.forall₂_map_right_iff.mpr
      (List.forall₂_same.mpr fun word hmem => Shell.shellFrom_display (h word hmem))
  refine ⟨Shell.shellWords?_spaced hshown, fun o t mapsPerOutput found c hargs => ?_⟩
  refine ⟨" ".intercalate (commandProgram found c :: words.map Shell.display), ?_, rfl, fun hname => ?_⟩
  · have hwords : (words.map Argument.text).mapM displayArg = .ok (words.map Shell.display) := by
      rw [List.mapM_map]
      exact mapM_ok_map fun _ _ => rfl
    rw [commandText, hargs]
    show (do return " ".intercalate (commandProgram found c :: (← (words.map Argument.text).mapM displayArg))) = _
    rw [hwords]
    rfl
  · have hprogram := Shell.shellFrom_name (commandProgram_ne_empty found c)
      (List.all_eq_true.mpr fun ch hch => (hname ch hch).1)
    exact Shell.shellWords?_spaced (.cons hprogram hshown)

/-- An option with a value in which everything has a meaning, an output without a name and one whose name
ends in backslashes. -/
def quotingObjects : Objects where
  outputs := [{ url := some (.text ""), options := [("metadata", .text "k=\\\\\"$HOME\" \x60id\x60\n")] },
    { url := some (.text "a b\\\\"), options := [] }]

/-- The texts of these objects. -/
def quotingTexts : Texts := Scene.texts ⟨quotingObjects, true, none⟩

/-- A flag and both outputs. -/
def quotingCommand : Command where
  options := [(.text "y", .null)]
  executable := none
  outputs := [⟨0⟩, ⟨1⟩]

/-- The arguments of this command. -/
def quotingWords : List String :=
  ["-y", "-metadata", "k=\\\\\"$HOME\" \x60id\x60\n", "", "a b\\\\"]

/-- The line for arguments in which everything has a meaning is read back, behind the program. -/
theorem shown_line_read_back_quoting :
    ∃ line, quotingObjects.commandText quotingTexts true none quotingCommand = .ok line ∧
      line = "ffmpeg -y -metadata \"k=\\\\\\\\\\\"\\$HOME\\\" \\\x60id\\\x60\n\" \"\" \"a b\\\\\\\\\"" ∧
      Shell.shellWords? line = some ("ffmpeg" :: quotingWords) := by
  have hnames : ∀ word ∈ quotingWords, Shell.IsOptionName word := by decide
  obtain ⟨line, hline, -, hread⟩ :=
    (shown_line_read_back hnames).2 quotingObjects quotingTexts true none quotingCommand rfl
  have hprogram : ∀ ch ∈ (commandProgram none quotingCommand).toList,
      Shell.isOptionChar ch = true ∧ ch ≠ '=' := List.forall_iff_forall_mem.mp (by decide)
  exact ⟨line, hline, Except.ok.inj (hline.symm.trans (by rfl)), hread hprogram⟩

end Objects

end MediaCommand
