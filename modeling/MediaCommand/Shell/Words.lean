/-
Splitting a command line into words, and writing words so that they split back.

A word may be bare, in single quotes or in double quotes, and pieces of the three kinds stand
side by side.  Single quotes keep everything; double quotes keep everything but a backslash
before a backslash or a double quote; a bare backslash keeps the next character.  A quotation
that is left open, or a backslash at the end, makes the line unreadable.

The writer leaves a word bare when each of its characters is one that no shell gives a meaning
to, and puts it in single quotes otherwise.
-/

namespace MediaCommand.Shell

/-- Where the reader of a command line stands. -/
inductive Mode
  /-- Between two words. -/
  | between
  /-- Inside a bare piece of a word. -/
  | bare
  /-- Inside single quotes. -/
  | single
  /-- Inside double quotes. -/
  | double
  /-- After a bare backslash. -/
  | bareEscape
  /-- After a backslash in double quotes. -/
  | doubleEscape
  deriving DecidableEq, Repr

/-- The blanks between words. -/
def isSeparator (c : Char) : Bool := c == ' ' || c == '\t' || c == '\r' || c == '\n'

/-- The words of the rest of a line, given the current word backwards; fails on an unfinished
one. -/
def splitFrom : Mode → List Char → List Char → Option (List (List Char))
  | .between, _, [] => some []
  | .bare, word, [] => some [word.reverse]
  | .single, _, [] => none
  | .double, _, [] => none
  | .bareEscape, _, [] => none
  | .doubleEscape, _, [] => none
  | .between, word, c :: rest =>
    if isSeparator c then splitFrom .between word rest
    else if c == '\\' then splitFrom .bareEscape [] rest
    else if c == '\'' then splitFrom .single [] rest
    else if c == '"' then splitFrom .double [] rest
    else splitFrom .bare [c] rest
  | .bare, word, c :: rest =>
    if isSeparator c then (splitFrom .between [] rest).map (word.reverse :: ·)
    else if c == '\\' then splitFrom .bareEscape word rest
    else if c == '\'' then splitFrom .single word rest
    else if c == '"' then splitFrom .double word rest
    else splitFrom .bare (c :: word) rest
  | .single, word, c :: rest =>
    if c == '\'' then splitFrom .bare word rest else splitFrom .single (c :: word) rest
  | .double, word, c :: rest =>
    if c == '"' then splitFrom .bare word rest
    else if c == '\\' then splitFrom .doubleEscape word rest
    else splitFrom .double (c :: word) rest
  | .bareEscape, word, c :: rest => splitFrom .bare (c :: word) rest
  | .doubleEscape, word, c :: rest =>
    if c == '"' || c == '\\' then splitFrom .double (c :: word) rest
    else splitFrom .double (c :: '\\' :: word) rest

/-- The words of a command line, or nothing if a quotation is left open. -/
def split? (line : String) : Option (List String) :=
  (splitFrom .between [] line.toList).map (·.map String.ofList)

/-- The characters that no shell gives a meaning to. -/
def isPlain (c : Char) : Bool :=
  c.isAlphanum || ['_', '@', '%', '+', '=', ':', ',', '.', '/', '-'].contains c

/-- One character inside single quotes; a single quote leaves the quotation for a moment. -/
def singleQuotedChar (c : Char) : List Char :=
  if c == '\'' then ['\'', '"', '\'', '"', '\''] else [c]

/-- A word written so that it reads back as itself. -/
def quoteChars (word : List Char) : List Char :=
  if word.isEmpty then ['\'', '\'']
  else if word.all isPlain then word
  else '\'' :: (word.flatMap singleQuotedChar ++ ['\''])

/-- A word written so that it reads back as itself. -/
def quote (word : String) : String := String.ofList (quoteChars word.toList)

/-- A command line that splits into the given words. -/
def join (words : List String) : String := " ".intercalate (words.map quote)

/-! ### Words for display

A line meant for the eye keeps option names bare and puts everything else in double quotes. -/

/-- One character inside double quotes for display. -/
def displayChar (c : Char) : List Char :=
  if c == '"' || c == '\\' || c == '$' || c.toNat == 0x60 then ['\\', c] else [c]

/-- A word for display: an option name as it is, anything else in double quotes. -/
def display (word : String) : String :=
  if word.toList.head? == some '-' then word
  else String.ofList ('"' :: (word.toList.flatMap displayChar ++ ['"']))

end MediaCommand.Shell
