/-
What the program tells about itself: its version, how it was configured, and the libraries in
it.

The version is the word after the opening phrase of the first line.  Then come a line about how
the program was built, which is skipped, and a line with the options of the configuration; each
may be missing.  Every further line that names a library gives the version in front of the
slash, with the padding taken out of it.

The lines may be given as values of any kind; those that are looked at have to be texts.
-/
import MediaCommand.Error
import MediaCommand.Text.Blank
import MediaCommand.Text.Digit
import MediaCommand.Text.Lines
import MediaCommand.Value.Numbered
import MediaCommand.Version.Basic

namespace MediaCommand

/-- What the program tells about itself. -/
structure VersionReport where
  version : String
  configuration : Option (List String)
  libraries : List (String × String)
  deriving DecidableEq, Repr

namespace VersionReport

/-- The phrase that opens a report. -/
def opening : List Char := "ffmpeg version ".toList

/-- The phrase that opens the line to be skipped. -/
def builtWith : List Char := "built with".toList

/-- The phrase that opens the line with the configuration. -/
def configurationMark : List Char := "configuration:".toList

/-- Whether a line begins with a phrase. -/
def beginsWith (phrase : List Char) (line : String) : Bool := phrase.isPrefixOf line.toList

/-- The version that the first line gives. -/
def versionWord? (line : String) : Option String :=
  let word := (line.toList.drop opening.length).takeWhile (!Text.isBlank ·)
  if beginsWith opening line && !word.isEmpty then some (String.ofList word) else none

/-- The options in the line with the configuration: the words after a blank that begin with two
dashes and go on. -/
def options (line : String) : List String :=
  (Text.splitOnClass Text.isBlank line.toList).tail.filterMap fun word =>
    match word with
    | '-' :: '-' :: c :: rest => some (String.ofList (c :: rest))
    | _ => none

/-- Whether one text comes before another, by code points. -/
def textLe (s t : String) : Bool :=
  Version.compareLists (fun (c d : Char) => compare c.toNat d.toNat) s.toList t.toList != .gt

/-- The options of a configuration in order. -/
def sortedOptions (line : String) : List String := (options line).mergeSort textLe

/-- A non-empty piece of one line up to the first blank before a slash, given its beginning
backwards. -/
def upToSlash (taken : List Char) : List Char → Option (List Char)
  | [] => none
  | c :: rest =>
    if c == '\n' then none
    else
      match rest with
      | ' ' :: '/' :: _ => some (c :: taken).reverse
      | _ => upToSlash (c :: taken) rest

/-- The number of a library after at most `n` blanks, as many as possible. -/
def afterBlanks (tail : List Char) : Nat → Option (List Char)
  | 0 => none
  | n + 1 => (upToSlash [] (tail.drop (n + 1))).orElse fun _ => afterBlanks tail n

/-- The library that a line names, and its version without padding. -/
def library? (line : String) : Option (String × String) :=
  let cs := line.toList
  let name := cs.takeWhile (!Text.isBlank ·)
  let tail := cs.dropWhile (!Text.isBlank ·)
  if name.isEmpty then none
  else
    (afterBlanks tail (tail.takeWhile Text.isBlank).length).map fun number =>
      (String.ofList name, String.ofList (number.filter (· != ' ')))

/-- The libraries that lines name; the last line of a name wins. -/
def librariesOf (lines : List String) : List (String × String) :=
  Dict.ofList (lines.filterMap library?)

/-- The line under a number if there is one and it begins with a phrase. -/
def lineWith? (phrase : List Char) (lines : Numbered) (number : Nat) :
    Except Error (Option String) :=
  if number < lines.size then do
    let line ← (← lines.item number).asked
    return if beginsWith phrase line then some line else none
  else .ok none

/-- Reads the lines of a report. -/
def parse (lines : Numbered) : Except Error VersionReport := do
  let first ← (← lines.item 0).asText
  match versionWord? first with
  | none => throw (.unexpectedReport first)
  | some version =>
    let next := if (← lineWith? builtWith lines 1).isSome then 2 else 1
    let configured ← lineWith? configurationMark lines next
    let further := if configured.isSome then next + 1 else next
    let rest ← (← lines.drop further).mapM Value.asText
    return ⟨version, configured.map sortedOptions, librariesOf rest⟩

/-- The number that a version word begins with: digits of any script, and after a point digits
again. -/
def leadingNumber (word : String) : List Char :=
  let isDigit := fun c => (Text.decimalDigit? c).isSome
  let cs := word.toList
  let whole := cs.takeWhile isDigit
  let fraction := match cs.dropWhile isDigit with
    | '.' :: rest => rest.takeWhile isDigit
    | _ => []
  if whole.isEmpty then [] else if fraction.isEmpty then whole else whole ++ '.' :: fraction

/-! ### As a value -/

/-- The entry of the configuration; none if the report does not give it. -/
def configurationEntry (r : VersionReport) : List (Value × Value) :=
  match r.configuration with
  | some options => [(.text "configuration", .list (options.map .text))]
  | none => []

/-- The entry of the libraries; none if there are no libraries. -/
def librariesEntry (r : VersionReport) : List (Value × Value) :=
  if r.libraries.isEmpty then []
  else [(.text "library_versions", .dict (r.libraries.map fun e => (.text e.1, .text e.2)))]

/-- The report as a value. -/
def toValue (r : VersionReport) : Value :=
  .dict ((.text "version", .text r.version) :: r.configurationEntry ++ r.librariesEntry)

end VersionReport

end MediaCommand
