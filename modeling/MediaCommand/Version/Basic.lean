/-
Version numbers and their order.

A version has a release, a list of numbers, and around it an epoch in front and pre-release,
post-release, development and local parts behind.  Spellings vary: letters of any case, three
separators, several words for one part, and parts without a number count as number zero.

Versions are ordered by epoch, then by release without the zeros at its end.  Then a development
version comes before the pre-releases of its release, these before the release itself, and
post-releases after it.  A local part counts last; numbers in it come after words.
-/
import MediaCommand.Text.Blank
import MediaCommand.Text.Digit
import MediaCommand.Text.Lines

namespace MediaCommand

/-- The stages before a release. -/
inductive Stage
  | alpha
  | beta
  | candidate
  deriving DecidableEq, Repr

/-- One part of the local part of a version. -/
inductive LocalPart
  | number (n : Nat)
  | word (s : String)
  deriving DecidableEq, Repr

/-- A version. -/
structure Version where
  epoch : Nat := 0
  release : List Nat
  pre : Option (Stage × Nat) := none
  post : Option Nat := none
  dev : Option Nat := none
  localParts : List LocalPart := []
  deriving DecidableEq, Repr

namespace Version

/-! ### Text -/

/-- The letters of a stage. -/
def stageLetters : Stage → String
  | .alpha => "a"
  | .beta => "b"
  | .candidate => "rc"

/-- A part of the local part as text. -/
def localText : LocalPart → String
  | .number n => toString n
  | .word s => s

/-- The text of a part that may be missing. -/
def partText (lead : String) : Option Nat → String
  | some n => lead ++ toString n
  | none => ""

/-- A version in its one normal spelling. -/
def text (v : Version) : String :=
  (if v.epoch == 0 then "" else toString v.epoch ++ "!") ++
    ".".intercalate (v.release.map toString) ++
    (match v.pre with
      | some (stage, n) => stageLetters stage ++ toString n
      | none => "") ++
    partText ".post" v.post ++ partText ".dev" v.dev ++
    (if v.localParts.isEmpty then "" else "+" ++ ".".intercalate (v.localParts.map localText))

/-! ### Order -/

/-- The order of lists by their first difference, with one order for the items. -/
def compareLists {α : Type} (cmp : α → α → Ordering) : List α → List α → Ordering
  | [], [] => .eq
  | [], _ :: _ => .lt
  | _ :: _, [] => .gt
  | x :: xs, y :: ys => (cmp x y).then (compareLists cmp xs ys)

/-- The release without the zeros at its end. -/
def significant (release : List Nat) : List Nat := (release.reverse.dropWhile (· == 0)).reverse

/-- The rank of a stage among all that can stand there. -/
def stageRank : Stage → Nat
  | .alpha => 1
  | .beta => 2
  | .candidate => 3

/-- The place of a version before its release: a mere development version first, then the
stages, then the release. -/
def preKey (v : Version) : List Nat :=
  match v.pre with
  | some (stage, n) => [stageRank stage, n]
  | none => if v.post.isNone && v.dev.isSome then [0, 0] else [4, 0]

/-- The place of a version after its release. -/
def postKey (v : Version) : List Nat :=
  match v.post with
  | some n => [1, n]
  | none => [0, 0]

/-- The place of a development version before what it leads to. -/
def devKey (v : Version) : List Nat :=
  match v.dev with
  | some n => [0, n]
  | none => [1, 0]

/-- The order of parts of the local part. -/
def compareLocal : LocalPart → LocalPart → Ordering
  | .number m, .number n => compare m n
  | .number _, .word _ => .gt
  | .word _, .number _ => .lt
  | .word s, .word t => compareLists (fun c d => compare c.toNat d.toNat) s.toList t.toList

/-- The order of versions. -/
def cmp (v w : Version) : Ordering :=
  (compare v.epoch w.epoch).then <|
  (compareLists compare (significant v.release) (significant w.release)).then <|
  (compareLists compare (preKey v) (preKey w)).then <|
  (compareLists compare (postKey v) (postKey w)).then <|
  (compareLists compare (devKey v) (devKey w)).then <|
  compareLists compareLocal v.localParts w.localParts

/-- A condition on two versions. -/
inductive Condition
  | eq
  | ne
  | lt
  | le
  | gt
  | ge
  deriving DecidableEq, Repr

/-- The condition with a sign. -/
def Condition.ofSign? (sign : String) : Option Condition :=
  [("==", eq), ("!=", ne), ("<", lt), ("<=", le), (">", gt), (">=", ge)].lookup sign

/-- Whether two versions meet a condition. -/
def meets (v : Version) (condition : Condition) (w : Version) : Bool :=
  match condition with
  | .eq => v.cmp w == .eq
  | .ne => v.cmp w != .eq
  | .lt => v.cmp w == .lt
  | .le => v.cmp w != .gt
  | .gt => v.cmp w == .gt
  | .ge => v.cmp w != .lt

/-! ### Reading -/

/-- The value of plain digits. -/
def digitsValue (ds : List Char) : Nat := ds.foldl (fun n d => n * 10 + (d.toNat - '0'.toNat)) 0

/-- A non-empty run of plain digits and the rest. -/
def number? (cs : List Char) : Option (Nat × List Char) :=
  let ds := cs.takeWhile Char.isDigit
  if ds.isEmpty then none else some (digitsValue ds, cs.dropWhile Char.isDigit)

/-- The characters after a word, if they begin with it. -/
def afterWord? (word cs : List Char) : Option (List Char) :=
  if word.isPrefixOf cs then some (cs.drop word.length) else none

/-- Whether the character may stand between two parts. -/
def isSeparator (c : Char) : Bool := c == '-' || c == '_' || c == '.'

/-- The characters after a separator, if they begin with one. -/
def dropSeparator (cs : List Char) : List Char :=
  match cs with
  | c :: rest => if isSeparator c then rest else cs
  | [] => []

/-- The first of the words that the characters begin with, its meaning, and the rest. -/
def word? {α : Type} (words : List (String × α)) (cs : List Char) : Option (α × List Char) :=
  words.findSome? fun (word, meaning) => (afterWord? word.toList cs).map (meaning, ·)

/-- A part: an optional separator, one of the words, an optional separator, an optional number. -/
def part? {α : Type} (words : List (String × α)) (cs : List Char) :
    Option ((α × Nat) × List Char) :=
  ((word? words cs).orElse fun _ => word? words (dropSeparator cs)).map fun (meaning, rest) =>
    let rest := dropSeparator rest
    match number? rest with
    | some (n, rest) => ((meaning, n), rest)
    | none => ((meaning, 0), rest)

/-- The words for stages, longer ones before their beginnings. -/
def stageWords : List (String × Stage) :=
  [("alpha", .alpha), ("a", .alpha), ("beta", .beta), ("b", .beta), ("preview", .candidate),
    ("pre", .candidate), ("c", .candidate), ("rc", .candidate)]

/-- The words for post-releases, longer ones before their beginnings. -/
def postWords : List (String × Unit) := [("post", ()), ("rev", ()), ("r", ())]

/-- The word for development versions. -/
def devWords : List (String × Unit) := [("dev", ())]

/-- A part if there is one. -/
def optionalPart {α : Type} (words : List (String × α)) (cs : List Char) :
    Option (α × Nat) × List Char :=
  match part? words cs with
  | some (part, rest) => (some part, rest)
  | none => (none, cs)

/-- A post-release if there is one: a number after a dash, or a part. -/
def optionalPost (cs : List Char) : Option Nat × List Char :=
  let short := match cs with
    | '-' :: rest => number? rest
    | _ => none
  match short with
  | some (n, rest) => (some n, rest)
  | none =>
    let (part, rest) := optionalPart postWords cs
    (part.map (·.2), rest)

/-- The numbers of a release after its first one. The fuel bounds the count of numbers. -/
def releaseTail : Nat → List Char → List Nat × List Char
  | fuel + 1, '.' :: cs =>
    match number? cs with
    | some (n, rest) =>
      let (ns, rest) := releaseTail fuel rest
      (n :: ns, rest)
    | none => ([], '.' :: cs)
  | _, cs => ([], cs)

/-- An epoch if there is one. -/
def optionalEpoch (cs : List Char) : Nat × List Char :=
  match number? cs with
  | some (n, '!' :: rest) => (n, rest)
  | _ => (0, cs)

/-- The pieces between separators. -/
def pieces : List Char → List (List Char)
  | [] => [[]]
  | c :: rest =>
    if isSeparator c then [] :: pieces rest
    else
      match pieces rest with
      | piece :: more => (c :: piece) :: more
      | [] => [[c]]

/-- One part of the local part. -/
def localPart? (cs : List Char) : Option LocalPart :=
  if cs.isEmpty || !cs.all Char.isAlphanum then none
  else if cs.all Char.isDigit then some (.number (digitsValue cs))
  else some (.word (String.ofList cs))

/-- The local part, up to the end. -/
def localParts? (cs : List Char) : Option (List LocalPart) :=
  match cs with
  | [] => some []
  | '+' :: rest => (pieces rest).mapM localPart?
  | _ => none

/-- The version that a text writes. -/
def parse? (s : String) : Option Version :=
  let cs := (Text.trimChars s.toList).map Char.toLower
  let cs := (afterWord? ['v'] cs).getD cs
  let (epoch, cs) := optionalEpoch cs
  (number? cs).bind fun (first, cs) =>
    let (more, cs) := releaseTail cs.length cs
    let (pre, cs) := optionalPart stageWords cs
    let (post, cs) := optionalPost cs
    let (dev, cs) := optionalPart devWords cs
    (localParts? cs).map fun localParts =>
      { epoch, release := first :: more, pre, post, dev := dev.map (·.2), localParts }

/-! ### Numerals too long to be read -/

/-- The runs of digits that count as numbers: all of them in front of the local part, and the pieces
of the local part that are digits only. -/
def numerals (cs : List Char) : List (List Char) :=
  let body := cs.takeWhile (· != '+')
  let localPart := (cs.dropWhile (· != '+')).tail
  Text.splitOnClass (!·.isDigit) body ++ (pieces localPart).filter (·.all Char.isDigit)

/-- Whether a version holds a number with more digits than are read. -/
def isTooLong (s : String) : Bool :=
  (numerals (Text.trimChars s.toList)).any (Text.maxIntegerDigits < ·.length)

end Version

end MediaCommand
