/-
Cutting a text into lines.

Three habits meet here.  A log is cut at runs of line feeds and carriage returns, so that an
empty line never counts.  A report that a program prints is cut at every kind of line boundary,
and a boundary at the very end opens no further line.  A file read as text first has its line
ends made uniform.
-/

namespace MediaCommand.Text

/-- A list cut at every element of the class; the pieces between neighbouring cuts are empty. -/
def splitOnClass (cut : Char → Bool) : List Char → List (List Char)
  | [] => [[]]
  | c :: rest =>
    if cut c then [] :: splitOnClass cut rest
    else
      match splitOnClass cut rest with
      | piece :: pieces => (c :: piece) :: pieces
      | [] => [[c]]

/-- Cutting at one character is cutting at every place where it stands. -/
theorem splitOnClass_eq (d : Char) (cs : List Char) :
    splitOnClass (· == d) cs = cs.splitOn d := by
  show _ = List.splitOnP (· == d) cs
  induction cs with
  | nil => rfl
  | cons c rest ih =>
      rw [splitOnClass, ih, List.splitOnP_cons_eq_if_modifyHead]
      split
      · rfl
      · cases hpieces : List.splitOnP (· == d) rest with
        | nil => exact absurd hpieces (List.splitOnP_ne_nil _ _)
        | cons piece pieces => rfl

/-- Line feed and carriage return. -/
def isLineEnd (c : Char) : Bool := c == '\n' || c == '\r'

/-- A text cut at every run of line ends. A run at either end leaves an empty piece there. -/
def splitAtLineEnds : List Char → List (List Char)
  | [] => [[]]
  | c :: rest =>
    if isLineEnd c then
      match rest with
      | d :: _ => if isLineEnd d then splitAtLineEnds rest else [] :: splitAtLineEnds rest
      | [] => [[], []]
    else
      match splitAtLineEnds rest with
      | piece :: pieces => (c :: piece) :: pieces
      | [] => [[c]]

/-- The characters that bound a line in a printed report. -/
def isLineBoundary (c : Char) : Bool :=
  [0xA, 0xB, 0xC, 0xD, 0x1C, 0x1D, 0x1E, 0x85, 0x2028, 0x2029].contains c.toNat

/-- The lines of a printed report, given the line read so far backwards. -/
def linesFrom (line : List Char) : List Char → List (List Char)
  | [] => if line.isEmpty then [] else [line.reverse]
  | '\r' :: '\n' :: rest => line.reverse :: linesFrom [] rest
  | c :: rest =>
    if isLineBoundary c then line.reverse :: linesFrom [] rest else linesFrom (c :: line) rest

/-- The lines of a printed report. -/
def lines (s : String) : List String := (linesFrom [] s.toList).map String.ofList

/-- Every line end written as one line feed. -/
def uniformLineEnds : List Char → List Char
  | [] => []
  | '\r' :: '\n' :: rest => '\n' :: uniformLineEnds rest
  | '\r' :: rest => '\n' :: uniformLineEnds rest
  | c :: rest => c :: uniformLineEnds rest

end MediaCommand.Text
