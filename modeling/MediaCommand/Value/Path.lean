/-
File paths in their plain form: no empty and no single-dot parts, one slash between parts, none
at the end.

A path that begins with exactly two slashes keeps both, any other number of leading slashes
counts as one, and the path of no parts is the single dot.
-/
import MediaCommand.Text.Lines

namespace MediaCommand.FilePath

/-- The leading slashes that a path keeps. -/
def root (cs : List Char) : List Char :=
  match (cs.takeWhile (· == '/')).length with
  | 0 => []
  | 2 => ['/', '/']
  | _ => ['/']

/-- The parts of a path that count. -/
def parts (cs : List Char) : List (List Char) :=
  (Text.splitOnClass (· == '/') cs).filter fun part => !part.isEmpty && part != ['.']

/-- The plain form of a path. -/
def normalize (p : String) : String :=
  let cs := p.toList
  let plain := root cs ++ List.intercalate ['/'] (parts cs)
  if plain.isEmpty then "." else String.ofList plain

/-- The path of a file in a folder. -/
def inFolder (folder file : String) : String :=
  if folder.isEmpty then file
  else if folder.toList.getLast? == some '/' then folder ++ file
  else folder ++ "/" ++ file

end MediaCommand.FilePath
