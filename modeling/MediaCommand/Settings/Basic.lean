/-
The settings: where the program is, which flags the launcher adds, and where maps stand in a
command.

There are exactly four settings, so they are a structure and no dictionary: a key that is none
of them cannot be set and no key can be removed.  Every value is checked when it is assigned.
Truth values may be given as words or numbers, and the path as a text or a path, or as the word
for none.
-/
import MediaCommand.Error
import MediaCommand.Text.Case

namespace MediaCommand

/-- The settings. -/
structure Settings where
  /-- The program to run, if one is set. -/
  program : Option String := none
  /-- Whether the launcher silences the banner. -/
  hideBanner : Bool := true
  /-- Whether the launcher closes the standard input of the program. -/
  noStdin : Bool := true
  /-- Whether the maps of an output stand before it and not before all outputs. -/
  mapsPerOutput : Bool := false
  deriving DecidableEq, Repr

namespace Settings

/-- The name of a setting. -/
inductive Key
  | mapsPerOutput
  | hideBanner
  | noStdin
  | program
  deriving DecidableEq, Repr

/-- The settings in the order of their names. -/
def keys : List Key := [.mapsPerOutput, .hideBanner, .noStdin, .program]

/-- The name of a setting as callers write it. -/
def Key.name : Key → String
  | .mapsPerOutput => "command.per_output_maps"
  | .hideBanner => "ffmpeg.hide_banner"
  | .noStdin => "ffmpeg.nostdin"
  | .program => "path.ffmpeg"

/-- The value of a setting. -/
def get (s : Settings) : Key → Value
  | .mapsPerOutput => .bool s.mapsPerOutput
  | .hideBanner => .bool s.hideBanner
  | .noStdin => .bool s.noStdin
  | .program => match s.program with
    | some p => .text p
    | none => .null

/-! ### Checking values -/

/-- The words for true. -/
def trueWords : List String := ["t", "y", "yes", "on", "true", "1"]

/-- The words for false. -/
def falseWords : List String := ["f", "n", "no", "off", "false", "0"]

/-- The truth value that a value gives: a word in letters of any case, or a number equal to one or
zero. -/
def toBool (v : Value) : Except Refusal Bool :=
  match v with
  | .text s =>
    let word := Text.lower s
    if trueWords.contains word then .ok true
    else if falseWords.contains word then .ok false
    else .error (.notBool (.text word))
  | _ =>
    match v.number? with
    | some n =>
      if n.equals (.whole 1) then .ok true
      else if n.equals (.whole 0) then .ok false
      else .error (.notBool v)
    | none => .error (.notBool v)

/-- The path that a value gives; nothing and the word for it give none. -/
def toPath (v : Value) : Except Refusal (Option String) :=
  match v.bare with
  | .null => .ok none
  | .text s => .ok (if Text.lower s == "none" then none else some s)
  | .path p => .ok (some p)
  | _ => .error (.notPath v)

/-- Sets a setting to a value that passes its check. -/
def set (s : Settings) (key : Key) (v : Value) : Except Refusal Settings :=
  match key with
  | .mapsPerOutput => do return { s with mapsPerOutput := ← toBool v }
  | .hideBanner => do return { s with hideBanner := ← toBool v }
  | .noStdin => do return { s with noStdin := ← toBool v }
  | .program => do return { s with program := ← toPath v }

/-! ### Assigning by name -/

/-- The setting that a value names. -/
def keyOf? (v : Value) : Option Key :=
  match v with
  | .text s => keys.find? (·.name == s)
  | _ => none

/-- Sets the setting that a value names. -/
def assign (s : Settings) (key v : Value) : Except Error Settings :=
  match keyOf? key with
  | some k =>
    match s.set k v with
    | .ok s => .ok s
    | .error why => .error (.settingRefused k.name why)
  | none => if key.isHashable then .error (.unknownSetting key) else .error (.fault .wrongType)

/-- The value of the setting that a value names. -/
def lookUp (s : Settings) (key : Value) : Except Error Value :=
  match keyOf? key with
  | some k => .ok (s.get k)
  | none => .error (.fault (if key.isHashable then .noSuchKey else .wrongType))

/-- Sets settings one after the other, up to the first that is refused. -/
def assignAll (s : Settings) : List (Value × Value) → Settings × Except Error Unit
  | [] => (s, .ok ())
  | (key, v) :: rest =>
    match s.assign key v with
    | .ok s => s.assignAll rest
    | .error e => (s, .error e)

/-- The two items of a pair. -/
def pairOf (items : Except Error (List Value)) : Except Error (Value × Value) :=
  match items with
  | .ok [key, v] => .ok (key, v)
  | .ok _ => .error (.fault .wrongValue)
  | .error e => .error e

/-- Sets settings given as pairs one after the other, up to the first that is no pair or is
refused. -/
def assignPairs (s : Settings) : List (Except Error (List Value)) → Settings × Except Error Unit
  | [] => (s, .ok ())
  | items :: rest =>
    match (do let (key, v) ← pairOf items; s.assign key v) with
    | .ok s => s.assignPairs rest
    | .error e => (s, .error e)

/-! ### Looking settings up by a pattern

Of regular expressions only a fragment is read: literal characters, a dot, a caret, a dollar sign, and a
backslash in front of punctuation.  Classes, repetitions, groups and alternatives are left out; the signs
for them stand for themselves here.
-/

/-- One step of a pattern. -/
inductive Step
  | literal (c : Char)
  | any
  | start
  | finish
  deriving DecidableEq, Repr

/-- The steps of a pattern of the fragment: a dot stands for any character, a caret for the start, a
dollar sign for the end, and a backslash takes the meaning from the next character. -/
def steps : List Char → List Step
  | [] => []
  | '\\' :: c :: rest => .literal c :: steps rest
  | '.' :: rest => .any :: steps rest
  | '^' :: rest => .start :: steps rest
  | '$' :: rest => .finish :: steps rest
  | c :: rest => .literal c :: steps rest

/-- Whether the steps lead through a beginning of the characters. -/
def matchesAt (atStart : Bool) : List Step → List Char → Bool
  | [], _ => true
  | .start :: rest, cs => atStart && matchesAt atStart rest cs
  | .finish :: rest, cs => cs.isEmpty && matchesAt atStart rest cs
  | .any :: rest, c :: cs => c != '\n' && matchesAt false rest cs
  | .literal d :: rest, c :: cs => c == d && matchesAt false rest cs
  | _ :: _, [] => false

/-- Whether the steps lead through some part of the characters. -/
def matchesFrom (atStart : Bool) (pattern : List Step) : List Char → Bool
  | [] => matchesAt atStart pattern []
  | c :: cs => matchesAt atStart pattern (c :: cs) || matchesFrom false pattern cs

/-- Whether a pattern of the fragment occurs in a name. -/
def occursIn (pattern name : String) : Bool :=
  matchesFrom true (steps pattern.toList) name.toList

/-- The settings whose names have the pattern, one of the fragment, each with its value checked again. -/
def findAll (s : Settings) (pattern : String) : Except Error (List (Key × Value)) :=
  (keys.filter fun k => occursIn pattern k.name).mapM fun k =>
    match s.set k (s.get k) with
    | .ok checked => .ok (k, checked.get k)
    | .error why => .error (.settingRefused k.name why)

end Settings

end MediaCommand
