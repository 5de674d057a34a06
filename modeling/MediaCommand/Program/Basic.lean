/-
The program that is run: finding it, asking for its version, and comparing that version.

A program is looked for at the path that is asked for, at the one in the settings, and by the
finders. Each finder is asked in turn until one answers: those that want to come first, the
newest of them first, and then the others, the newest first.  What the surroundings would answer
about files, folders and programs is given with the host.
-/
import MediaCommand.Log
import MediaCommand.Settings.Basic
import MediaCommand.Value.Path
import MediaCommand.Version.Report

namespace MediaCommand

/-- What the surroundings answer. -/
structure Host where
  /-- The paths that are folders. -/
  folders : List String := []
  /-- The names and paths that can be run. -/
  programs : List String := []
  /-- The folder that the environment names for the program. -/
  programFolder : Option String := none
  /-- What the program prints when asked for its version. -/
  versionOutput : String := ""
  /-- Whether no program can be started at all. -/
  missing : Bool := false

/-- How a finder looks. -/
inductive FinderRule
  /-- In the folder that the environment names. -/
  | environmentFolder
  /-- On the search path. -/
  | searchPath
  /-- Nowhere: it always gives the same answer. -/
  | fixed (answer : Option String)
  deriving DecidableEq, Repr

/-- A finder. -/
structure Finder where
  name : String
  rule : FinderRule
  /-- Whether it wants to be asked before the others. -/
  first : Bool
  deriving DecidableEq, Repr

/-- What is known of the version of a program. -/
inductive Build
  | release (version : Version)
  | nightly
  deriving DecidableEq, Repr

/-- The version as text. -/
def Build.text : Build → String
  | release version => version.text
  | nightly => "nightly"

/-- The program in use and its version. -/
structure Program where
  path : Option String := none
  build : Option Build := none
  deriving DecidableEq, Repr

/-- Whether the program at a path can be run. The empty path names none. -/
def Host.canRun (host : Host) (path : String) : Bool :=
  !path.isEmpty && host.programs.contains path

namespace Finder

/-- The finder of the folder that the environment names. -/
def environmentFolder : Finder :=
  ⟨"ffmpegcmd.plugins.finder_envvar", .environmentFolder, true⟩

/-- The finder of the search path. -/
def searchPath : Finder := ⟨"ffmpegcmd.plugins.finder_syspath", .searchPath, false⟩

/-- The finders that every session starts with. -/
def builtIn : List Finder := [environmentFolder, searchPath]

/-- The finders in the order in which they are asked, given the order in which they came. -/
def askingOrder (finders : List Finder) : List Finder :=
  (finders.filter (·.first)).reverse ++ (finders.filter (!·.first)).reverse

/-- What a finder answers, and what it tells. -/
def ask (host : Host) (f : Finder) : Option String × List LogLine :=
  match f.rule with
  | .environmentFolder =>
    match host.programFolder with
    | none => (none, [])
    | some folder =>
      let path := FilePath.inFolder folder "ffmpeg"
      (if !folder.isEmpty && host.canRun path then some path else none, [])
  | .searchPath =>
    if host.canRun "ffmpeg" then (some "ffmpeg", [])
    else (none, [⟨.warning, "FFmpeg binary not found in the system path."⟩])
  | .fixed answer => (answer, [])

/-- The first answer among finders, and what they tell up to it. -/
def askAll (host : Host) : List Finder → Option String × List LogLine
  | [] => (none, [])
  | f :: rest =>
    match f.ask host with
    | (some path, told) => (some path, told)
    | (none, told) =>
      let (answer, more) := askAll host rest
      (answer, told ++ more)

end Finder

namespace Program

/-- The program at a path that is asked for: in a folder, or the path itself. -/
def atPath (host : Host) (path : String) : Except Error String :=
  if host.folders.contains path then
    let file := FilePath.inFolder path "ffmpeg"
    if host.canRun file then .ok file else .error (.folderWithoutProgram path)
  else if host.canRun path then .ok path
  else .error (.noProgramAt path)

/-- The program found, and what is told on the way. -/
def locate (host : Host) (settings : Settings) (finders : List Finder) (path : Option String) :
    Except Error String × List LogLine :=
  match path.orElse fun _ => settings.program with
  | some path => (atPath host path, [])
  | none =>
    match Finder.askAll host (Finder.askingOrder finders) with
    | (some answer, told) => (.ok answer, told)
    | (none, told) => (.error .detectionFailed, told)

/-- The version that a text writes. -/
def versionIn (s : String) : Except Error Version :=
  match Version.parse? s with
  | some version => if Version.isTooLong s then .error (.fault .wrongValue) else .ok version
  | none => .error (.fault .notAVersion)

/-- The version of the build that a report names: the number in front of its version, or a nightly
build if there is none. -/
def buildOf (report : VersionReport) : Except Error Build :=
  let number := VersionReport.leadingNumber report.version
  if number.isEmpty then .ok .nightly else (versionIn (String.ofList number)).map .release

/-- The program in use, or the failure that there is none. -/
def inUse (p : Program) : Except Error String :=
  match p.path.filter (!·.isEmpty) with
  | some path => .ok path
  | none => .error .programNotFound

/-- Whether a program is in use. -/
def isFound (p : Program) : Bool :=
  (p.path.filter (!·.isEmpty)).isSome

/-- The program to start, given the one asked for. -/
def toStart (p : Program) (asked : Option String) : Except Error String :=
  match (asked.filter (!·.isEmpty)).or p.path with
  | some path => .ok path
  | none => .error .programNotFound

/-- The condition that a sign gives; a sign that says nothing is "at least". -/
def conditionOf (sign : Value) : Except Error Version.Condition :=
  if !sign.isHashable then .error (.fault .wrongType)
  else
    match sign with
    | .text s => match Version.Condition.ofSign? s with
      | some c => .ok c
      | none => .error (.fault .noSuchKey)
    | _ => .error (.fault .noSuchKey)

/-- The version that a value writes. Only a text writes one. -/
def versionOf (version : Value) : Except Error Version :=
  match version with
  | .text s => versionIn s
  | .bytes [] => .error (.fault .wrongType)
  | _ => .error (.fault .notAVersion)

/-- The build that a value names; null is a program whose version is not known. -/
def buildNamed (v : Value) : Except Error (Option Build) :=
  match v with
  | .null => .ok none
  | .text "nightly" => .ok (some .nightly)
  | _ => (versionOf v).map fun version => some (.release version)

/-- Whether the version in use meets a condition on a version. A sign that does not count as true is
taken for none. -/
def checkVersion (p : Program) (version : Value) (sign : Option Value) : Except Error Bool :=
  match p.build with
  | none => .error .programNotFound
  | some .nightly => .error (.unversionedBuild Build.nightly.text)
  | some (.release v) => do
    let condition ← match sign with
      | some sign => conditionOf sign
      | none => .ok .ge
    return v.meets condition (← versionOf version)

end Program

end MediaCommand
