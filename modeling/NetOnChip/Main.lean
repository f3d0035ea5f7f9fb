import NetOnChip.Anneal.Run
import NetOnChip.Event.Text
import NetOnChip.Report
import NetOnChip.Settings.Decode

/-!
# The command line

`[-c FILE] [route | place]` reads settings from a file, `config.toml` where none is named, and
either routes the traffic once or improves the placement as well, which is the default. Without the
file the settings keep their defaults. Events go to the standard error output, one line each,
debugging events apart, and the settings may name a file for the report.

The program ends with code 0, with 1 after an error, with 2 if its arguments make no sense, and with
101 after a fault.
-/

namespace NetOnChip

/-- What a run is to do. -/
inductive Command where
  /-- Route the traffic once. -/
  | route
  /-- Improve the placement. -/
  | place
  deriving DecidableEq, Repr

/-- The arguments of the program. -/
structure Arguments where
  /-- The file with the settings. -/
  file : String
  /-- What to do, if that is said. -/
  command : Option Command
  deriving DecidableEq, Repr

namespace Arguments

/-- The arguments when none are given. -/
def default : Arguments :=
  ⟨"config.toml", none⟩

/-- Reads arguments from the first to the last. Nothing may follow the command. -/
def read? : List String → Arguments → Option Arguments
  | [], a => some a
  | ["route"], a => some { a with command := some .route }
  | ["place"], a => some { a with command := some .place }
  | "-c" :: file :: rest, a | "--config" :: file :: rest, a => read? rest { a with file }
  | _, _ => none

end Arguments

/-- Whether a path leads to a file or directory. -/
def pathExists (path : String) : IO Bool := do
  try
    let _ ← IO.FS.realPath path
    return true
  catch _ =>
    return false

/-- The directory that a path names, empty where it names none. -/
def directoryOf (path : String) : String :=
  "/".intercalate (path.splitOn "/").dropLast

/-- Where the report is written. -/
def ReportSite.of (path : String) : IO ReportSite := do
  let directory := directoryOf path
  if directory.isEmpty then
    return ⟨path, none⟩
  else if ← pathExists directory then
    return ⟨path, none⟩
  else
    return ⟨path, some directory⟩

/-- Writes a line of the log. -/
def log (level : Level) (text : String) : IO Unit :=
  IO.eprintln (level.word ++ " " ++ text)

/-- The settings in a file, unless they cannot be read. -/
def loadSettings (file : String) : IO (Option (Settings Float)) := do
  if ← pathExists file then
    log .info ("Loading configuration from " ++ quoted file)
    return Settings.ofText? (← IO.FS.readFile file)
  else
    log .warning ("Configuration file " ++ quoted file ++
      " not found. Using internal defaults.")
    return some .default

/-- Writes the report of a run to its file. -/
def writeReport (site : ReportSite) (t : Tracker Float) : IO Unit := do
  match Report.lines t with
  | .error _ => return ()
  | .ok lines =>
    match site.newDirectory with
    | none => pure ()
    | some directory => IO.FS.createDirAll directory
    IO.FS.writeFile site.path (String.join (lines.map (· ++ "\n")))

/-- How often in a row a run may reject a random choice before it gives up. -/
def patience : Nat :=
  10000000

/-- Carries out a command. -/
def Command.run (command : Command) (s : Settings Float) : IO UInt32 := do
  let site ← s.annealing.reportFile.mapM ReportSite.of
  let source := Stream.ofSeed s.traffic.seed
  let (result, events) :=
    match command with
    | .route => (runRouting (.ofStream patience) source s site).run
    | .place => (runPlacement (.ofStream patience) source s site).run
  for e in events do
    if e.level ≠ .debug then
      IO.eprintln e.line
  match result with
  | .ok t =>
    match site with
    | none => pure ()
    | some site => writeReport site t
    return 0
  | .error (.error e) =>
    log .error e.message
    return 1
  | .error (.fault _) => return 101

end NetOnChip

open NetOnChip in
/-- Runs the program. -/
def main (args : List String) : IO UInt32 := do
  match Arguments.read? args .default with
  | none =>
    IO.eprintln "usage: [-c FILE] [route | place]"
    return 2
  | some a =>
    match ← loadSettings a.file with
    | none =>
      IO.eprintln "Error: Failed to parse config TOML"
      return 1
    | some s => (a.command.getD .place).run s
