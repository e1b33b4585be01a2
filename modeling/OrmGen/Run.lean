/-
  Running a command: the configuration is read, the run made in memory, and its outcome
  listed or written. The answer is the text to be printed.
-/
import OrmGen.CommandLine
import OrmGen.Config.Load
import OrmGen.Disk.Writing

namespace OrmGen.Command

variable {m : Type → Type} [Monad m] [Storage m]

/-- A word at the right end of a column. -/
def alignRight (width : Nat) (word : String) : String :=
  String.ofList (List.replicate (width - word.length) ' ') ++ word

/-- The line for a file in the listing of a dry run. -/
def listLine (mode : WriteMode) (path : String) : String :=
  alignRight 18 mode.text ++ "    " ++ path ++ "\n"

/-- The line for a path in the report of a run. -/
def reportLine (word path : String) : String :=
  "  " ++ alignRight 10 word ++ "    " ++ path ++ "\n"

/-- The root for entities: as given, or the directory of the configuration. -/
def entitiesDirectory (c : Command) : String :=
  match c.entitiesRoot with
  | some root => root
  | none =>
    match Path.parent? c.config with
    | some directory => if directory = "" then "." else directory
    | none => "."

/-- What a dry run prints. -/
def listing (c : Command) (g : Generation) : String :=
  String.join (g.files.map fun f => listLine f.mode (Path.join c.appRoot f.path))
    ++ listLine .regenerate (Path.join c.entitiesDirectory Generation.diagramPath)

/-- What a run prints once everything is written. -/
def reportText (r : WriteReport) : String :=
  String.join (r.written.map (reportLine "writing"))
    ++ String.join (r.skipped.map (reportLine "keeping"))

/-- Run a command. -/
def execute (c : Command) : ExceptT Error m String := do
  let config ← Config.load c.config
  let g ← ExceptT.mk (pure (Generation.ofConfig config))
  if c.dryRun then return c.listing g
  else return reportText (← g.write c.appRoot c.entitiesDirectory)

end OrmGen.Command
