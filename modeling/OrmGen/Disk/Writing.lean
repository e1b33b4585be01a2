/-
  Writing the outcome of a run. The generated directory is removed first, then the files are
  written in order and the diagram last. A file of the mode `createIfMissing` is skipped if
  something stands at its path already.
-/
import OrmGen.Disk.Storage
import OrmGen.Generation

namespace OrmGen

/-- The paths that a run wrote and those that it left alone. -/
structure WriteReport where
  written : List String
  skipped : List String
deriving DecidableEq, Repr

namespace Generation

variable {m : Type → Type} [Monad m] [Storage m]

/-- The place of the diagram below the root for entities. -/
def diagramPath : String := "generated/entities.txt"

/-- Fail with the path of a disk operation that did not succeed. -/
def orDiskError (path : String) (action : m Bool) : ExceptT Error m Unit := do
  unless ← action do throw (.disk path)

/-- Write a text and make the directories above it. -/
def writeText (path contents : String) : ExceptT Error m Unit := do
  match Path.parent? path with
  | some directory => orDiskError directory (Storage.makeDirectories directory)
  | none => pure ()
  orDiskError path (Storage.write path contents.toUTF8)

/-- Write files below `root` one after another. -/
def writeFiles (root : String) : List OutputFile → ExceptT Error m WriteReport
  | [] => pure ⟨[], []⟩
  | f :: fs => do
    let path := Path.join root f.path
    let kept ← (if f.mode = .createIfMissing then Storage.has path else pure false : m Bool)
    if kept then
      let report ← writeFiles root fs
      return { report with skipped := path :: report.skipped }
    else
      writeText path f.contents
      let report ← writeFiles root fs
      return { report with written := path :: report.written }

/-- Remove the generated directory, if there is one. -/
def removeGenerated (g : Generation) (appRoot : String) : ExceptT Error m Unit := do
  let directory := Path.join appRoot g.generatedDirectory
  if ← (Storage.has directory : m Bool) then
    orDiskError directory (Storage.removeDirectory directory)

/-- Write everything. -/
def write (g : Generation) (appRoot entitiesRoot : String) : ExceptT Error m WriteReport := do
  g.removeGenerated appRoot
  let report ← writeFiles appRoot g.files
  let diagram := Path.join entitiesRoot diagramPath
  writeText diagram g.diagram
  return { report with written := report.written ++ [diagram] }

end Generation
end OrmGen
