/-
  The program: its arguments are read and run on the disk. A failed run ends with code 1,
  refused arguments with code 2. The wording of the help text and of refusals is left to
  whoever reads the code.
-/
import OrmGen.CommandLine
import OrmGen.Run

namespace OrmGen

/-- Whether an action on the disk succeeds. -/
def succeeds {α : Type} (action : IO α) : IO Bool := do
  match ← action.toBaseIO with
  | .ok _ => return true
  | .error _ => return false

instance : Storage IO where
  has path := succeeds (IO.FS.realPath path)
  read? path := do
    match ← (IO.FS.readBinFile path).toBaseIO with
    | .ok contents => return some contents
    | .error _ => return none
  makeDirectories path := if path = "" then return true else succeeds (IO.FS.createDirAll path)
  write path contents := succeeds (IO.FS.writeBinFile path contents)
  removeDirectory path := succeeds (IO.FS.removeDirAll path)

end OrmGen

open OrmGen in
def main (args : List String) : IO UInt32 := do
  match CommandLine.parse args with
  | .error e => return if e.isRequest then 0 else 2
  | .ok command =>
    match ← (command.execute : ExceptT Error IO String).run with
    | .ok text =>
      (← IO.getStdout).putStr text
      return 0
    | .error e =>
      (← IO.getStderr).putStr (e.message ++ "\n")
      return 1
