/-
  Storage that a run reads from and writes to. The operations are those of a disk; a file
  tree carried as state is one instance. Each operation answers whether it succeeded, and
  what failed is reported with the path that the caller composed.
-/
import OrmGen.Disk.FileTree

namespace OrmGen

/-- A place for files, addressed by paths. -/
class Storage (m : Type → Type) where
  has : String → m Bool
  read? : String → m (Option ByteArray)
  makeDirectories : String → m Bool
  write : String → ByteArray → m Bool
  removeDirectory : String → m Bool

/-- Programs that keep a file tree as their state. -/
abbrev OnTree : Type → Type := StateM FileTree

instance : Storage OnTree where
  has path := fun t => (t.has path, t)
  read? path := fun t => (t.read? path, t)
  makeDirectories path := fun t => ((t.makeDirectories path).2, (t.makeDirectories path).1)
  write path contents := fun t => ((t.write path contents).2, (t.write path contents).1)
  removeDirectory path := fun t => ((t.removeDirectory path).2, (t.removeDirectory path).1)

end OrmGen
