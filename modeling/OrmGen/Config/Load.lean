/-
  Loading a configuration from storage: a file whose name ends in `.json` is JSON, any other
  is YAML.
-/
import OrmGen.Config
import OrmGen.Disk.Storage
import OrmGen.Yaml.Reader

namespace OrmGen.Config

/-- The configuration in a YAML text. -/
def ofYamlText (s : String) : Except Error Config :=
  match Yaml.read? s with
  | none => .error .yamlNotRead
  | some v => ofJson v

/-- The configuration in the text of a file at `path`. -/
def ofFile (path contents : String) : Except Error Config :=
  if Path.extension? path = some "json".toList then ofJsonText contents else ofYamlText contents

/-- The configuration in the file at `path`, which must be UTF-8. -/
def load {m : Type → Type} [Monad m] [Storage m] (path : String) : ExceptT Error m Config := do
  match (← (Storage.read? path : m (Option ByteArray))).bind String.fromUTF8? with
  | none => throw (.disk path)
  | some contents => ExceptT.mk (pure (ofFile path contents))

end OrmGen.Config
