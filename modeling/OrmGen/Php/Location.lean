/-
  Where a class is stored. The application namespace is the directory `src`, every further
  segment of a namespace a directory below it, and a class a file named after it.
-/
import OrmGen.Disk.Path

namespace OrmGen.Php

/-- The part of a namespace below the application namespace; all of it if it lies
elsewhere. -/
def relativeNamespace (app ns : String) : List Char :=
  if ns = app then []
  else
    match (app.toList ++ ['\\']).isPrefixOf? ns.toList with
    | some rest => rest
    | none => ns.toList

/-- The directory of a namespace. -/
def namespaceDirectory (app ns : String) : String :=
  let segments := ((relativeNamespace app ns).splitOn '\\').filter (· ≠ [])
  segments.foldl (fun path s => Path.join path (String.ofList s)) "src"

/-- The file of a class. -/
def classPath (app ns name : String) : String :=
  Path.join (namespaceDirectory app ns) (name ++ ".php")

end OrmGen.Php
