/-
  Classes ready to be written: a name in a namespace, imports, doc annotations, and
  properties. A constant is a property that renders as a class constant; the others are
  members with accessors.
-/
import OrmGen.Php.Import

namespace OrmGen.Php

/-- A constant or a member of a class. `default` is a literal, filtered when written. -/
structure Property where
  name : String
  typeName : String
  default : Option String
  annotations : List String
  isConstant : Bool
deriving DecidableEq, Repr

namespace Property

def member (name typeName : String) (default : Option String) (annotations : List String) :
    Property := ⟨name, typeName, default, annotations, false⟩

def constant (name typeName : String) (value : Option String) : Property :=
  ⟨name, typeName, value, [], true⟩

end Property

/-- A class. `banner` says that it is generated anew on every run, `body` is text after the
generated members. -/
structure Class where
  name : String
  ns : String
  imports : ImportTable
  annotations : List String
  properties : OrderedMap Property
  modifiers : List String
  parent : Option String
  body : Option String
  banner : Bool
deriving DecidableEq

namespace Class

/-- An abstract class without members that is generated anew on every run. -/
def generated (name ns : String) : Class where
  name := name
  ns := ns
  imports := .empty
  annotations := []
  properties := .empty
  modifiers := ["abstract"]
  parent := none
  body := none
  banner := true

/-- A class without members that is generated once and then left alone. -/
def scaffold (name ns : String) : Class :=
  { generated name ns with modifiers := [], banner := false }

@[simp] theorem generated_name (name ns : String) : (generated name ns).name = name := rfl

@[simp] theorem generated_ns (name ns : String) : (generated name ns).ns = ns := rfl

@[simp] theorem generated_properties (name ns : String) :
    (generated name ns).properties = .empty := rfl

@[simp] theorem scaffold_name (name ns : String) : (scaffold name ns).name = name := rfl

@[simp] theorem scaffold_ns (name ns : String) : (scaffold name ns).ns = ns := rfl

@[simp] theorem scaffold_properties (name ns : String) :
    (scaffold name ns).properties = .empty := rfl

def qualifiedName (c : Class) : String := c.ns ++ "\\" ++ c.name

def constants (c : Class) : List Property := c.properties.values.filter (·.isConstant)

def members (c : Class) : List Property := c.properties.values.filter (!·.isConstant)

/-- Put a property under its name, over an earlier one of that name. -/
def putProperty (c : Class) (p : Property) : Class :=
  { c with properties := c.properties.insert p.name p }

@[simp] theorem putProperty_name (c : Class) (p : Property) : (c.putProperty p).name = c.name :=
  rfl

@[simp] theorem putProperty_ns (c : Class) (p : Property) : (c.putProperty p).ns = c.ns := rfl

/-- Add a property, whose name must be new. -/
def addProperty (c : Class) (p : Property) : Except Error Class :=
  if c.properties.contains p.name then .error (.duplicateProperty c.name p.name)
  else .ok (c.putProperty p)

/-- Register an import. -/
def addImport (c : Class) (statement : String) : Except Error Class :=
  (c.imports.add statement).map fun t => { c with imports := t }

end Class
end OrmGen.Php
