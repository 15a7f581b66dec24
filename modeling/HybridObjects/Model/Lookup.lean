import HybridObjects.Error
import HybridObjects.Text.Lines

/-!
# HybridObjects.Model.Lookup

Finding declarations by name. Qualified names are written with points, and the name of a module
may have points itself; so a name is cut at its last point.

* `Model.findClass`, `Model.findMethod`     — by qualified name.
* `Model.findClassByName`                   — by qualified or else by simple name.
* `Model.findInterface`                     — by qualified or simple name.
* `Model.declared?`                         — the declaration of a signature in an interface or in
  one that it extends.
* `Model.contractOf?`                       — the declaration that a method of a class implements.
-/

namespace HybridObjects

/-- The name before the last point and the name after it. -/
def splitName? (name : String) : Option (String × String) :=
  (Text.splitLast? '.' name.toList).map fun (before, after) =>
    (String.ofList before, String.ofList after)

/-- The name after the last point. -/
def simpleName (name : String) : String :=
  String.ofList (Text.afterLast '.' name.toList)

namespace Class

def method? (c : Class) (name : String) : Option Method :=
  c.methods.find? fun m => m.sig.name == name

def methodBySig? (c : Class) (sig : Signature) : Option Method :=
  c.methods.find? fun m => m.sig.matches sig

/-- The method that is activated when an object is created. -/
def runMethod? (c : Class) : Option Method :=
  c.method? "run"

def isPhysical (c : Class) : Bool :=
  c.physical.isSome

/-- The continuous fields, none in a discrete class. -/
def physicalFields (c : Class) : List PhysicalField :=
  match c.physical with
  | some physical => physical.fields
  | none => []

/-- The names of the parameters, the discrete fields and the continuous fields. -/
def fieldNames (c : Class) : List String :=
  c.params.map Param.name ++ c.fields.map Field.name ++ c.physicalFields.map PhysicalField.name

end Class

/-- The first declaration of a matching signature in an interface. -/
def Interface.method? (i : Interface) (sig : Signature) : Option InterfaceMethod :=
  i.methods.find? fun m => m.sig.matches sig

namespace Model

def module? (m : Model) (name : String) : Option Module :=
  m.modules.find? fun mod => mod.name == name

/-- Standard library modules are never verified. -/
def isLibraryName (name : String) : Bool :=
  "ABS.".toList.isPrefixOf name.toList

def userModules (m : Model) : List Module :=
  m.modules.filter fun mod => !isLibraryName mod.name

/-- The class with a qualified name. -/
def findClass (m : Model) (name : String) : Except Error Class :=
  match splitName? name with
  | none => .error (.invalidPath name)
  | some (moduleName, className) =>
    match m.module? moduleName with
    | none => .error (.moduleNotFound moduleName)
    | some mod =>
      match mod.classes.find? fun c => c.name == className with
      | none => .error (.classNotFound name)
      | some c => .ok c

/-- The first class of any module that has the simple name. -/
def classNamed? (m : Model) (name : String) : Option Class :=
  (m.modules.flatMap Module.classes).find? fun c => c.name == name

/-- The class with a qualified name or else with its last part as simple name. -/
def findClassByName (m : Model) (name : String) : Except Error Class :=
  match m.findClass name with
  | .ok c => .ok c
  | .error _ =>
    match m.classNamed? (simpleName name) with
    | some c => .ok c
    | none => .error (.classNotFound name)

/-- The method with a qualified name, and its class. -/
def findMethod (m : Model) (name : String) : Except Error (Class × Method) :=
  match splitName? name with
  | none => .error (.invalidPath name)
  | some (className, methodName) =>
    match m.findClass className with
    | .error e => .error e
    | .ok c =>
      match c.method? methodName with
      | none => .error (.methodNotFound name)
      | some method => .ok (c, method)

/-- The first interface whose name is the given one or its last part. -/
def findInterface (m : Model) (name : String) : Option Interface :=
  (m.modules.flatMap Module.interfaces).find? fun i =>
    i.name == name || i.name == simpleName name

/-- How many names of parents the interfaces of a model list. -/
def parentCount (m : Model) : Nat :=
  ((m.modules.flatMap Module.interfaces).flatMap Interface.parents).length

/-- Searches the pending interfaces, first one first, for a declaration of the signature. The
parents of an interface without one are searched next, the last parent first; a name is looked at
once. The first argument bounds the number of names taken up. -/
def search (m : Model) (sig : Signature) :
    Nat → List String → List String → Option InterfaceMethod
  | 0, _, _ => none
  | _ + 1, _, [] => none
  | n + 1, visited, name :: pending =>
    if visited.contains name then m.search sig n visited pending
    else
      match m.findInterface name with
      | none => m.search sig n (name :: visited) pending
      | some i =>
        match i.method? sig with
        | some found => some found
        | none => m.search sig n (name :: visited) (i.parents.reverse ++ pending)

/-- The declaration of a matching signature in the named interface or in one that it extends. Every
name is visited at most once, and visiting one adds at most `parentCount` names, so the bound on
the search is never reached. -/
def declared? (m : Model) (interface : String) (sig : Signature) : Option InterfaceMethod :=
  m.search sig ((m.parentCount + 1) * m.parentCount + 2) [] [interface]

/-- The declaration that a method of a class implements: the first one found from the interfaces of
the class in their order. -/
def contractOf? (m : Model) (c : Class) (sig : Signature) : Option InterfaceMethod :=
  c.implements.findSome? fun interface => m.declared? interface sig

/-- The first main block. -/
def mainBlock? (m : Model) : Option Block :=
  m.modules.findSome? Module.main

end Model
end HybridObjects
