import DataImage.Image.Resolve
import DataImage.Module.Text
import DataImage.Settings

/-!
# Assemblies

One build from the first root to the object: the image, the bodies of functions that come from
elsewhere, and the object once there is one.

* `Assembly.new` refuses settings and targets whose pointers are not as wide as those of the
  catalog.
* `Assembly.compile` fills the image, verifies the module, gives it its entry and makes the object.
  An object is only ever stored by a compile that went through; without validation, a compile just
  fills the image.
* `Assembly.artifact` is what is written to a file: the text of the module or the object.
-/

namespace DataImage

/-- The place in a source text that a method comes from. -/
structure SourcePosition where
  file : String
  line : Nat
  column : Nat
deriving DecidableEq, Repr, Inhabited

/-- One build for a target whose objects are of the type `Object`. -/
structure Assembly (Object : Type) where
  catalog : Catalog
  settings : Settings
  target : Target Object
  image : Image
  /-- The bodies of functions, in the order in which they were added. -/
  functions : List FunctionBody := []
  /-- Where methods come from. -/
  positions : List (MethodId × SourcePosition) := []
  /-- The object of the last compile that went through with validation. -/
  object : Option Object := none

/-- What a build writes to a file. -/
inductive Artifact (Object : Type) where
  | text (value : String)
  | object (value : Object)

namespace Assembly

variable {Object : Type}

/-- A step of a build. -/
abbrev Step (Object : Type) := EStateM Failure (Assembly Object)

/-- The build of an empty image. -/
def new (catalog : Catalog) (settings : Settings) (target : Target Object) :
    Except Failure (Assembly Object) :=
  let declared := catalog.pointerSize * 8
  if settings.nativeBits ≠ declared then
    .error { cause := .settings (.pointerWidth settings.nativeBits declared) }
  else if target.pointerBits ≠ declared then
    .error { cause := .settings (.targetWidth target.name target.pointerBits declared) }
  else .ok { catalog, settings, target, image := Image.new catalog settings.imageName }

/-- The module as far as it goes. -/
def module (a : Assembly Object) : Module := a.image.module

/-- Take a step on the image. -/
def onImage {α : Type} (step : Build α) : Step Object α := fun a =>
  match step a.image with
  | .ok result image => .ok result { a with image }
  | .error f image => .error f { a with image }

/-- Ask for a value together with its contents. -/
def materialize (d : DescriptorId) : Step Object GlobalId := do
  onImage (Build.materialize (← get).catalog d)

/-- Add the body of a function. -/
def addFunction (a : Assembly Object) (f : FunctionBody) : Assembly Object :=
  { a with functions := a.functions ++ [f] }

/-- Note where a method comes from. -/
def setPosition (a : Assembly Object) (m : MethodId) (p : SourcePosition) : Assembly Object :=
  { a with positions := Keyed.put m p a.positions }

/-- Where methods come from, in the order of the methods. -/
def sortedPositions (a : Assembly Object) : List (MethodId × SourcePosition) :=
  a.positions.mergeSort fun p q => p.1.index ≤ q.1.index

/-- Only fill the image from now on. -/
def disableValidation (a : Assembly Object) : Assembly Object :=
  { a with settings := { a.settings with validate := false } }

/-- The aliases of a module by names. -/
def symbolAliases (m : Module) : List SymbolAlias :=
  m.aliases.map fun a => { name := m.symbol a.name, target := m.functionName a.target }

/-- The object of the module as it stands. -/
def emit (a : Assembly Object) : Except Failure Object :=
  match a.module.lower (.ofModule a.module) with
  | .error e => .error (.ofLowering e)
  | .ok blobs =>
    match a.target.emit a.functions blobs (symbolAliases a.module) with
    | .error e => .error (.ofEmission e)
    | .ok object => .ok object

/-- Let the entry symbol stand for a function. -/
def setEntry (a : Assembly Object) (f : FunctionId) : Assembly Object :=
  { a with image :=
    { a.image with module := a.image.module.setAlias a.settings.entrySymbol f } }

/-- Verify the module, give it its entry and make its object. -/
def finish : Step Object Unit := do
  let a ← get
  let report := a.module.verify
  if !report.isOk then throw { cause := .verification report }
  match a.catalog.findMethod? a.settings.bootstrapMethod with
  | none => throw { cause := .missingBootstrap a.settings.bootstrapMethod }
  | some bootstrap =>
    let f ← onImage (Build.declarationOf a.catalog bootstrap)
    modify (·.setEntry f)
    match (← get).emit with
    | .error failure => throw failure
    | .ok object => modify ({ · with object := some object })

/-- Fill the image and, with validation, make the object. -/
def compile : Step Object Unit := do
  discard <| onImage (Build.resolveAll (← get).catalog)
  if (← get).settings.validate then finish

/-- The text of the module, or its object, which is made now if no compile has made one. -/
def artifact (a : Assembly Object) (asText : Bool) : Except Failure (Artifact Object) :=
  if asText then .ok (.text a.module.text)
  else match a.object with
    | some object => .ok (.object object)
    | none => .object <$> a.emit

end Assembly

end DataImage
