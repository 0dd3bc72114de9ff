import DataImage.Image.Failure

/-!
# Images under construction

The state of an image build and the steps on it. An image holds the module as far as it goes, and
remembers what it has already made: the struct of each type, the declaration of each method, and the
global of each value.

A step of type `Build α` may fail, and then leaves the image as it was at the point of failure: what
was made before stays.
-/

namespace DataImage

/-- An image under construction. -/
structure Image where
  module : Module
  /-- The struct of each type that has been laid out. -/
  layouts : List (TypeId × StructId) := []
  /-- The declaration of each method that has been referred to. -/
  declarations : List (MethodId × FunctionId) := []
  /-- The global of each value that has been referred to, in the order of the first reference. -/
  entries : List (DescriptorId × GlobalId) := []
  /-- The values whose contents are being built to find out their type. -/
  building : List DescriptorId := []

namespace Image

/-- The empty image for a catalog. -/
def new (c : Catalog) (name : String) : Image where
  module := { name, nativeBits := c.pointerSize * 8 }

/-- The global of a value, as it was registered. -/
def global? (s : Image) (d : DescriptorId) : Option GlobalId := s.entries.lookup d

/-- How many registered globals are still without contents. -/
def pending (s : Image) : Nat :=
  s.entries.countP fun (_, g) => s.module.isPlaceholder (s.module.resolve g)

end Image

/-- A step of an image build. -/
abbrev Build := EStateM Failure Image

namespace Build

/-- Fail because a rule is broken. -/
def violate {α : Type} (v : Violation) : Build α := throw { cause := .violation v }

/-- Stop, as a number is too large for its word. -/
def overflow {α : Type} : Build α := throw { cause := .overflow }

/-- Do something to the module. -/
def onModule {α : Type} (f : Module → α × Module) : Build α :=
  modifyGet fun s => let (a, m) := f s.module; (a, { s with module := m })

/-- Change the module. -/
def modifyModule (f : Module → Module) : Build Unit :=
  modify fun s => { s with module := f s.module }

/-- Name `d` in a failure of the step, unless a value inside it is named already. -/
def within {α : Type} (d : DescriptorId) (step : Build α) : Build α := fun s =>
  match step s with
  | .ok a s => .ok a s
  | .error f s => .error (f.within d) s

/-- Run a step with `d` among the values being built. The mark is taken away again, also when the
step fails. -/
def whileBuilding {α : Type} (d : DescriptorId) (step : Build α) : Build α := fun s =>
  let unmark (s : Image) : Image := { s with building := s.building.filter (· ≠ d) }
  match step { s with building := d :: s.building } with
  | .ok a s => .ok a (unmark s)
  | .error f s => .error f (unmark s)

/-- The value at a position. -/
def descriptor (c : Catalog) (d : DescriptorId) : Build Descriptor :=
  match c.descriptor? d with
  | some v => pure v
  | none => violate (.unknownDescriptor d)

end Build

end DataImage
