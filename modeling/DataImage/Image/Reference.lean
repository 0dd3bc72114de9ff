import DataImage.Image.Layout

/-!
# References to values

Every value that is referred to gets one global, on first reference. For an object that is a
placeholder of its type's struct, to be filled later. Arrays and strings have no type before their
contents are known, so their contents are built at once; if that comes back to the same value, the
inner reference gets a placeholder, into which the finished global is then merged.

How the contents of a value are built is a parameter here, because contents refer to values in turn.
-/

namespace DataImage

/-- Whether the type of a value's global comes from its contents. -/
def Descriptor.takesTypeFromContents : Descriptor → Bool
  | .array _ => true
  | .object o => o.context = Core.string

namespace Catalog

/-- The name of a value's global: its type and its position. -/
def globalName (c : Catalog) (d : DescriptorId) (v : Descriptor) : String :=
  c.typeName v.context ++ "_" ++ toString d.index

end Catalog

namespace Build

variable (c : Catalog)

/-- Let a global stand for a value. If one does already, the new global is merged into it; else the
new one is registered, as a constant if the value is read-only. The result is the global that stands
for the value. -/
def register (d : DescriptorId) (g : GlobalId) : Build GlobalId := do
  let s ← get
  match s.global? d with
  | some registered =>
    let standing := s.module.resolve registered
    modifyModule (·.merge g standing)
    return standing
  | none =>
    modify fun s => { s with entries := s.entries ++ [(d, g)] }
    if (c.descriptor? d).any (!·.isMutable) then modifyModule (·.flagConstant g)
    return g

/-- Register a placeholder for a value. -/
def placeholder (d : DescriptorId) (v : Descriptor) : Build GlobalId := do
  let layout ← layoutOf c v.context
  let g ← onModule (·.addPlaceholder (c.globalName d v) (.struct layout))
  register c d g

/-- Build the contents of a value and register a global that holds them. -/
def eager (contents : DescriptorId → Build Constant) (d : DescriptorId) (v : Descriptor) :
    Build GlobalId := do
  let built ← whileBuilding d (contents d)
  let g ← onModule (·.addInitialized (c.globalName d v) built)
  register c d g

/-- The global of a value, made on first request. -/
def requestWith (contents : DescriptorId → Build Constant) (d : DescriptorId) : Build GlobalId := do
  let s ← get
  match s.global? d with
  | some g => return s.module.resolve g
  | none =>
    let v ← descriptor c d
    if v.isNested then throw { cause := .violation .nestedReference, descriptor := some d }
    if v.takesTypeFromContents && !s.building.contains d then eager c contents d v
    else placeholder c d v

end Build

end DataImage
