import DataImage.Image.Content

/-!
# Filling placeholders

A reference to an object only makes a placeholder. `Build.materialize` fills the one of a single
value; `Build.resolveAll` goes through the registered values in order and fills whatever is still
empty, including the placeholders that come up on the way, which are registered behind.
-/

namespace DataImage

namespace Image

/-- The first registered value from a position on whose global is still without contents, with its
position. -/
def nextPlaceholder? (s : Image) (start : Nat) : Option (Nat × DescriptorId × GlobalId) :=
  (s.entries.zipIdx.drop start).findSome? fun ((d, g), i) =>
    let standing := s.module.resolve g
    if s.module.isPlaceholder standing then some (i, d, standing) else none

end Image

namespace Build

variable (c : Catalog)

/-- Build the contents of a value and put them into its placeholder. A global whose type comes from
the contents is made anew and merged into the placeholder. -/
def fill (d : DescriptorId) (g : GlobalId) : Build Unit := do
  let built ← contentsOf c d
  let v ← descriptor c d
  if v.takesTypeFromContents then
    let fresh ← onModule (·.addInitialized (c.globalName d v) built)
    modifyModule (·.merge fresh g)
  else modifyModule (·.setInitializer g built)

/-- The global of a value, with its contents. -/
def materialize (d : DescriptorId) : Build GlobalId := do
  let g ← request c d
  if (← get).module.isPlaceholder g then fill c d g
  return g

/-- Fill placeholders from a position on, at most `steps` of them, and count them. -/
def resolveFrom : (steps start filled : Nat) → Build Nat
  | 0, _, filled => return filled
  | steps + 1, start, filled => do
    match (← get).nextPlaceholder? start with
    | none => return filled
    | some (i, d, g) =>
      fill c d g
      resolveFrom steps (i + 1) (filled + 1)

/-- Fill placeholders until none is left, and count them. There are no more registered values than
values. -/
def resolveAll : Build Nat := resolveFrom c (c.descriptors.length + 1) 0 0

end Build

end DataImage
