import DataImage.Arm.Emission
import DataImage.Arm.Instruction
import DataImage.Assembly
import DataImage.CommandLine.Arguments
import DataImage.Description.Blueprint
import DataImage.Description.Reading

/-!
# Running the command

What the command writes, as a function of the files that it reads and of the library that makes
object files. The settings are read before the description, and each is checked before the next
step.

* `CommandLine.run` gives the artifact to write, or the failure to report.
-/

namespace DataImage.CommandLine

/-- Why a run fails. -/
inductive RunFailure where
  /-- A file cannot be read, for a reason that the system gives. -/
  | unreadable (path reason : String)
  /-- The description has no meaning. -/
  | description (error : Description.Error)
  /-- The build fails. -/
  | build (failure : Failure)
  /-- A file cannot be written, for a reason that the system gives. -/
  | unwritable (path reason : String)
deriving Repr, Inhabited

/-- What a run failure says. -/
def RunFailure.message : RunFailure → String
  | .unreadable path reason => "cannot read " ++ path ++ ": " ++ reason
  | .description error => error.message
  | .build failure => failure.message
  | .unwritable path reason => path ++ ": " ++ reason

/-- The files that can be read: for each path the contents, or why there are none. -/
abbrev Files := String → Except String String

/-- The contents of a file. -/
def contents (files : Files) (path : String) : Except RunFailure String :=
  (files path).mapError (.unreadable path)

/-- The settings of a call, which have their defaults if no file is given. -/
def settingsOf (files : Files) (a : Arguments) : Except RunFailure Settings :=
  match a.settings with
  | none => .ok {}
  | some path => do
    match Settings.ofText? (← contents files path) with
    | some settings => return settings
    | none => throw (.build { cause := .settings .malformed })

/-- The description of a call. -/
def descriptionOf (files : Files) (a : Arguments) : Except RunFailure Description := do
  match Description.ofText? (← contents files a.description) with
  | some description => return description
  | none => throw (.description .malformed)

/-- Let a stub stand for the body of the bootstrap method, if there is such a method. -/
def addBootstrapStub {Object : Type} (a : Assembly Object) : Assembly Object :=
  match a.catalog.findMethod? a.settings.bootstrapMethod with
  | some m => a.addFunction (Arm.returnStub (a.catalog.methodSymbol m))
  | none => a

/-- Ask for the values to start from, and compile. -/
def buildRoots {Object : Type} (roots : List DescriptorId) : Assembly.Step Object Unit := do
  roots.forM fun d => discard <| Assembly.materialize d
  modify addBootstrapStub
  Assembly.compile

/-- Build an image for ARM from what a description declares. -/
def buildImage (lib : Library) (settings : Settings) (b : Description.Blueprint)
    (noValidate : Bool) : Except Failure (Assembly lib.File) := do
  let start ← Assembly.new b.catalog settings (Arm.target lib)
  let start := if noValidate then start.disableValidation else start
  match buildRoots b.roots start with
  | .ok _ built => return built
  | .error failure _ => throw failure

/-- What a call writes. -/
def run (lib : Library) (files : Files) (a : Arguments) :
    Except RunFailure (Artifact lib.File) := do
  let settings ← settingsOf files a
  let description ← descriptionOf files a
  let blueprint ← (description.blueprint (settings.nativeBits / 8)).mapError .description
  let built ← (buildImage lib settings blueprint a.noValidate).mapError .build
  (built.artifact a.asText).mapError .build

end DataImage.CommandLine
