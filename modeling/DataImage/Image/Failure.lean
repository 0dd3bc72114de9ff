import DataImage.Catalog.Region
import DataImage.Module.Verify
import DataImage.Module.Lowering

/-!
# Failures of an image build

What can go wrong between the declarations and the finished object, with the wording of each case. A
failure names the value that was being built, if there was one.
-/

namespace DataImage

/-- The place that a payload was meant for. -/
inductive Place where
  /-- A field, by its name and the name of the type that declares it. -/
  | field (name owner : String)
  /-- An element of an array of the named type. -/
  | element (index : Nat) (type : String)
deriving DecidableEq, Repr, Inhabited

/-- How a place is printed. -/
def Place.text : Place → String
  | .field name owner => "field " ++ name ++ " of " ++ owner
  | .element index type => "element " ++ toString index ++ " of " ++ type

/-- A rule that the declarations or the values break. -/
inductive Violation where
  /-- No value has this position. -/
  | unknownDescriptor (id : DescriptorId)
  /-- The type of an object does not give it a layout. -/
  | ancestry (error : AncestryError)
  /-- A class other than the root has no base. -/
  | noBase (type : String)
  /-- A type has no virtual table. -/
  | noVirtualTable (type : String)
  /-- A field takes no bytes. -/
  | zeroSizedField (offset : Nat) (owner : String)
  /-- An integer type is not one to eight bytes wide. -/
  | scalarWidth (type : String) (size : Nat)
  /-- No code pointer has this position. -/
  | unknownCodePointer (id : CodePointerId)
  /-- The type of an array is no array type. -/
  | notAnArray (type : String)
  /-- An array does not have as many elements as its length says. -/
  | elementCount (type : String) (length found : Nat)
  /-- A part of another value was asked for by reference. -/
  | nestedReference
  /-- Types or values contain themselves. This is no error that is reported: it stands for a
  recursion that does not end. -/
  | endless
deriving DecidableEq, Repr, Inhabited

/-- What a violation says. -/
def Violation.message : Violation → String
  | .unknownDescriptor id => "unknown descriptor #" ++ toString id.index
  | .ancestry error => error.message
  | .noBase type => "class " ++ type ++ " has no base class"
  | .noVirtualTable type => type ++ " has no virtual table"
  | .zeroSizedField offset owner =>
    "zero-sized field at offset " ++ toString offset ++ " of " ++ owner
  | .scalarWidth type size =>
    "scalar " ++ type ++ " is " ++ toString size ++ " bytes wide, encodable widths are 1 to 8"
  | .unknownCodePointer id => "unknown code pointer #" ++ toString id.index
  | .notAnArray type => "array value laid out as " ++ type
  | .elementCount type length found =>
    type ++ " of length " ++ toString length ++ " has " ++ toString found ++ " elements"
  | .nestedReference => "nested value has no global of its own"
  | .endless => "endless containment"

/-- What is wrong with the settings of a build. -/
inductive SettingsProblem where
  /-- The text is no settings record. -/
  | malformed
  /-- The pointer width differs from that of the declarations. -/
  | pointerWidth (settings declared : Nat)
  /-- The pointer width of the target differs from that of the declarations. -/
  | targetWidth (target : String) (width declared : Nat)
deriving DecidableEq, Repr, Inhabited

/-- What a problem with the settings says. -/
def SettingsProblem.message : SettingsProblem → String
  | .malformed => "not a settings record"
  | .pointerWidth settings declared =>
    "native_int_size is " ++ toString settings ++ " bits but the environment uses " ++
      toString declared ++ "-bit pointers"
  | .targetWidth target width declared =>
    "backend `" ++ target ++ "` emits " ++ toString width ++ "-bit pointers, environment uses " ++
      toString declared

/-- Why a build fails. -/
inductive Cause where
  /-- A payload does not suit its place. -/
  | typeConsistency (payload : Payload) (place : Place)
  /-- A code pointer leads to an exception handler. -/
  | handlerPointer (handler : String) (place : Place)
  /-- A rule is broken. -/
  | violation (v : Violation)
  /-- An offset, a size or a width is too large for the word that it is kept in. This is no error
  that is reported: the program stops in the middle of its arithmetic, for good, and nothing that
  it has made is looked at again. -/
  | overflow
  /-- There is no method to start with. -/
  | missingBootstrap (name : String)
  /-- The module has faults. -/
  | verification (report : Report)
  /-- The settings are wrong. -/
  | settings (problem : SettingsProblem)
  /-- The globals have no bytes. -/
  | lowering (error : LoweringError)
  /-- The target refuses the object. -/
  | emission (error : EmissionError)
deriving Repr, Inhabited

/-- What a cause says. -/
def Cause.message : Cause → String
  | .typeConsistency payload place =>
    "don't know how to encode " ++ payload.text ++ " in " ++ place.text
  | .handlerPointer handler place =>
    "unsupported: exception handler code pointers (handler " ++ handler ++ " in " ++ place.text ++
      ")"
  | .violation v => "invariant violation: " ++ v.message
  | .overflow => "arithmetic overflow"
  | .missingBootstrap name => "bootstrap method `" ++ name ++ "` not found"
  | .verification report => "module verification failed:\n" ++ report.text
  | .settings problem => "configuration: " ++ problem.message
  | .lowering error => "lowering: " ++ error.message
  | .emission error => "emission: " ++ error.message

/-- A failed build step. -/
structure Failure where
  cause : Cause
  /-- The value that was being built. -/
  descriptor : Option DescriptorId := none
deriving Repr, Inhabited

namespace Failure

/-- What a failure says. -/
def message (f : Failure) : String :=
  f.cause.message ++
    match f.descriptor with
    | some d => " (descriptor #" ++ toString d.index ++ ")"
    | none => ""

/-- What it means for a build that globals have no bytes. -/
def ofLowering : LoweringError → Failure
  | .overflow => { cause := .overflow }
  | e => { cause := .lowering e }

/-- What it means for a build that the target refuses the object. -/
def ofEmission : EmissionError → Failure
  | .overflow => { cause := .overflow }
  | e => { cause := .emission e }

/-- Name the value that was being built, unless one inside it is named already. -/
def within (f : Failure) (d : DescriptorId) : Failure :=
  { f with descriptor := some (f.descriptor.getD d) }

end Failure

end DataImage
