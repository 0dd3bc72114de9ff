import DataImage.Json.Record

/-!
# Settings

What a build takes from its user apart from the description. Settings are written as a JSON record
in which every field may be missing.
-/

namespace DataImage

/-- The settings of one build. -/
structure Settings where
  /-- The name of the module, which also heads its text. -/
  imageName : String := "image"
  /-- The width of a pointer in bits. -/
  nativeBits : Nat := 32
  /-- The symbol that the program starts at. -/
  entrySymbol : String := "main"
  /-- The method that the entry symbol stands for. -/
  bootstrapMethod : String := "Bootstrap_Initialization"
  /-- Whether the module is verified, given its entry and turned into an object. -/
  validate : Bool := true
deriving DecidableEq, Repr, Inhabited

namespace Settings

/-- The fields of a settings record. -/
def fieldNames : List String :=
  ["image_name", "native_int_size", "entry_symbol", "bootstrap_method", "validate"]

/-- The settings that a JSON value gives. -/
def ofJson? (value : Json) : Option Settings := do
  let fields ← Json.record? fieldNames value
  let default : Settings := {}
  return {
    imageName := ← fields.withDefault? "image_name" default.imageName Json.asText?
    nativeBits := ← fields.withDefault? "native_int_size" default.nativeBits Json.asNat32?
    entrySymbol := ← fields.withDefault? "entry_symbol" default.entrySymbol Json.asText?
    bootstrapMethod :=
      ← fields.withDefault? "bootstrap_method" default.bootstrapMethod Json.asText?
    validate := ← fields.withDefault? "validate" default.validate Json.asBool? }

/-- The settings that a text gives. -/
def ofText? (text : String) : Option Settings := Json.ofText? text >>= ofJson?

end Settings

end DataImage
