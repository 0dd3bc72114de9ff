import DataImage.Bits

/-!
# What goes into an object file

The pieces that an object file is put together from, for whichever target: bodies of functions,
blobs of data and aliases, with the places in bodies and blobs that the linker fills with
addresses. A `Target` turns such pieces into an object.
-/

namespace DataImage

/-- How the linker writes an address. -/
inductive RelocationKind where
  /-- As an absolute address of 32 bits. -/
  | abs32
  /-- As an absolute address of 64 bits. -/
  | abs64
deriving DecidableEq, Repr, Inhabited

namespace RelocationKind

/-- The kind for pointers of a number of bytes, if there is one. -/
def ofPointerBytes? : Nat → Option RelocationKind
  | 4 => some .abs32
  | 8 => some .abs64
  | _ => none

/-- The number of bits that are written. -/
def bits : RelocationKind → Nat
  | .abs32 => 32
  | .abs64 => 64

/-- The name of a kind. -/
def text : RelocationKind → String
  | .abs32 => "Abs32"
  | .abs64 => "Abs64"

end RelocationKind

/-- A place that receives the address of a symbol. -/
structure Relocation where
  /-- The distance in bytes from the start of the body or blob. -/
  offset : Nat
  symbol : String
  kind : RelocationKind
deriving DecidableEq, Repr, Inhabited

/-- The machine code of a function. -/
structure FunctionBody where
  name : String
  code : List UInt8
  relocations : List Relocation := []
deriving DecidableEq, Repr, Inhabited

/-- The bytes of a global. -/
structure Blob where
  name : String
  bytes : List UInt8
  relocations : List Relocation := []
  /-- Whether the program may write to it. -/
  writable : Bool
deriving DecidableEq, Repr, Inhabited

/-- One more symbol for a function, by names. -/
structure SymbolAlias where
  name : String
  target : String
deriving DecidableEq, Repr, Inhabited

/-- Why a target cannot make an object. -/
inductive EmissionError where
  /-- The target of an alias has no body in the object. -/
  | undefinedAliasTarget (name target : String)
  /-- The target has no such relocation. -/
  | unsupportedRelocation (symbol : String) (kind : RelocationKind)
  /-- The library that makes object files reports an error. -/
  | object (message : String)
  /-- The place of a relocation is no word of 64 bits. This is no error that is reported: the
  program stops for good. -/
  | overflow
deriving DecidableEq, Repr, Inhabited

/-- What an emission error says. -/
def EmissionError.message : EmissionError → String
  | .undefinedAliasTarget name target =>
    "alias `" ++ name ++ "` targets `" ++ target ++ "`, which has no body in this object"
  | .unsupportedRelocation symbol kind =>
    kind.text ++ " relocation against `" ++ symbol ++ "` is not supported by this target"
  | .object message => "object writer: " ++ message
  | .overflow => "arithmetic overflow"

/-- A kind of machine that objects are made for. -/
structure Target (Object : Type) where
  name : String
  /-- The width of a pointer in bits. -/
  pointerBits : Nat
  emit : List FunctionBody → List Blob → List SymbolAlias → Except EmissionError Object

end DataImage
