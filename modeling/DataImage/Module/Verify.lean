import DataImage.Module.Basic

/-!
# Verification of modules

The checks that a finished module has to pass: every live global has contents, the contents have the
declared type, every integer fits its width, and every reference leads somewhere. All faults are
collected, each with the place where it was found.

* `Module.compatible` decides whether a constant of one type may fill a slot of another. A pointer
  may fill an integer of the native width (code addresses are kept in such integers), but no integer
  fills a pointer; a named struct and an anonymous one match in either direction field by field.
* `Module.verify` lists the faults of a module.
* `Report.text` is what a reader sees.
-/

namespace DataImage

/-- Where a fault was found. -/
inductive Location where
  /-- The module as a whole. -/
  | module
  /-- The global of this name. -/
  | global (name : String)
  /-- The alias of this name. -/
  | «alias» (name : String)
deriving DecidableEq, Repr, Inhabited

/-- The slot whose declared type a constant does not have. -/
inductive Slot where
  /-- The contents of the global. -/
  | initializer
  /-- A field of a named struct. -/
  | field (struct : String) (index : Nat)
  /-- An element of an array. -/
  | element (index : Nat)
deriving DecidableEq, Repr, Inhabited

/-- What is wrong with a module. -/
inductive Fault where
  /-- The global only holds a place. -/
  | noInitializer
  /-- A constant does not have the type of its slot. -/
  | typeMismatch (slot : Slot) (expected actual : Storage)
  /-- No integer has this width. -/
  | integerWidth (bits : Nat)
  /-- The integer has bits above its width. -/
  | integerRange (value : UInt64) (bits : Nat)
  /-- No struct has this position. -/
  | unknownStruct (id : StructId)
  /-- A named struct has another number of fields. -/
  | fieldCount (struct : String) (expected actual : Nat)
  /-- No function has this position. -/
  | danglingFunction (id : FunctionId)
  /-- No global has this position. -/
  | danglingGlobal (id : GlobalId)
  /-- The global was merged into another one. -/
  | mergedGlobal (name : String)
  /-- The target of an alias is no function. -/
  | aliasTarget (id : FunctionId)
  /-- The pointer width is no positive number of bytes. -/
  | pointerWidth (bits : Nat)
deriving Repr, Inhabited

/-- A fault and its place. -/
structure Finding where
  location : Location
  fault : Fault
deriving Repr, Inhabited

/-- The result of a verification: the faults in the order in which they were found. -/
structure Report where
  findings : List Finding := []
deriving Repr, Inhabited

/-! ## Wording -/

/-- How a location is printed. -/
def Location.text : Location → String
  | .module => "module"
  | .global name => "@" ++ name
  | .alias name => "alias @" ++ name

/-- How a slot is printed. -/
def Slot.text : Slot → String
  | .initializer => "initializer"
  | .field struct index => "%" ++ struct ++ " field " ++ toString index
  | .element index => "array element " ++ toString index

mutual

/-- The structural spelling of a storage type, with structs by position. -/
def Storage.spelling : Storage → String
  | .int bits => "Int(" ++ toString bits ++ ")"
  | .ptr => "Ptr"
  | .struct id => "Struct(StructId(" ++ toString id.index ++ "))"
  | .anon fields => "Anon([" ++ ", ".intercalate (Storage.spellings fields) ++ "])"
  | .array element count => "Array(" ++ element.spelling ++ ", " ++ toString count ++ ")"

/-- The structural spellings of storage types, in order. -/
def Storage.spellings : List Storage → List String
  | [] => []
  | t :: ts => t.spelling :: Storage.spellings ts

end

/-- What a fault says. -/
def Fault.message : Fault → String
  | .noInitializer => "global has no initializer"
  | .typeMismatch slot expected actual =>
    slot.text ++ ": expected " ++ expected.spelling ++ ", got " ++ actual.spelling
  | .integerWidth bits => "invalid integer width " ++ toString bits
  | .integerRange value bits =>
    "integer " ++ Bits.hexNumber value ++ " does not fit in " ++ toString bits ++ " bits"
  | .unknownStruct id => "unknown struct type #" ++ toString id.index
  | .fieldCount struct expected actual =>
    "%" ++ struct ++ " has " ++ toString expected ++ " fields, constant has " ++ toString actual
  | .danglingFunction id => "dangling function reference #" ++ toString id.index
  | .danglingGlobal id => "dangling global reference #" ++ toString id.index
  | .mergedGlobal name => "reference to merged global @" ++ name
  | .aliasTarget id => "alias target #" ++ toString id.index ++ " is not a function"
  | .pointerWidth bits => "invalid pointer width " ++ toString bits

/-- Whether nothing was found. -/
def Report.isOk (r : Report) : Bool := r.findings.isEmpty

/-- The report for a reader. -/
def Report.text (r : Report) : String :=
  if r.isOk then "verification passed"
  else
    "verification failed with " ++ toString r.findings.length ++ " error(s):\n" ++
      String.join (r.findings.map fun f =>
        "  [" ++ f.location.text ++ "] " ++ f.fault.message ++ "\n")

namespace Module

/-! ## Compatibility of types -/

mutual

/-- Whether a value of type `actual` may fill a slot of type `expected`, given which lists of types
match once a named struct has been opened. -/
def compatibleWith (m : Module) (opened : List Storage → List Storage → Bool) :
    (expected actual : Storage) → Bool
  | .int bits, actual => actual = .int bits || (actual = .ptr && bits == m.nativeBits)
  | .ptr, actual => actual = .ptr
  | .struct id, actual =>
    match actual with
    | .anon fields => opened (m.struct id).fields fields
    | actual => actual = .struct id
  | .anon slots, actual =>
    match actual with
    | .struct id => opened (m.struct id).fields slots
    | .anon fields => m.compatibleAllWith opened slots fields
    | _ => false
  | .array slot count, actual =>
    match actual with
    | .array element n => count == n && m.compatibleWith opened slot element
    | _ => false

/-- Whether values of the types `actual` may fill slots of the types `expected`, one by one. -/
def compatibleAllWith (m : Module) (opened : List Storage → List Storage → Bool) :
    (expected actual : List Storage) → Bool
  | [], actual => actual.isEmpty
  | slot :: slots, actual =>
    match actual with
    | [] => false
    | field :: fields =>
      m.compatibleWith opened slot field && m.compatibleAllWith opened slots fields

end

/-- Whether lists of types match when at most `depth` named structs are opened on the way down. -/
def compatibleWithin (m : Module) : (depth : Nat) → (expected actual : List Storage) → Bool
  | 0 => fun _ _ => false
  | depth + 1 => m.compatibleAllWith (m.compatibleWithin depth)

mutual

/-- The number of anonymous structs in a storage type. -/
def anonCount : Storage → Nat
  | .int _ | .ptr | .struct _ => 0
  | .anon fields => anonCounts fields + 1
  | .array element _ => anonCount element

/-- The number of anonymous structs in storage types. -/
def anonCounts : List Storage → Nat
  | [] => 0
  | t :: ts => anonCount t + anonCounts ts

end

/-- A bound for the number of different lists of field types in the structs of the module and in the
given types. -/
def fieldListCount (m : Module) (types : List Storage) : Nat :=
  m.structs.foldl (fun n s => n + anonCounts s.fields + 1) (anonCounts types)

/-- Whether lists of types match once a named struct has been opened. As long as no struct has to be
opened inside itself, no two lists of field types are compared inside a comparison of the same two
lists, so the number of pairs of lists bounds the depth. Where a struct has to be opened inside
itself, the comparison has no end; the answer `false` at the bound stands for this. -/
def opened (m : Module) (expected actual : List Storage) : Bool :=
  let lists := m.fieldListCount expected + m.fieldListCount actual
  m.compatibleWithin (lists * lists) expected actual

/-- Whether a value of type `actual` may fill a slot of type `expected`. -/
def compatible (m : Module) (expected actual : Storage) : Bool :=
  m.compatibleWith m.opened expected actual

/-! ## Faults of a constant -/

/-- The fault of a constant that does not have the type of its slot. -/
def slotFaults (m : Module) (slot : Slot) (expected : Storage) (c : Constant) : List Fault :=
  if m.compatible expected c.type then [] else [.typeMismatch slot expected c.type]

/-- The faults of an integer. -/
def integerFaults (bits : Nat) (value : UInt64) : List Fault :=
  if bits = 0 ∨ 64 < bits then [.integerWidth bits]
  else if Bits.lowBits value bits ≠ value then [.integerRange value bits]
  else []

/-- The faults of the fields of a named struct against its declaration. -/
def fieldFaults (m : Module) (id : StructId) (fields : List Constant) : List Fault :=
  let declared := (m.struct id).fields
  if declared.length ≠ fields.length then
    [.fieldCount (m.structName id) declared.length fields.length]
  else
    ((declared.zip fields).zipIdx.map fun ((slot, field), i) =>
      m.slotFaults (.field (m.structName id) i) slot field).flatten

/-- The faults of a reference to a global. -/
def globalFaults (m : Module) (id : GlobalId) : List Fault :=
  if m.globals.length ≤ id.index then [.danglingGlobal id]
  else if (m.global id).isRemoved then [.mergedGlobal (m.globalName id)]
  else []

mutual

/-- The faults inside a constant, in reading order. Of an aggregate that names no struct of the
module the fields are not looked at. -/
def constantFaults (m : Module) : Constant → List Fault
  | .int bits value _ => integerFaults bits value
  | .zeroed _ => []
  | .aggregate (some id) fields =>
    if m.structs.length ≤ id.index then [.unknownStruct id]
    else m.fieldFaults id fields ++ m.constantsFaults fields
  | .aggregate none fields => m.constantsFaults fields
  | .array element elements => m.elementFaults element 0 elements
  | .globalAddr id => m.globalFaults id
  | .functionAddr id => if m.functions.length ≤ id.index then [.danglingFunction id] else []

/-- The faults inside constants, in order. -/
def constantsFaults (m : Module) : List Constant → List Fault
  | [] => []
  | c :: cs => m.constantFaults c ++ m.constantsFaults cs

/-- The faults of array elements from position `i` on, each element's type before its inside. -/
def elementFaults (m : Module) (element : Storage) (i : Nat) : List Constant → List Fault
  | [] => []
  | c :: cs =>
    m.slotFaults (.element i) element c ++ m.constantFaults c ++ m.elementFaults element (i + 1) cs

end

/-! ## Faults of a module -/

/-- The faults of a live global. -/
def initializerFaults (m : Module) (g : Global) : List Fault :=
  match g.initializer with
  | none => [.noInitializer]
  | some contents => m.slotFaults .initializer g.type contents ++ m.constantFaults contents

/-- The faults of an alias. -/
def aliasFaults (m : Module) (a : FunctionAlias) : List Fault :=
  if m.functions.length ≤ a.target.index then [.aliasTarget a.target] else []

/-- The faults of the module as a whole. -/
def widthFaults (m : Module) : List Fault :=
  if m.nativeBits % 8 ≠ 0 ∨ m.nativeBits = 0 then [.pointerWidth m.nativeBits] else []

/-- Check a module: its live globals, its aliases, its pointer width. -/
def verify (m : Module) : Report where
  findings :=
    (m.live.flatMap fun (_, g) =>
      (m.initializerFaults g).map (Finding.mk (.global (m.symbol g.name)))) ++
    (m.aliases.flatMap fun a =>
      (m.aliasFaults a).map (Finding.mk (.alias (m.symbol a.name)))) ++
    m.widthFaults.map (Finding.mk .module)

end Module

end DataImage
