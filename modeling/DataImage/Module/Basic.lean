import DataImage.Module.Symbol
import DataImage.Module.Constant

/-!
# Modules

A module is what the image is made of: named structs, globals, declarations of functions that are
defined elsewhere, and aliases of functions. All four are lists that only grow, addressed by
position, and all names go through one symbol table.

A struct or function that is declared twice under one name keeps its first declaration. A global
never shares its name with another: it takes the first free name among `base`, `base.1`, `base.2`, …
Globals that stand for the same value are merged (`Module.merge`): one of the two is removed and
leaves a link to the other behind.
-/

namespace DataImage

/-- A named struct and the types of its fields. -/
structure StructType where
  name : SymbolId
  fields : List Storage
deriving Repr, Inhabited

/-- A place in memory with a name. -/
structure Global where
  name : SymbolId
  type : Storage
  /-- The contents, absent while the global only holds a place for a value to come. -/
  initializer : Option Constant := none
  /-- Whether the program never writes to it. -/
  constant : Bool := false
  /-- The global that stands for this one since the two were merged. -/
  mergedInto : Option GlobalId := none
deriving Repr, Inhabited

namespace Global

/-- Whether the contents are still to come. -/
def isPlaceholder (g : Global) : Bool := g.initializer.isNone

/-- Whether the global was merged into another one. -/
def isRemoved (g : Global) : Bool := g.mergedInto.isSome

/-- What a placeholder becomes when a global with contents is merged into it: it takes over type and
contents. A global that has contents keeps its own. -/
def adopt (into merged : Global) : Global :=
  match into.initializer, merged.initializer with
  | none, some contents => { into with type := merged.type, initializer := some contents }
  | _, _ => into

end Global

/-- A function that is defined elsewhere. -/
structure FunctionDecl where
  name : SymbolId
  params : List Storage
  result : Option Storage
deriving Repr, Inhabited

/-- One more name of a function. -/
structure FunctionAlias where
  name : SymbolId
  target : FunctionId
deriving Repr, Inhabited

/-- The contents of an image. -/
structure Module where
  name : String
  /-- The width of a pointer in bits. -/
  nativeBits : Nat
  symbols : SymbolTable := {}
  structs : List StructType := []
  globals : List Global := []
  /-- The names that are taken by globals, each with the global that took it. -/
  globalNames : List (SymbolId × GlobalId) := []
  functions : List FunctionDecl := []
  aliases : List FunctionAlias := []

namespace Module

/-- The name at a position of the symbol table. -/
def symbol (m : Module) (id : SymbolId) : String := m.symbols.name id

/-- Write a name into the symbol table. -/
def intern (m : Module) (name : String) : SymbolId × Module :=
  let (id, symbols) := m.symbols.intern name
  (id, { m with symbols })

/-! ## Structs -/

/-- The struct at a position. -/
def struct (m : Module) (id : StructId) : StructType := m.structs.getD id.index default

/-- The name of the struct at a position. -/
def structName (m : Module) (id : StructId) : String := m.symbol (m.struct id).name

/-- The struct declared under a symbol. -/
def structOfSymbol? (m : Module) (symbol : SymbolId) : Option StructId :=
  (m.structs.findIdx? (·.name = symbol)).map StructId.mk

/-- The struct declared under a name. -/
def findStruct? (m : Module) (name : String) : Option StructId :=
  (m.symbols.find? name).bind m.structOfSymbol?

/-- Declare a struct, unless one of that name is there already. -/
def declareStruct (m : Module) (name : String) (fields : List Storage) : StructId × Module :=
  let (symbol, m) := m.intern name
  match m.structOfSymbol? symbol with
  | some id => (id, m)
  | none => (⟨m.structs.length⟩, { m with structs := m.structs ++ [{ name := symbol, fields }] })

/-! ## Globals -/

/-- The global at a position, removed or not. -/
def global (m : Module) (id : GlobalId) : Global := m.globals.getD id.index default

/-- The name of the global at a position. -/
def globalName (m : Module) (id : GlobalId) : String := m.symbol (m.global id).name

/-- Whether the contents of a global are still to come. -/
def isPlaceholder (m : Module) (id : GlobalId) : Bool := (m.global id).isPlaceholder

/-- The globals with their positions, in order of creation. -/
def numbered (m : Module) : List (GlobalId × Global) :=
  m.globals.zipIdx.map fun (g, i) => (⟨i⟩, g)

/-- The globals that were not merged into another one, in order of creation. -/
def live (m : Module) : List (GlobalId × Global) :=
  m.numbered.filter fun (_, g) => !g.isRemoved

/-- The global that took a name. -/
def findGlobal? (m : Module) (name : String) : Option GlobalId :=
  (m.symbols.find? name).bind fun symbol => m.globalNames.lookup symbol

/-- The `n`-th name to try for a global: `base` itself, then `base.1`, `base.2`, … -/
def candidateName (base : String) : Nat → String
  | 0 => base
  | n + 1 => base ++ "." ++ toString (n + 1)

/-- The first candidate from the `n`-th on that no global took, looking at `tries` of them. Every
candidate looked at enters the symbol table. -/
def freeNameFrom (base : String) : (tries n : Nat) → Module → SymbolId × Module
  | 0, n, m => m.intern (candidateName base n)
  | tries + 1, n, m =>
    let (symbol, m) := m.intern (candidateName base n)
    if (m.globalNames.lookup symbol).isSome then freeNameFrom base tries (n + 1) m
    else (symbol, m)

/-- The first name among `base`, `base.1`, `base.2`, … that no global took. Of one more candidate
than there are taken names, one is free. -/
def freeName (m : Module) (base : String) : SymbolId × Module :=
  freeNameFrom base m.globalNames.length 0 m

/-- Add a global under the first free name. -/
def addGlobal (m : Module) (base : String) (type : Storage) (initializer : Option Constant) :
    GlobalId × Module :=
  let (name, m) := m.freeName base
  let id : GlobalId := ⟨m.globals.length⟩
  (id, { m with
    globals := m.globals ++ [{ name, type, initializer }]
    globalNames := (name, id) :: m.globalNames })

/-- Add a global whose contents are still to come. -/
def addPlaceholder (m : Module) (base : String) (type : Storage) : GlobalId × Module :=
  m.addGlobal base type none

/-- Add a global that holds a constant and has its type. -/
def addInitialized (m : Module) (base : String) (contents : Constant) : GlobalId × Module :=
  m.addGlobal base contents.type (some contents)

/-- Change the global at a position. -/
def updateGlobal (m : Module) (id : GlobalId) (change : Global → Global) : Module :=
  { m with globals := m.globals.modify id.index change }

/-- Give a global its contents. Its type stays. -/
def setInitializer (m : Module) (id : GlobalId) (contents : Constant) : Module :=
  m.updateGlobal id fun g => { g with initializer := some contents }

/-- Declare that the program never writes to a global. -/
def flagConstant (m : Module) (id : GlobalId) : Module :=
  m.updateGlobal id fun g => { g with constant := true }

/-! ## Merging -/

/-- Follow at most `steps` links from a merged global. -/
def resolveWithin (m : Module) : (steps : Nat) → GlobalId → GlobalId
  | 0, id => id
  | steps + 1, id =>
    match (m.global id).mergedInto with
    | some next => m.resolveWithin steps next
    | none => id

/-- The live global that stands for `id`. A chain of links that does not close visits each global at
most once. -/
def resolve (m : Module) (id : GlobalId) : GlobalId := m.resolveWithin m.globals.length id

/-- Remove the global `old`, let `new` stand for it, and redirect every address of `old`. -/
def merge (m : Module) (old new : GlobalId) : Module :=
  if old = new then m else
  let merged := m.global old
  let m := m.updateGlobal old fun g => { g with initializer := none, mergedInto := some new }
  let m := { m with globalNames := m.globalNames.filter (·.1 ≠ merged.name) }
  let m := m.updateGlobal new (Global.adopt · merged)
  { m with globals := m.globals.map fun g =>
      { g with initializer := g.initializer.map (·.redirect old new) } }

/-! ## Functions and aliases -/

/-- The function declaration at a position. -/
def function (m : Module) (id : FunctionId) : FunctionDecl := m.functions.getD id.index default

/-- The name of the function at a position. -/
def functionName (m : Module) (id : FunctionId) : String := m.symbol (m.function id).name

/-- Declare a function, unless one of that name is there already. -/
def declareFunction (m : Module) (name : String) (params : List Storage) (result : Option Storage) :
    FunctionId × Module :=
  let (symbol, m) := m.intern name
  match m.functions.findIdx? (·.name = symbol) with
  | some i => (⟨i⟩, m)
  | none =>
    (⟨m.functions.length⟩,
      { m with functions := m.functions ++ [{ name := symbol, params, result }] })

/-- Make `name` an alias of a function and of no other one. -/
def setAlias (m : Module) (name : String) (target : FunctionId) : Module :=
  let (symbol, m) := m.intern name
  { m with aliases := m.aliases.filter (·.name ≠ symbol) ++ [{ name := symbol, target }] }

end Module

end DataImage
