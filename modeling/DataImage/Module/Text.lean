import DataImage.Module.Basic
import DataImage.Text.Quoted

/-!
# The text of a module

The readable form of a module: a heading, then the structs, the globals, the function declarations
and the aliases, each kind in order of creation and set off by a blank line. Every constant is
printed after its type, and an address goes by the name of the live global.

* `Module.text` is the whole form.
* `Module.constantText` and `Module.storageText` print a single constant or type.
* `Module.summary` is one line with the name and the sizes.
-/

namespace DataImage.Module

/-- Parts between braces, or empty braces if there is none. -/
def braced : List String → String
  | [] => "\x7b\x7d"
  | parts => "\x7b " ++ ", ".intercalate parts ++ " \x7d"

mutual

/-- The text of a storage type. -/
def storageText (m : Module) : Storage → String
  | .int bits => "i" ++ toString bits
  | .ptr => "ptr"
  | .struct id => "%" ++ m.structName id
  | .anon fields => braced (m.storageTexts fields)
  | .array element count => "[" ++ toString count ++ " x " ++ m.storageText element ++ "]"

/-- The texts of storage types, in order. -/
def storageTexts (m : Module) : List Storage → List String
  | [] => []
  | t :: ts => m.storageText t :: m.storageTexts ts

end

/-- The digits of an integer constant: read with a sign at its width, or without one as stored. -/
def integerText (bits : Nat) (value : UInt64) (signed : Bool) : String :=
  if signed then toString (Bits.signedValue value bits) else toString value.toNat

mutual

/-- The text of a constant, its type first. -/
def constantText (m : Module) : Constant → String
  | .int bits value signed => "i" ++ toString bits ++ " " ++ integerText bits value signed
  | .zeroed type => m.storageText type ++ " zeroinitializer"
  | .aggregate name fields =>
    m.storageText (Constant.aggregate name fields).type ++ " " ++ braced (m.constantTexts fields)
  | .array element elements =>
    m.storageText (.array element elements.length) ++ " [" ++
      ", ".intercalate (m.constantTexts elements) ++ "]"
  | .globalAddr id => "ptr @" ++ m.globalName (m.resolve id)
  | .functionAddr id => "ptr @" ++ m.functionName id

/-- The texts of constants, in order. -/
def constantTexts (m : Module) : List Constant → List String
  | [] => []
  | c :: cs => m.constantText c :: m.constantTexts cs

end

/-- The line that defines a struct. A struct without fields keeps the blanks inside its braces. -/
def structLine (m : Module) (s : StructType) : String :=
  "%" ++ m.symbol s.name ++ " = type \x7b " ++ ", ".intercalate (m.storageTexts s.fields) ++
    " \x7d\n"

/-- The line that defines a global. -/
def globalLine (m : Module) (g : Global) : String :=
  "@" ++ m.symbol g.name ++ " = " ++ (if g.constant then "constant " else "global ") ++
    (match g.initializer with
      | some contents => m.constantText contents
      | none => m.storageText g.type ++ " uninitialized") ++ "\n"

/-- The line that declares a function. -/
def functionLine (m : Module) (f : FunctionDecl) : String :=
  "declare @" ++ m.symbol f.name ++ "(" ++ ", ".intercalate (m.storageTexts f.params) ++ ")" ++
    (match f.result with
      | some result => " -> " ++ m.storageText result
      | none => "") ++ "\n"

/-- The line that defines an alias. -/
def aliasLine (m : Module) (a : FunctionAlias) : String :=
  "alias @" ++ m.symbol a.name ++ " = @" ++ m.functionName a.target ++ "\n"

/-- Lines after a blank one, or nothing if there are none. -/
def block : List String → String
  | [] => ""
  | lines => "\n" ++ String.join lines

/-- The whole module as text. -/
def text (m : Module) : String :=
  "; module " ++ m.name ++ " (native int " ++ toString m.nativeBits ++ ")\n" ++
    block (m.structs.map m.structLine) ++
    block (m.live.map fun (_, g) => m.globalLine g) ++
    block (m.functions.map m.functionLine) ++
    block (m.aliases.map m.aliasLine)

/-- The name and the sizes of a module on one line. -/
def summary (m : Module) : String :=
  let count (n : Nat) (what : String) := Text.quote ("[" ++ toString n ++ " " ++ what ++ "]")
  "Module \x7b name: " ++ Text.quote m.name ++
    ", native_int_size: " ++ toString m.nativeBits ++
    ", symbols: " ++ count m.symbols.size "symbols" ++
    ", structs: " ++ count m.structs.length "types" ++
    ", globals: " ++ count m.live.length "globals" ++
    ", functions: " ++ count m.functions.length "functions" ++
    ", aliases: " ++ toString m.aliases.length ++ " \x7d"

end DataImage.Module
