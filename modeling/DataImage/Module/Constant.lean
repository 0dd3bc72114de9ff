import DataImage.Bits
import DataImage.Module.Storage

/-!
# Constants

The initial contents of a global: integers, zeroed memory, aggregates of constants, and the
addresses of other globals and of functions. Every constant has a storage type of its own
(`Constant.type`), which need not be written down: only empty arrays and zeroed memory carry one.

* `Constant.globals` lists the globals whose address a constant holds, in reading order.
* `Constant.redirect` puts the address of one global in place of another's.
-/

namespace DataImage

/-- Position of a global in a module. -/
structure GlobalId where
  index : Nat
deriving DecidableEq, Repr, Inhabited

/-- Position of a function declaration in a module. -/
structure FunctionId where
  index : Nat
deriving DecidableEq, Repr, Inhabited

/-- A value known before the program runs. -/
inductive Constant where
  /-- An integer of `bits` bits. The sign only matters to its printed form. -/
  | int (bits : Nat) (value : UInt64) (signed : Bool)
  /-- All-zero memory of a type. -/
  | zeroed (type : Storage)
  /-- Fields one after the other, of the named struct if there is one. -/
  | aggregate (name : Option StructId) (fields : List Constant)
  /-- Elements one after the other, with their common type. -/
  | array (element : Storage) (elements : List Constant)
  /-- The address of a global. -/
  | globalAddr (id : GlobalId)
  /-- The address of a function. -/
  | functionAddr (id : FunctionId)
deriving Repr, Inhabited

namespace Constant

/-- The integer of `bits` bits that agrees with `value` there. -/
def ofWord (bits : Nat) (value : UInt64) (signed : Bool) : Constant :=
  .int bits (Bits.lowBits value bits) signed

/-- An aggregate of the named struct `id`. -/
def named (id : StructId) (fields : List Constant) : Constant := .aggregate (some id) fields

/-- An aggregate whose type is that of its fields. -/
def anon (fields : List Constant) : Constant := .aggregate none fields

mutual

/-- The storage type of a constant. -/
def type : Constant → Storage
  | .int bits _ _ => .int bits
  | .zeroed type => type
  | .aggregate (some id) _ => .struct id
  | .aggregate none fields => .anon (types fields)
  | .array element elements => .array element elements.length
  | .globalAddr _ => .ptr
  | .functionAddr _ => .ptr

/-- The storage types of constants, in order. -/
def types : List Constant → List Storage
  | [] => []
  | c :: cs => c.type :: types cs

end

theorem types_eq_map (cs : List Constant) : types cs = cs.map type := by
  induction cs with
  | nil => rfl
  | cons c cs ih => simp [types, ih]

/-- Whether this is zeroed memory. An integer zero is not. -/
def isZeroed : Constant → Bool
  | .zeroed _ => true
  | _ => false

mutual

/-- The globals whose address occurs, once for each place, in reading order. -/
def globals : Constant → List GlobalId
  | .globalAddr id => [id]
  | .aggregate _ fields => globalsAll fields
  | .array _ elements => globalsAll elements
  | .int .. | .zeroed _ | .functionAddr _ => []

/-- The globals whose address occurs in one of the constants. -/
def globalsAll : List Constant → List GlobalId
  | [] => []
  | c :: cs => c.globals ++ globalsAll cs

end

theorem globalsAll_eq_flatMap (cs : List Constant) : globalsAll cs = cs.flatMap globals := by
  induction cs with
  | nil => rfl
  | cons c cs ih => simp [globalsAll, ih]

mutual

/-- The constant with every address of `old` replaced by that of `new`. -/
def redirect (old new : GlobalId) : Constant → Constant
  | .globalAddr id => .globalAddr (if id = old then new else id)
  | .aggregate name fields => .aggregate name (redirectAll old new fields)
  | .array element elements => .array element (redirectAll old new elements)
  | .int bits value signed => .int bits value signed
  | .zeroed type => .zeroed type
  | .functionAddr id => .functionAddr id

/-- The constants with every address of `old` replaced by that of `new`. -/
def redirectAll (old new : GlobalId) : List Constant → List Constant
  | [] => []
  | c :: cs => c.redirect old new :: redirectAll old new cs

end

theorem redirectAll_eq_map (old new : GlobalId) (cs : List Constant) :
    redirectAll old new cs = cs.map (redirect old new) := by
  induction cs with
  | nil => rfl
  | cons c cs ih => simp [redirectAll, ih]

/-- In how many places the address of `id` occurs. -/
def mentions (c : Constant) (id : GlobalId) : Nat := c.globals.count id

end Constant

end DataImage
