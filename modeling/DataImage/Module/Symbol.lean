/-!
# Symbol tables

A module writes each name once and refers to it by position. The table only grows, and a name that
is already there keeps its position, so a `SymbolId` never changes its meaning.
-/

namespace DataImage

/-- Position of a name in a symbol table. -/
structure SymbolId where
  index : Nat
deriving DecidableEq, Repr, Inhabited

/-- The distinct names in use, in the order in which they were first written. -/
structure SymbolTable where
  names : List String := []
  nodup : names.Nodup := by exact List.nodup_nil

namespace SymbolTable

/-- The table without names. -/
def empty : SymbolTable := {}

/-- The number of names. -/
def size (t : SymbolTable) : Nat := t.names.length

/-- The position of `name`, if it is in the table. -/
def find? (t : SymbolTable) (name : String) : Option SymbolId :=
  (t.names.idxOf? name).map SymbolId.mk

/-- The name at a position, and the empty name outside the table. -/
def name (t : SymbolTable) (id : SymbolId) : String :=
  t.names.getD id.index ""

/-- The position of `name`, which is added at the end if it is new. -/
def intern (t : SymbolTable) (name : String) : SymbolId × SymbolTable :=
  if h : name ∈ t.names then
    (⟨t.names.idxOf name⟩, t)
  else
    (⟨t.names.length⟩,
      { names := t.names ++ [name]
        nodup := List.nodup_append.2 ⟨t.nodup, by simp, by
          intro a ha b hb
          simp only [List.mem_singleton] at hb
          subst hb
          rintro rfl
          exact h ha⟩ })

end SymbolTable

end DataImage
