/-!
# Storage types

The types that data has once it lies in memory: integers without sign, pointers without target, and
aggregates. A named aggregate is a position in the module's list of structs; an anonymous one is
known by its fields alone.
-/

namespace DataImage

/-- Position of a named struct in a module. -/
structure StructId where
  index : Nat
deriving DecidableEq, Repr, Inhabited

/-- The type of a piece of memory. -/
inductive Storage where
  /-- An integer of the given width in bits. -/
  | int (bits : Nat)
  /-- An address of data or code. -/
  | ptr
  /-- A struct that the module names. -/
  | struct (id : StructId)
  /-- A struct known by its fields. -/
  | anon (fields : List Storage)
  /-- Elements of one type, one after the other. -/
  | array (element : Storage) (count : Nat)
deriving Repr, Inhabited

namespace Storage

mutual

/-- Whether two storage types are equal. -/
def same : Storage → Storage → Bool
  | .int a, .int b => a == b
  | .ptr, .ptr => true
  | .struct a, .struct b => a == b
  | .anon a, .anon b => sameAll a b
  | .array a n, .array b m => same a b && n == m
  | _, _ => false

/-- Whether two lists of storage types are equal. -/
def sameAll : List Storage → List Storage → Bool
  | [], [] => true
  | a :: as, b :: bs => same a b && sameAll as bs
  | _, _ => false

end

mutual

theorem same_refl : (a : Storage) → same a a = true
  | .int _ | .ptr | .struct _ => by simp [same]
  | .anon fields => by simpa [same] using sameAll_refl fields
  | .array element _ => by simpa [same] using same_refl element

theorem sameAll_refl : (as : List Storage) → sameAll as as = true
  | [] => rfl
  | a :: as => by simp [sameAll, same_refl a, sameAll_refl as]

end

mutual

theorem eq_of_same : {a b : Storage} → same a b = true → a = b
  | .int _, b, h => by cases b <;> simp_all [same]
  | .ptr, b, h => by cases b <;> simp_all [same]
  | .struct _, b, h => by cases b <;> simp_all [same]
  | .anon as, b, h => by
    cases b with
    | anon bs =>
      have fields : as = bs := eq_of_sameAll (by simpa [same] using h)
      rw [fields]
    | _ => simp [same] at h
  | .array a n, b, h => by
    cases b with
    | array b m =>
      simp only [same, Bool.and_eq_true, beq_iff_eq] at h
      rw [eq_of_same h.1, h.2]
    | _ => simp [same] at h

theorem eq_of_sameAll : {as bs : List Storage} → sameAll as bs = true → as = bs
  | [], bs, h => by cases bs <;> simp_all [sameAll]
  | a :: as, bs, h => by
    cases bs with
    | nil => simp [sameAll] at h
    | cons b bs =>
      simp only [sameAll, Bool.and_eq_true] at h
      rw [eq_of_same h.1, eq_of_sameAll h.2]

end

theorem same_iff {a b : Storage} : same a b = true ↔ a = b :=
  ⟨eq_of_same, fun h => h ▸ same_refl a⟩

instance : DecidableEq Storage := fun _ _ => decidable_of_iff _ same_iff

/-- Whether a value of this type has parts. -/
def isAggregate : Storage → Bool
  | .struct _ | .anon _ | .array .. => true
  | .int _ | .ptr => false

end Storage

end DataImage
