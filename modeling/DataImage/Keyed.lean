/-!
# Lists of pairs as finite maps

Small maps whose order matters: a key stands where it was first put, and keeps that place when it
gets another value. `List.lookup` reads them.
-/

namespace DataImage.Keyed

variable {κ ν : Type} [DecidableEq κ]

/-- Give `key` the value `value`: in its place if it is there, else at the end. -/
def put (key : κ) (value : ν) : List (κ × ν) → List (κ × ν)
  | [] => [(key, value)]
  | (k, v) :: rest => if k = key then (k, value) :: rest else (k, v) :: put key value rest

theorem lookup_put (key other : κ) (value : ν) (entries : List (κ × ν)) :
    (put key value entries).lookup other =
      if other = key then some value else entries.lookup other := by
  induction entries with
  | nil =>
    by_cases h : other = key
    · simp [put, h]
    · simp [put, h, List.lookup_cons, beq_eq_false_iff_ne.2 h]
  | cons e rest ih =>
    obtain ⟨k, v⟩ := e
    by_cases hk : k = key
    · subst hk
      by_cases h : other = k
      · simp [put, h]
      · simp [put, h, List.lookup_cons, beq_eq_false_iff_ne.2 h]
    · by_cases h : other = k
      · subst h
        simp [put, hk]
      · simp [put, hk, List.lookup_cons, beq_eq_false_iff_ne.2 h, ih]

end DataImage.Keyed
