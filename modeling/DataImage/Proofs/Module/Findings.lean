import DataImage.Proofs.Bits
import DataImage.Proofs.Module.Verifying

/-!
# Every flaw has a finding

A verification collects what it finds, so a fault hides no other one. For the faults that a constant
has by itself, apart from its type and from its parts, this is an equation: of the findings of a
module those that are such flaws are the flaws of the constants in it, each once, in reading order
(`Module.flaws_of_verify`).

* `Constant.nodes` lists a constant with everything inside it.
* `Module.flaw?` is the flaw of a single constant. It looks at no part of it.
* `Module.reached` lists the constants that a verification looks at: it does not enter an aggregate
  that names no struct of the module.

For that one kind of aggregate the promise is not kept. What is wrong inside it is found only once
the struct is known.
-/

namespace DataImage

namespace Constant

variable {enter : Constant → Bool}

mutual

/-- A constant and everything inside it, in reading order, without what is inside the constants that
`enter` refuses. -/
def nodesWhere (enter : Constant → Bool) : Constant → List Constant
  | .aggregate name fields =>
    .aggregate name fields ::
      if enter (.aggregate name fields) then nodesWhereAll enter fields else []
  | .array element elements =>
    .array element elements ::
      if enter (.array element elements) then nodesWhereAll enter elements else []
  | c => [c]

/-- Constants and everything inside them, in order. -/
def nodesWhereAll (enter : Constant → Bool) : List Constant → List Constant
  | [] => []
  | c :: cs => nodesWhere enter c ++ nodesWhereAll enter cs

end

/-- A constant and everything inside it, in reading order. -/
def nodes (c : Constant) : List Constant := nodesWhere (fun _ => true) c

/-- A constant is the first of its nodes. -/
theorem mem_nodesWhere_self (c : Constant) : c ∈ nodesWhere enter c := by
  cases c <;> simp [nodesWhere]

mutual

/-- What refuses none of the nodes leaves none of them out. -/
theorem nodesWhere_eq_nodes : (c : Constant) → (∀ n ∈ c.nodes, enter n = true) →
    nodesWhere enter c = c.nodes
  | .aggregate name fields, h => by
    have hself : enter (.aggregate name fields) = true := h _ (mem_nodesWhere_self _)
    simp only [nodes, nodesWhere, hself, if_true] at h ⊢
    rw [nodesWhereAll_eq fields fun n hn => h n (List.mem_cons_of_mem _ hn)]
  | .array element elements, h => by
    have hself : enter (.array element elements) = true := h _ (mem_nodesWhere_self _)
    simp only [nodes, nodesWhere, hself, if_true] at h ⊢
    rw [nodesWhereAll_eq elements fun n hn => h n (List.mem_cons_of_mem _ hn)]
  | .int .., _ | .zeroed _, _ | .globalAddr _, _ | .functionAddr _, _ => rfl

theorem nodesWhereAll_eq : (cs : List Constant) →
    (∀ n ∈ nodesWhereAll (fun _ => true) cs, enter n = true) →
    nodesWhereAll enter cs = nodesWhereAll (fun _ => true) cs
  | [], _ => rfl
  | c :: cs, h => by
    rw [nodesWhereAll, nodesWhereAll,
      nodesWhere_eq_nodes c fun n hn => h n (List.mem_append_left _ hn),
      nodesWhereAll_eq cs fun n hn => h n (List.mem_append_right _ hn)]
    rfl

end

end Constant

/-- Whether a fault is that of one constant alone: neither that of a slot and its contents nor one
of the module. -/
def Fault.isFlaw : Fault → Bool
  | .integerWidth _ | .integerRange .. | .unknownStruct _ | .fieldCount .. | .danglingFunction _
  | .danglingGlobal _ | .mergedGlobal _ => true
  | .noInitializer | .typeMismatch .. | .aliasTarget _ | .pointerWidth _ => false

namespace Module

variable {m : Module}

/-- Whether a constant is no aggregate of a struct that the module does not have. -/
def knows (m : Module) : Constant → Bool
  | .aggregate (some id) _ => decide (id.index < m.structs.length)
  | _ => true

/-- What is wrong with a constant by itself. -/
def flaw? (m : Module) : Constant → Option Fault
  | .int bits value _ =>
    if bits = 0 ∨ 64 < bits then some (.integerWidth bits)
    else if 2 ^ bits ≤ value.toNat then some (.integerRange value bits)
    else none
  | .aggregate (some id) fields =>
    if m.structs.length ≤ id.index then some (.unknownStruct id)
    else if fields.length ≠ (m.struct id).fields.length then
      some (.fieldCount (m.structName id) (m.struct id).fields.length fields.length)
    else none
  | .globalAddr id =>
    if m.globals.length ≤ id.index then some (.danglingGlobal id)
    else if (m.global id).mergedInto ≠ none then some (.mergedGlobal (m.globalName id))
    else none
  | .functionAddr id =>
    if m.functions.length ≤ id.index then some (.danglingFunction id) else none
  | .zeroed _ | .aggregate none _ | .array .. => none

/-- The constants inside `c` that a verification looks at, in reading order. -/
def reached (m : Module) (c : Constant) : List Constant := c.nodesWhere m.knows

/-- The flaws of constants in a list, in order. -/
def flaws (m : Module) (nodes : List Constant) : List Fault := nodes.filterMap m.flaw?

@[simp] theorem flaws_nil : m.flaws [] = [] := rfl

@[simp] theorem flaws_append (as bs : List Constant) :
    m.flaws (as ++ bs) = m.flaws as ++ m.flaws bs :=
  List.filterMap_append

theorem flaws_cons (a : Constant) (as : List Constant) :
    m.flaws (a :: as) = (m.flaw? a).toList ++ m.flaws as := by
  unfold flaws
  cases h : m.flaw? a <;> simp [h]

theorem flaws_singleton (a : Constant) : m.flaws [a] = (m.flaw? a).toList := by
  rw [flaws_cons, flaws_nil, List.append_nil]

/-! ## One constant -/

/-- A fault of a slot is no flaw. -/
@[simp] theorem filter_slotFaults (slot : Slot) (expected : Storage) (c : Constant) :
    (m.slotFaults slot expected c).filter Fault.isFlaw = [] := by
  unfold slotFaults
  split <;> simp [Fault.isFlaw]

/-- The integers that lose bits when cut to their width are those that have bits above it. -/
theorem lowBits_ne_iff {bits : Nat} (value : UInt64) (h : bits ≤ 64) :
    Bits.lowBits value bits ≠ value ↔ 2 ^ bits ≤ value.toNat := by
  rcases Nat.lt_or_eq_of_le h with hlt | rfl
  · rw [Ne, ← UInt64.toNat_inj, Bits.toNat_lowBits hlt,
      Nat.mod_eq_iff_lt (Nat.two_pow_pos bits).ne', Nat.not_lt]
  · have hvalue : value.toNat < 2 ^ 64 := value.toNat_lt
    rw [Bits.lowBits, if_pos h]
    exact iff_of_false (not_not.2 rfl) (Nat.not_le.2 hvalue)

theorem filter_integerFaults (bits : Nat) (value : UInt64) (signed : Bool) :
    (integerFaults bits value).filter Fault.isFlaw =
      (m.flaw? (.int bits value signed)).toList := by
  rw [integerFaults, flaw?]
  by_cases hwidth : bits = 0 ∨ 64 < bits
  · rw [if_pos hwidth, if_pos hwidth]
    rfl
  · have hle : bits ≤ 64 := by omega
    rw [if_neg hwidth, if_neg hwidth]
    by_cases hrange : 2 ^ bits ≤ value.toNat
    · rw [if_pos ((lowBits_ne_iff value hle).2 hrange), if_pos hrange]
      rfl
    · rw [if_neg fun h => hrange ((lowBits_ne_iff value hle).1 h), if_neg hrange]
      rfl

/-- Of the faults of an aggregate against the declaration of its struct, only a wrong number of
fields is a flaw. -/
theorem filter_fieldFaults {id : StructId} (h : id.index < m.structs.length)
    (fields : List Constant) :
    (m.fieldFaults id fields).filter Fault.isFlaw =
      (m.flaw? (.aggregate (some id) fields)).toList := by
  rw [fieldFaults, flaw?, if_neg (Nat.not_le.2 h)]
  by_cases hcount : (m.struct id).fields.length = fields.length
  · rw [if_neg (not_not.2 hcount), if_neg (not_not.2 hcount.symm), List.filter_flatten,
      List.map_map]
    simp [Function.comp_def]
  · rw [if_pos hcount, if_pos (Ne.symm hcount)]
    rfl

theorem filter_globalFaults (id : GlobalId) :
    (m.globalFaults id).filter Fault.isFlaw = (m.flaw? (.globalAddr id)).toList := by
  rw [globalFaults, flaw?, Global.isRemoved]
  split
  · rfl
  · cases (m.global id).mergedInto <;> rfl

mutual

/-- The faults in a constant that are flaws: those of the constants that are reached, each once. -/
theorem filter_constantFaults : (c : Constant) →
    (m.constantFaults c).filter Fault.isFlaw = m.flaws (m.reached c)
  | .int bits value signed => by
    rw [constantFaults, filter_integerFaults (m := m) bits value signed]
    exact (flaws_singleton _).symm
  | .zeroed _ => rfl
  | .aggregate (some id) fields => by
    rw [constantFaults, reached, Constant.nodesWhere, flaws_cons]
    by_cases hid : m.structs.length ≤ id.index
    · -- the only kind of constant that is not entered
      have hknows : m.knows (.aggregate (some id) fields) = false := by simpa [knows] using hid
      rw [if_pos hid, hknows, flaw?, if_pos hid]
      rfl
    · have hlt : id.index < m.structs.length := Nat.not_le.1 hid
      have hknows : m.knows (.aggregate (some id) fields) = true := by simpa [knows] using hlt
      rw [if_neg hid, List.filter_append, filter_fieldFaults hlt, filter_constantsFaults fields,
        hknows, if_pos rfl]
  | .aggregate none fields => by
    rw [constantFaults, filter_constantsFaults fields]
    exact (flaws_cons (.aggregate none fields) _).symm
  | .array element elements => by
    rw [constantFaults, filter_elementFaults element 0 elements]
    exact (flaws_cons (.array element elements) _).symm
  | .globalAddr id => by
    rw [constantFaults, filter_globalFaults]
    exact (flaws_singleton _).symm
  | .functionAddr id => by
    refine Eq.trans ?_ (flaws_singleton (.functionAddr id)).symm
    rw [constantFaults, flaw?]
    split <;> rfl

theorem filter_constantsFaults : (cs : List Constant) →
    (m.constantsFaults cs).filter Fault.isFlaw = m.flaws (Constant.nodesWhereAll m.knows cs)
  | [] => rfl
  | c :: cs => by
    rw [constantsFaults, List.filter_append, filter_constantFaults c, filter_constantsFaults cs,
      Constant.nodesWhereAll, flaws_append]
    rfl

/-- Of array elements, whatever their type should have been. -/
theorem filter_elementFaults (element : Storage) (i : Nat) : (cs : List Constant) →
    (m.elementFaults element i cs).filter Fault.isFlaw =
      m.flaws (Constant.nodesWhereAll m.knows cs)
  | [] => rfl
  | c :: cs => by
    rw [elementFaults, List.filter_append, List.filter_append, filter_slotFaults, List.nil_append,
      filter_constantFaults c, filter_elementFaults element (i + 1) cs, Constant.nodesWhereAll,
      flaws_append]
    rfl

end

/-! ## A module -/

/-- The flaws in the contents of a live global: those of the constants that are reached. -/
theorem filter_initializerFaults (g : Global) :
    (m.initializerFaults g).filter Fault.isFlaw =
      g.initializer.toList.flatMap fun c => m.flaws (m.reached c) := by
  unfold initializerFaults
  cases g.initializer with
  | none => rfl
  | some c =>
    simp only [Option.toList_some, List.flatMap_singleton, List.filter_append, filter_slotFaults,
      List.nil_append, filter_constantFaults]

theorem filter_aliasFaults (a : FunctionAlias) : (m.aliasFaults a).filter Fault.isFlaw = [] := by
  unfold aliasFaults
  split <;> rfl

theorem filter_widthFaults : m.widthFaults.filter Fault.isFlaw = [] := by
  unfold widthFaults
  split <;> rfl

/-- Findings at one place, of which only the flaws are kept. -/
theorem filter_map_finding (location : Location) (faults : List Fault) :
    (faults.map (Finding.mk location)).filter (fun f => f.fault.isFlaw) =
      (faults.filter Fault.isFlaw).map (Finding.mk location) := by
  rw [List.filter_map]
  rfl

/-- **A verification finds every flaw.** The findings that are flaws are, global by global and in
reading order, those of the constants that are reached in the contents of the live globals, each one
with the global's name: whatever else is found, none is left out and none is found twice. In
contents that name no unknown struct every constant is reached. -/
theorem flaws_of_verify (m : Module) :
    m.verify.findings.filter (fun f => f.fault.isFlaw) =
        (m.live.flatMap fun (_, g) => g.initializer.toList.flatMap fun c =>
          ((m.reached c).filterMap m.flaw?).map (Finding.mk (.global (m.symbol g.name)))) ∧
      ∀ c : Constant, (∀ n ∈ c.nodes, ∀ id fields, n = .aggregate (some id) fields →
        id.index < m.structs.length) → m.reached c = c.nodes := by
  constructor
  · have hglobals : ∀ e : GlobalId × Global,
        ((m.initializerFaults e.2).map (Finding.mk (.global (m.symbol e.2.name)))).filter
            (fun f => f.fault.isFlaw) =
          e.2.initializer.toList.flatMap fun c =>
            (m.flaws (m.reached c)).map (Finding.mk (.global (m.symbol e.2.name))) := fun e => by
      rw [filter_map_finding, filter_initializerFaults, List.map_flatMap]
    have haliases : ∀ a : FunctionAlias,
        ((m.aliasFaults a).map (Finding.mk (.alias (m.symbol a.name)))).filter
          (fun f => f.fault.isFlaw) = [] := fun a => by
      rw [filter_map_finding, filter_aliasFaults, List.map_nil]
    simp only [verify, List.filter_append, List.filter_flatMap, hglobals, haliases]
    rw [filter_map_finding, filter_widthFaults, List.map_nil, List.append_nil,
      List.flatMap_eq_nil_iff.2 fun _ _ => rfl, List.append_nil]
    rfl
  · intro c hc
    refine Constant.nodesWhere_eq_nodes c fun n hn => ?_
    unfold knows
    split
    · exact decide_eq_true (hc _ hn _ _ rfl)
    · rfl

/-- A module with a global that holds an aggregate of a struct that is not there, and in it an
integer without width. -/
def misnamed : Module where
  name := "Misnamed"
  nativeBits := 32
  symbols := { names := ["g"], nodup := by decide }
  globals := [{ name := ⟨0⟩, type := .struct ⟨7⟩
                initializer := some (.named ⟨7⟩ [.int 0 0 false]) }]

/-- Inside an aggregate of an unknown struct a flaw is not found. -/
theorem flaw_not_found_misnamed :
    ∃ e ∈ misnamed.live, ∃ c, e.2.initializer = some c ∧ ∃ n ∈ c.nodes,
      misnamed.flaw? n = some (.integerWidth 0) ∧
      ⟨.global (misnamed.symbol e.2.name), .integerWidth 0⟩ ∉ misnamed.verify.findings := by
  refine ⟨_, List.mem_cons_self, .named ⟨7⟩ [.int 0 0 false], rfl, .int 0 0 false, ?_, rfl, ?_⟩
  · exact List.mem_cons_of_mem _ List.mem_cons_self
  · have hfound : misnamed.verify.findings = [⟨.global "g", .unknownStruct ⟨7⟩⟩] := rfl
    rw [hfound]
    simp

end Module

end DataImage
