import DataImage.Proofs.Description.Translation

/-!
# What declared types mean

In a blueprint, every described type means what its entry says, unless its name was taken, and has
the fields that are listed; names with array marks denote array types (`Description.Introduces`,
`Description.declares_of_blueprint`). A type whose name is taken is not refused: it is ignored
(`Description.not_declares_twice`).
-/

namespace DataImage.Description

variable {d : Description} {p : Nat} {c : Catalog} {b : Blueprint}

/-- Whether a description needs the type of a name. The element type of an array type is needed
unless the name of the array type is that of a described type. -/
inductive Uses (d : Description) : String → Prop where
  | base {e : TypeEntry} {n : String} (mem : e ∈ d.types) (shape : e.shape = .class (some n)) :
    Uses d n
  | mention {n : String} (mentioned : d.Mentions n) : Uses d n
  | element {n : String} (array : Uses d (n ++ "[]"))
    (undescribed : ¬ ListsType d.types (n ++ "[]")) : Uses d n

/-- **What a catalog has of the types that a description lists**, for pointers of `p` bytes. -/
structure Introduces (d : Description) (p : Nat) (c : Catalog) : Prop where
  means : ∀ before e after, d.types = before ++ e :: after → ¬ NameTaken p before e →
    ∃ t, c.findType? e.name = some t ∧ Means c e t
  fields : ∀ e ∈ d.types, ∃ t, c.findType? e.name = some t ∧ ∀ f ∈ e.fields, HasField c t f
  names : ∀ n, d.Uses n → IsTypeName c n
  arrays : ∀ n, d.Uses (n ++ "[]") → ¬ ListsType d.types (n ++ "[]") →
    ∃ t u, c.findType? (n ++ "[]") = some t ∧ c.findType? n = some u ∧
      (c.typeDef t).kind = .array u

theorem Ready.declares {names : Names} (h : Ready d p names c) : d.Introduces p c := by
  have hsettled := h.placed.settled
  have array : ∀ n, ¬ ListsType d.types (n ++ "[]") → IsTypeName c (n ++ "[]") →
      ∃ t u, c.findType? (n ++ "[]") = some t ∧ c.findType? n = some u ∧
        (c.typeDef t).kind = .array u := by
    rintro n hundescribed ⟨t, ht⟩
    obtain ⟨u, hu, hkind⟩ := kind_of_findType?_array hsettled.standing hundescribed ht
    rw [← hsettled.rooted.typeDef_eq] at hkind
    exact ⟨t, u, ht, hu, hkind⟩
  have hnames : ∀ n, d.Uses n → IsTypeName c n := by
    intro n hn
    induction hn with
    | base mem shape => exact hsettled.bases _ mem _ shape
    | mention mentioned => exact h.mentions _ mentioned
    | element _ undescribed ih =>
      obtain ⟨t, u, -, hu, -⟩ := array _ undescribed ih
      exact ⟨u, hu⟩
  exact ⟨hsettled.means, h.fields, hnames, fun n hn hundescribed =>
    array n hundescribed (hnames _ hn)⟩

/-- Values and code pointers have no part in what types mean. -/
theorem Introduces.alters {T : DescriptorId → Prop} {c' : Catalog} (h : d.Introduces p c)
    (ha : c.Alters T c') : d.Introduces p c' := by
  obtain ⟨descriptors, codePointers, rfl⟩ := ha.same
  refine ⟨fun before e after heq htaken => ?_, h.fields, h.names, h.arrays⟩
  obtain ⟨t, ht, size, shape⟩ := h.means before e after heq htaken
  exact ⟨t, ht, size, shape.imp fun _ _ hn => hn⟩

/-- **Every described type whose name is free means what it says.** -/
theorem declares_of_blueprint (h : d.blueprint p = .ok b) : d.Introduces p b.catalog := by
  obtain ⟨names, c₀, hbuilt⟩ := built_of_blueprint h
  exact hbuilt.ready.declares.alters hbuilt.alters

/-- A class whose instances refer to an array of instances. -/
def node : Description where
  types := [
    { name := "Node", shape := .class none, size := 12,
      fields := [{ name := "Kin", offset := 8, type := "Node[]" }] }]
  values := [
    { name := "root", isMutable := true, body := .object "Node" [("Kin", .value "kin")] },
    { name := "kin", body := .array "Node[]" (some [.value "root", .null]) none none }]
  roots := ["root"]

theorem declares_of_blueprint_node :
    ∃ b, node.blueprint 4 = .ok b ∧ node.Introduces 4 b.catalog := by
  have hok : (node.blueprint 4).isOk = true := by decide +kernel
  cases h : node.blueprint 4 with
  | error err => rw [h] at hok; cases hok
  | ok b => exact ⟨b, rfl, declares_of_blueprint h⟩

/-! ## Names that are taken -/

/-- Two integer types of one name. -/
def twice : Description where
  types := [
    { name := "A", shape := .scalar false, size := 4 },
    { name := "A", shape := .scalar false, size := 8 }]

/-- **A type whose name is taken is ignored.** -/
theorem not_declares_twice : ∃ b, twice.blueprint 4 = .ok b ∧
    ∃ e ∈ twice.types, ∀ t, b.catalog.findType? e.name = some t → ¬ Means b.catalog e t := by
  have hcheck : (match twice.blueprint 4 with
      | .error _ => false
      | .ok b => (b.catalog.findType? "A").all fun t => (b.catalog.typeDef t).size = 4) = true := by
    decide +kernel
  cases h : twice.blueprint 4 with
  | error err => rw [h] at hcheck; cases hcheck
  | ok b =>
    refine ⟨b, rfl, { name := "A", shape := .scalar false, size := 8 }, by decide, ?_⟩
    intro t ht hmeans
    have hsize := hmeans.size
    rw [h] at hcheck
    dsimp only at ht hcheck
    rw [ht, Option.all_some, decide_eq_true_eq, hsize] at hcheck
    cases hcheck

end DataImage.Description
