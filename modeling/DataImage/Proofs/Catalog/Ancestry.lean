import DataImage.Image.Content
import DataImage.Proofs.Catalog.Lineage
import Mathlib.Data.List.Chain

/-!
# The walk up on every graph of bases

Bases may lead anywhere: in circles, to nothing, to integers, arrays or value types. The walk up
from a type is a loop without a bound, written down here as the relation `Catalog.Climbs`. It ends
for every type, with the result of `Catalog.ancestry` (`climbs_iff`), since it passes no class
twice.

* Its result is the chain of ancestors exactly if the bases lead through classes to a top, the root
  class or a value type (`exists_ancestry_iff`, `isAncestorChain_of_ancestry`).
* Otherwise the bases lead to something that is no class, to a class without a base, or back to a
  class that was passed (`refuses_of_ancestry`), and no object is laid out as the type
  (`Build.contentsAs_of_ancestry`).

`Catalog.ancestry_outcome` puts this together.
-/

namespace DataImage

namespace Catalog

variable {c : Catalog}

/-! ## Ends of the walk -/

/-- Whether the walk up ends well at a type: at the root class or at a value type. -/
def IsTop (c : Catalog) (t : TypeId) : Prop :=
  (c.typeDef t).kind = .reference ∧ t = Core.object ∨ (c.typeDef t).kind = .valueType

/-- Whether a list leads from a type to a top, each type but the last a class other than the root
and followed by its base. -/
structure IsAncestorChain (c : Catalog) (t : TypeId) (chain : List TypeId) : Prop where
  start : chain.head? = some t
  links : chain.IsChain c.Wraps
  top : ∃ top, chain.getLast? = some top ∧ c.IsTop top
  nodup : chain.Nodup

/-- Why the walk up from a type is refused. -/
inductive Refuses (c : Catalog) (t : TypeId) : AncestryError → Prop where
  /-- The bases lead to an integer. -/
  | scalar {u : TypeId} {signed : Bool} (path : Relation.ReflTransGen c.Wraps t u)
    (kind : (c.typeDef u).kind = .scalar signed) : Refuses c t (.notAnObject (c.typeName u))
  /-- The bases lead to an array class. -/
  | array {u element : TypeId} (path : Relation.ReflTransGen c.Wraps t u)
    (kind : (c.typeDef u).kind = .array element) : Refuses c t (.notAnObject (c.typeName u))
  /-- The bases lead to a class without a base. -/
  | rootless {u : TypeId} (path : Relation.ReflTransGen c.Wraps t u)
    (kind : (c.typeDef u).kind = .reference) (ne : u ≠ Core.object)
    (none : (c.typeDef u).base = none) : Refuses c t (.rootless (c.typeName u))
  /-- The bases lead to a class whose base was passed on the way. -/
  | cycle {u base : TypeId} (path : Relation.ReflTransGen c.Wraps t u) (wraps : c.Wraps u base)
    (passed : Relation.ReflTransGen c.Wraps t base)
    (back : Relation.ReflTransGen c.Wraps base u) : Refuses c t (.cycle (c.typeName u))

/-! ## The loop -/

/-- How the walk up ends that has come to a type over some classes, the latest first. -/
inductive Climbs (c : Catalog) : List TypeId → TypeId → Except AncestryError Ancestry → Prop where
  | scalar {below : List TypeId} {t : TypeId} {signed : Bool}
    (kind : (c.typeDef t).kind = .scalar signed) :
    Climbs c below t (.error (.notAnObject (c.typeName t)))
  | array {below : List TypeId} {t element : TypeId}
    (kind : (c.typeDef t).kind = .array element) :
    Climbs c below t (.error (.notAnObject (c.typeName t)))
  | value {below : List TypeId} {t : TypeId} (kind : (c.typeDef t).kind = .valueType) :
    Climbs c below t (.ok { top := t, below })
  | root {below : List TypeId} (kind : (c.typeDef Core.object).kind = .reference) :
    Climbs c below Core.object (.ok { top := Core.object, below })
  | rootless {below : List TypeId} {t : TypeId} (kind : (c.typeDef t).kind = .reference)
    (ne : t ≠ Core.object) (none : (c.typeDef t).base = none) :
    Climbs c below t (.error (.rootless (c.typeName t)))
  | cycle {below : List TypeId} {t base : TypeId} (wraps : c.Wraps t base)
    (seen : base ∈ t :: below) : Climbs c below t (.error (.cycle (c.typeName t)))
  | up {below : List TypeId} {t base : TypeId} {r : Except AncestryError Ancestry}
    (wraps : c.Wraps t base) (new : base ∉ t :: below) (rest : Climbs c (t :: below) base r) :
    Climbs c below t r

/-- The loop ends in one way at most. -/
theorem Climbs.unique {below : List TypeId} {t : TypeId} {r r' : Except AncestryError Ancestry}
    (h : c.Climbs below t r) (h' : c.Climbs below t r') : r = r' := by
  induction h with
  | scalar kind | array kind | value kind => cases h' <;> simp_all [Wraps]
  | root kind => cases h' <;> simp_all [Wraps]
  | rootless kind ne none => cases h' <;> simp_all [Wraps]
  | cycle wraps seen => cases h' <;> simp_all [Wraps]
  | up wraps new rest ih =>
    cases h' with
    | up wraps' new' rest' =>
      obtain rfl := wraps.base_unique wraps'
      exact ih rest'
    | cycle wraps' seen' =>
      obtain rfl := wraps.base_unique wraps'
      exact absurd seen' new
    | _ => simp_all [Wraps]

/-- Only known types have a base to go on to. -/
theorem Wraps.mem_knownTypes {t base : TypeId} (h : c.Wraps t base) : t ∈ c.knownTypes := by
  by_contra hunknown
  have hkind := h.1
  rw [typeDef_of_notMem_knownTypes hunknown] at hkind
  cases hkind

/-- **The loop ends**, and the steps of the walk suffice for it: each step passes a known class that
was not passed before. -/
theorem climbs_ancestryWithin {steps : Nat} {below : List TypeId} {t : TypeId}
    (hnodup : below.Nodup) (hknown : below ⊆ c.knownTypes) (hnew : t ∉ below)
    (hsteps : c.typeCount < steps + below.length) :
    c.Climbs below t (c.ancestryWithin steps below t) := by
  induction steps generalizing below t with
  | zero =>
    have hle := hnodup.length_le_of_subset hknown
    rw [length_knownTypes] at hle
    omega
  | succ steps ih =>
    rw [ancestryWithin]
    cases hkind : (c.typeDef t).kind with
    | scalar signed => exact .scalar hkind
    | array element => exact .array hkind
    | valueType => exact .value hkind
    | reference =>
      dsimp only
      split
      · rename_i hobject
        subst hobject
        exact .root hkind
      · rename_i hobject
        cases hbase : (c.typeDef t).base with
        | none => exact .rootless hkind hobject hbase
        | some base =>
          have wraps : c.Wraps t base := ⟨hkind, hobject, hbase⟩
          dsimp only
          split
          · rename_i hseen
            exact .cycle wraps hseen
          · rename_i hseen
            refine .up wraps hseen (ih (List.nodup_cons.2 ⟨hnew, hnodup⟩) ?_ hseen ?_)
            · exact List.cons_subset.2 ⟨wraps.mem_knownTypes, hknown⟩
            · rw [List.length_cons]
              omega

/-- **The walk without a bound** has one end, the result of the walk with as many steps as there are
types. -/
theorem climbs_iff {t : TypeId} {r : Except AncestryError Ancestry} :
    c.Climbs [] t r ↔ r = c.ancestry t := by
  have hends : c.Climbs [] t (c.ancestry t) :=
    climbs_ancestryWithin List.nodup_nil (List.nil_subset _) List.not_mem_nil
      (Nat.lt_succ_self _)
  constructor
  · intro h
    exact h.unique hends
  · rintro rfl
    exact hends

/-! ## Chains that are found -/

theorem Lineage.path {t top : TypeId} {ts : List TypeId} (h : c.Lineage t top ts) :
    Relation.ReflTransGen c.Wraps t top ∧ c.IsTop top := by
  induction h with
  | value kind => exact ⟨.refl, .inr kind⟩
  | root kind => exact ⟨.refl, .inl ⟨kind, rfl⟩⟩
  | derived wraps _ ih => exact ⟨ih.1.head wraps, ih.2⟩

theorem exists_lineage_of_path {t top : TypeId} (h : Relation.ReflTransGen c.Wraps t top)
    (htop : c.IsTop top) : ∃ ts, c.Lineage t top ts := by
  induction h using Relation.ReflTransGen.head_induction_on with
  | refl =>
    obtain ⟨kind, rfl⟩ | kind := htop
    · exact ⟨[], .root kind⟩
    · exact ⟨[], .value kind⟩
  | head wraps _ ih =>
    obtain ⟨ts, hline⟩ := ih
    exact ⟨_, .derived wraps hline⟩

/-- **The walk finds a chain exactly if the bases lead to a top.** -/
theorem exists_ancestry_iff {t : TypeId} :
    (∃ a, c.ancestry t = .ok a) ↔
      ∃ top, Relation.ReflTransGen c.Wraps t top ∧ c.IsTop top := by
  constructor
  · rintro ⟨a, ha⟩
    exact ⟨a.top, (ancestry_eq_ok_iff.1 ha).path⟩
  · rintro ⟨top, hpath, htop⟩
    obtain ⟨ts, hline⟩ := exists_lineage_of_path hpath htop
    exact ⟨⟨top, ts⟩, ancestry_eq_ok_iff.2 hline⟩

/-- A lineage, read from the type to the top. -/
theorem Lineage.isAncestorChain {t top : TypeId} {ts : List TypeId} (h : c.Lineage t top ts) :
    c.IsAncestorChain t (top :: ts).reverse := by
  have hnodup := h.nodup
  induction h with
  | value kind => exact ⟨rfl, .singleton _, ⟨_, rfl, .inr kind⟩, List.nodup_reverse.2 hnodup⟩
  | root kind => exact ⟨rfl, .singleton _, ⟨_, rfl, .inl ⟨kind, rfl⟩⟩,
      List.nodup_reverse.2 hnodup⟩
  | @derived t base top ts wraps above ih =>
    obtain ⟨start, links, ⟨top', hlast, htop⟩, -⟩ := ih above.nodup
    have hcons : (top :: (ts ++ [t])).reverse = t :: (top :: ts).reverse := by simp
    refine ⟨by rw [hcons]; rfl, ?_, ⟨top', ?_, htop⟩, List.nodup_reverse.2 hnodup⟩
    · rw [hcons]
      refine links.cons fun u hu => ?_
      rw [start, Option.mem_def, Option.some.injEq] at hu
      exact hu ▸ wraps
    · rw [hcons, List.getLast?_cons, hlast, Option.getD_some]

theorem isAncestorChain_of_ancestry {t : TypeId} {a : Ancestry} (h : c.ancestry t = .ok a) :
    c.IsAncestorChain t (a.top :: a.below).reverse :=
  (ancestry_eq_ok_iff.1 h).isAncestorChain

/-! ## Walks that are refused -/

/-- The loop is refused for what it comes by, or for coming back to a class that it has passed. -/
theorem Climbs.refuses {below : List TypeId} {t u : TypeId} {e : AncestryError}
    (h : c.Climbs below u (.error e)) (hpath : Relation.ReflTransGen c.Wraps t u)
    (hbelow : ∀ b ∈ u :: below,
      Relation.ReflTransGen c.Wraps t b ∧ Relation.ReflTransGen c.Wraps b u) :
    c.Refuses t e := by
  generalize hr : Except.error e = r at h
  induction h with
  | scalar kind =>
    cases hr
    exact .scalar hpath kind
  | array kind =>
    cases hr
    exact .array hpath kind
  | value _ => cases hr
  | root _ => cases hr
  | rootless kind ne none =>
    cases hr
    exact .rootless hpath kind ne none
  | cycle wraps seen =>
    cases hr
    obtain ⟨passed, back⟩ := hbelow _ seen
    exact .cycle hpath wraps passed back
  | up wraps _ _ ih =>
    refine ih (hpath.tail wraps) (fun b hb => ?_) hr
    rcases List.mem_cons.1 hb with rfl | hb
    · exact ⟨hpath.tail wraps, .refl⟩
    · obtain ⟨passed, back⟩ := hbelow b hb
      exact ⟨passed, back.tail wraps⟩

theorem refuses_of_ancestry {t : TypeId} {e : AncestryError} (h : c.ancestry t = .error e) :
    c.Refuses t e :=
  (climbs_iff.2 h.symm).refuses .refl fun _ hb => List.mem_singleton.1 hb ▸ ⟨.refl, .refl⟩

end Catalog

/-- **No object is laid out as a type whose ancestors are not found**, and the image stays. -/
theorem Build.contentsAs_of_ancestry {c : Catalog} {t : TypeId} {e : AncestryError}
    (h : c.ancestry t = .error e) {d : DescriptorId} {o : ObjectValue}
    (hd : c.descriptor? d = some (.object o)) (s : Image) :
    Build.contentsAs c d t s =
      .error { cause := .violation (.ancestry e), descriptor := some d } s := by
  have hdepth : depthBound c = c.descriptors.length * (c.descriptors.length + 1) +
      c.descriptors.length + 1 := Nat.add_one_mul _ _
  rw [contentsAs, hdepth, contentsWithin, descriptor, hd]
  simp only [pure_bind, within, valueContents, objectContents, h]
  rfl

namespace Catalog

/-- **The walk up from any type ends on every graph of bases.** The loop without a bound has exactly
one end, and that is the result of the walk.

* The walk finds something exactly if the bases lead from the type through classes to the root class
  or to a value type. What it finds, read from the type to the top, is the chain on the way there:
  each type is followed by its base, none comes up twice, and all but the last are classes other
  than the root.
* Otherwise the bases lead to an integer or an array class, to a class without a base, or round in a
  circle. Building an object as the type then breaks a rule, the failure names the object, and the
  image stays as it is. -/
theorem ancestry_outcome (c : Catalog) (t : TypeId) :
    (∀ r, c.Climbs [] t r ↔ r = c.ancestry t) ∧
    ((∃ a, c.ancestry t = .ok a) ↔
      ∃ top, Relation.ReflTransGen c.Wraps t top ∧ c.IsTop top) ∧
    (∀ a, c.ancestry t = .ok a → c.IsAncestorChain t (a.top :: a.below).reverse) ∧
    ∀ e, c.ancestry t = .error e → c.Refuses t e ∧
      ∀ d o s, c.descriptor? d = some (.object o) →
        Build.contentsAs c d t s =
          .error { cause := .violation (.ancestry e), descriptor := some d } s :=
  ⟨fun _ => climbs_iff, exists_ancestry_iff, fun _ => isAncestorChain_of_ancestry,
    fun _ he => ⟨refuses_of_ancestry he, fun _ _ s hd => Build.contentsAs_of_ancestry he hd s⟩⟩

end Catalog

end DataImage
