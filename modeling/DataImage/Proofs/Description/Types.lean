import DataImage.Proofs.Description.Faults

/-!
# Declaring types

Types are declared one after the other, and a type whose name is taken is ignored
(`Description.NameTaken`). All others mean what their entries say (`Description.Means`), and keep
doing so when more is declared. `Description.Typed` is the invariant of the walk.
-/

namespace DataImage.Description

open Catalog (IsCoreName)

variable {p : Nat} {c c₁ c' : Catalog} {before : List TypeEntry} {ids : List TypeId}
  {e : TypeEntry} {t : TypeId}

/-- Whether to declare a type after others brings about an array type of a name, on the way to the
base of a class. -/
def BringsAbout (before : List TypeEntry) (e : TypeEntry) (n : String) : Prop :=
  ∃ base, e.shape = .class (some base) ∧ ReachesStem (ListsType before) base n ∧
    (elementName? n).isSome = true

/-- Whether the name of a type is taken when it is to be declared: by a core type, by a type that is
described before, or by an array type that a class up to this one brings about. -/
inductive NameTaken (p : Nat) (before : List TypeEntry) (e : TypeEntry) : Prop where
  | core (name : IsCoreName p e.name)
  | described (name : ListsType before e.name)
  | array (front rest : List TypeEntry) {other : TypeEntry}
    (types : before ++ [e] = front ++ other :: rest) (array : BringsAbout front other e.name)

/-- Whether a type has the kind and the base that a shape says. -/
inductive HasShape (c : Catalog) (x : TypeDef) : TypeShape → Prop where
  | scalar {signed : Bool} (kind : x.kind = .scalar signed) : HasShape c x (.scalar signed)
  | valueType (kind : x.kind = .valueType) : HasShape c x .valueType
  | root (kind : x.kind = .reference) (base : x.base = some Core.object) :
    HasShape c x (.class none)
  | derived {name : String} {t : TypeId} (kind : x.kind = .reference)
    (found : c.findType? name = some t) (base : x.base = some t) :
    HasShape c x (.class (some name))

/-- Whether a type is what an entry says. -/
structure Means (c : Catalog) (e : TypeEntry) (t : TypeId) : Prop where
  size : (c.typeDef t).size = e.size
  shape : HasShape c (c.typeDef t) e.shape

theorem HasShape.imp {x : TypeDef} {shape : TypeShape} (h : HasShape c x shape)
    (hfind : ∀ n t, c.findType? n = some t → c'.findType? n = some t) :
    HasShape c' x shape := by
  cases h with
  | scalar kind => exact .scalar kind
  | valueType kind => exact .valueType kind
  | root kind base => exact .root kind base
  | derived kind found base => exact .derived kind (hfind _ _ found) base

theorem HasShape.grows {shape : TypeShape} (h : HasShape c (c.declaredType t) shape)
    (hc : c.Rooted) (hc' : c'.Rooted) (hg : c.Grows c') (ht : t.index < c.types.length) :
    HasShape c' (c'.declaredType t) shape := by
  cases h with
  | scalar kind => exact .scalar ((hg.kind ht).trans kind)
  | valueType kind => exact .valueType ((hg.kind ht).trans kind)
  | root kind base => exact .root ((hg.kind ht).trans kind) ((hg.base ht).trans base)
  | derived kind found base =>
    exact .derived ((hg.kind ht).trans kind) (hg.findType? hc hc' found)
      ((hg.base ht).trans base)

/-- What a type means stays. -/
theorem Means.grows (h : Means c e t) (hc : c.Rooted) (hc' : c'.Rooted) (hg : c.Grows c')
    (ht : t.index < c.types.length) : Means c' e t := by
  obtain ⟨size, shape⟩ := h
  rw [hc.typeDef_eq] at size shape
  refine ⟨?_, ?_⟩
  · rw [hc'.typeDef_eq, hg.size ht, size]
  · rw [hc'.typeDef_eq]
    exact shape.grows hc hc' hg ht

/-- Whether a name denotes a type. -/
def IsTypeName (c : Catalog) (n : String) : Prop := ∃ t, c.findType? n = some t

theorem IsTypeName.grows {n : String} (h : IsTypeName c n) (hc : c.Rooted) (hc' : c'.Rooted)
    (hg : c.Grows c') : IsTypeName c' n :=
  h.imp fun _ ht => hg.findType? hc hc' ht

/-- What holds once types are declared, without their fields, for `p` the size of a pointer and `ds`
the values that are no virtual tables. -/
structure Settled (types : List TypeEntry) (p : Nat) (ds : List DescriptorId) (c : Catalog) :
    Prop where
  pointerSize : c.pointerSize = p
  standing : c.Standing (ListsType types) ds
  declarable : ∀ front e rest, types = front ++ e :: rest → ∀ err, ¬ Undeclarable p front e err
  means : ∀ front e rest, types = front ++ e :: rest → ¬ NameTaken p front e →
    ∃ t, c.findType? e.name = some t ∧ Means c e t
  bases : ∀ e ∈ types, ∀ base, e.shape = .class (some base) → IsTypeName c base

theorem Settled.grows {types : List TypeEntry} {ds ds' : List DescriptorId}
    (h : Settled types p ds c) (hg : c.Grows c') (h' : c'.Standing (ListsType types) ds') :
    Settled types p ds' c' where
  pointerSize := hg.pointerSize.trans h.pointerSize
  standing := h'
  declarable := h.declarable
  means := fun front e rest heq htaken => by
    have hc := h.standing.rooted
    obtain ⟨t, ht, hmeans⟩ := h.means front e rest heq htaken
    have hlt := (hc.findType?_eq_some_iff.1 ht).1
    exact ⟨t, hg.findType? hc h'.rooted ht, hmeans.grows hc h'.rooted hg hlt⟩
  bases := fun e he base hshape =>
    (h.bases e he base hshape).grows h.standing.rooted h'.rooted hg

/-- The walk over the types: no name denotes a type but those that can be taken. -/
structure Typed (p : Nat) (before : List TypeEntry) (ids : List TypeId) (c : Catalog) : Prop extends
    Settled before p [] c where
  methods : c.methods = []
  denoted : List.Forall₂ (fun e t => c.findType? e.name = some t) before ids
  others : ∀ n t, c.findType? n = some t → IsCoreName p n ∨ ListsType before n ∨
    ∃ front e rest, before = front ++ e :: rest ∧ BringsAbout front e n

theorem describes_snoc (before : List TypeEntry) (e : TypeEntry) :
    ListsType (before ++ [e]) = fun n => ListsType before n ∨ n = e.name := by
  funext n
  rw [eq_iff_iff]
  constructor
  · rintro ⟨e', he', rfl⟩
    rcases List.mem_append.1 he' with he' | he'
    · exact Or.inl ⟨e', he', rfl⟩
    · exact Or.inr (congrArg _ (List.mem_singleton.1 he'))
  · rintro (⟨e', he', rfl⟩ | rfl)
    · exact ⟨e', List.mem_append_left _ he', rfl⟩
    · exact ⟨e, by simp, rfl⟩

theorem typed_new (p : Nat) : Typed p [] [] (Catalog.new p) := by
  have hstanding := Catalog.standing_new p
  obtain ⟨vtables, descriptors, heq⟩ := Catalog.new_eq p
  have hdescribes : ListsType [] = fun _ => False := by
    funext n
    simp [ListsType]
  have hsettled : Settled [] p [] (Catalog.new p) := by
    refine ⟨by rw [heq], hdescribes ▸ hstanding, fun front e rest h => ?_,
      fun front e rest h => ?_, fun e he => absurd he List.not_mem_nil⟩
    · exact absurd h (by simp)
    · exact absurd h (by simp)
  refine ⟨hsettled, by rw [heq], .nil, fun n t ht => ?_⟩
  obtain ⟨hlt, rfl⟩ := hstanding.rooted.findType?_eq_some_iff.1 ht
  exact Or.inl (Catalog.isCoreName_new hlt)

/-- A member of a longer list is the last one, or it is in the list. -/
theorem append_singleton_cases {front rest : List TypeEntry} {x : TypeEntry}
    (h : before ++ [e] = front ++ x :: rest) :
    (front = before ∧ x = e) ∨ ∃ rest', before = front ++ x :: rest' := by
  rcases List.eq_nil_or_concat' rest with rfl | ⟨rest', y, rfl⟩
  · obtain ⟨hfront, hx⟩ := List.append_inj' h rfl
    exact Or.inl ⟨hfront.symm, (List.cons.inj hx).1.symm⟩
  · rw [← List.cons_append, ← List.append_assoc] at h
    exact Or.inr ⟨rest', (List.append_inj' h rfl).1⟩

/-- One more type. -/
theorem Settled.snoc {ds : List DescriptorId} (h : Settled before p ds c) (hg : c.Grows c')
    (h' : c'.Standing (ListsType (before ++ [e])) ds) (hfind : c'.findType? e.name = some t)
    (hdeclarable : ∀ err, ¬ Undeclarable p before e err)
    (hmeans : ¬ NameTaken p before e → Means c' e t)
    (hbase : ∀ base, e.shape = .class (some base) → IsTypeName c' base) :
    Settled (before ++ [e]) p ds c' where
  pointerSize := hg.pointerSize.trans h.pointerSize
  standing := h'
  declarable := fun front x rest heq => by
    rcases append_singleton_cases heq with ⟨rfl, rfl⟩ | ⟨rest', heq'⟩
    · exact hdeclarable
    · exact h.declarable front x rest' heq'
  means := fun front x rest heq htaken => by
    have hc := h.standing.rooted
    rcases append_singleton_cases heq with ⟨rfl, rfl⟩ | ⟨rest', heq'⟩
    · exact ⟨t, hfind, hmeans htaken⟩
    · obtain ⟨u, hu, hmeans'⟩ := h.means front x rest' heq' htaken
      have hlt := (hc.findType?_eq_some_iff.1 hu).1
      exact ⟨u, hg.findType? hc h'.rooted hu, hmeans'.grows hc h'.rooted hg hlt⟩
  bases := fun e' he' base hshape => by
    rcases List.mem_append.1 he' with he' | he'
    · exact (h.bases e' he' base hshape).grows h.standing.rooted h'.rooted hg
    · obtain rfl := List.mem_singleton.1 he'
      exact hbase base hshape

theorem Typed.snoc (h : Typed p before ids c) (hg : c.Grows c')
    (hsettled : Settled (before ++ [e]) p [] c') (hmethods : c'.methods = c.methods)
    (hfind : c'.findType? e.name = some t)
    (hothers : ∀ n u, c'.findType? n = some u →
      c.findType? n = some u ∨ n = e.name ∨ BringsAbout before e n) :
    Typed p (before ++ [e]) (ids ++ [t]) c' := by
  have hc := h.standing.rooted
  have hc' := hsettled.standing.rooted
  refine ⟨hsettled, hmethods.trans h.methods, ?_, fun n u hu => ?_⟩
  · refine List.rel_append (h.denoted.imp fun e' t' ht' => ?_) (.cons hfind .nil)
    exact hg.findType? hc hc' ht'
  · rw [describes_snoc]
    rcases hothers n u hu with hu | rfl | harray
    · rcases h.others n u hu with hcore | hdescribed | ⟨front, o, rest, heq, harray⟩
      · exact Or.inl hcore
      · exact Or.inr (Or.inl (Or.inl hdescribed))
      · refine Or.inr (Or.inr ⟨front, o, rest ++ [e], ?_, harray⟩)
        rw [heq, List.append_assoc, List.cons_append]
    · exact Or.inr (Or.inl (Or.inr rfl))
    · exact Or.inr (Or.inr ⟨before, e, [], rfl, harray⟩)

/-- A name that is not taken is free, also when the array types on the way to the base are there. -/
theorem Typed.findType?_eq_none (h : Typed p before ids c) (htaken : ¬ NameTaken p before e)
    (hothers : ∀ n u, c₁.findType? n = some u → c.findType? n = some u ∨ BringsAbout before e n) :
    c₁.findType? e.name = none := by
  rw [Option.eq_none_iff_forall_ne_some]
  intro u hu
  refine htaken ?_
  rcases hothers _ u hu with hu | harray
  · rcases h.others _ u hu with hcore | hdescribed | ⟨front, o, rest, heq, harray⟩
    · exact .core hcore
    · exact .described hdescribed
    · refine .array front (rest ++ [e]) ?_ harray
      rw [heq, List.append_assoc, List.cons_append]
  · exact .array before [] rfl harray

/-- One more type, once the type of its base is there. -/
theorem Typed.declare {x : TypeDef} (h : Typed p before ids c) (hg : c.Grows c₁)
    (h₁ : c₁.Standing (ListsType before) []) (hmethods : c₁.methods = c.methods)
    (hothers : ∀ n u, c₁.findType? n = some u → c.findType? n = some u ∨ BringsAbout before e n)
    (htypes : c'.types = (c₁.declareType x).2.types) (hg' : c₁.Grows c')
    (h' : c'.Standing (fun n => ListsType before n ∨ n = x.name) [])
    (hmethods' : c'.methods = c₁.methods) (hname : x.name = e.name)
    (hsize : x.size = e.size) (hshape : HasShape c' x e.shape)
    (hdeclarable : ∀ err, ¬ Undeclarable p before e err) :
    Typed p (before ++ [e]) (ids ++ [(c₁.declareType x).1]) c' := by
  have hstanding : c'.Standing (ListsType (before ++ [e])) [] := by
    rw [describes_snoc, ← hname]
    exact h'
  have hfind : c'.findType? e.name = some (c₁.declareType x).1 := by
    rw [← hname, Catalog.findType?_congr htypes, Catalog.findType?_declareType]
  have hmeans : ¬ NameTaken p before e → Means c' e (c₁.declareType x).1 := by
    intro htaken
    have hfree := h.findType?_eq_none htaken hothers
    rw [← hname] at hfree
    have hdef : c'.typeDef (c₁.declareType x).1 = x := by
      rw [h'.rooted.typeDef_eq, Catalog.declaredType_congr htypes,
        Catalog.declaredType_declareType_of_free hfree]
    exact ⟨by rw [hdef, hsize], by rwa [hdef]⟩
  have hbase : ∀ base, e.shape = .class (some base) → IsTypeName c' base := by
    intro base hbase
    rw [hbase] at hshape
    cases hshape with
    | derived _ found _ => exact ⟨_, found⟩
  refine h.snoc (hg.trans hg') (h.toSettled.snoc (hg.trans hg') hstanding hfind hdeclarable hmeans
    hbase) (hmethods'.trans hmethods) hfind fun n u hu => ?_
  rcases Catalog.findType?_of_declareType h₁.rooted h'.rooted hg' htypes hu with hu | hn
  · exact (hothers n u hu).imp_right Or.inr
  · exact Or.inr (Or.inl (hn.trans hname))

theorem not_undeclarable
    (hwidth : ∀ signed, e.shape = .scalar signed → ¬ (e.size = 0 ∨ 8 < e.size))
    (hbase : ∀ base, e.shape = .class (some base) →
      ∀ err, ¬ Unresolved p (ListsType before) base err) (err : Error) :
    ¬ Undeclarable p before e err := by
  rintro (⟨hshape, hsize⟩ | ⟨hshape, hunresolved⟩)
  · exact hwidth _ hshape hsize
  · exact hbase _ hshape err hunresolved

/-- **Declaring a type**, after others. -/
theorem declareType_yields (h : Typed p before ids c) (e : TypeEntry) :
    Yields (declareType e) c (Undeclarable p before e)
      fun t c' => Typed p (before ++ [e]) (ids ++ [t]) c' := by
  have here : ∀ n u, c.findType? n = some u →
      c.findType? n = some u ∨ BringsAbout before e n := fun n u => Or.inl
  unfold declareType
  cases hshape : e.shape with
  | scalar signed =>
    dsimp only
    split
    · rename_i hsize
      exact .throw (.scalarWidth hshape hsize)
    · rename_i hsize
      obtain ⟨types, heq⟩ :=
        c.declareType_eq { name := e.name, kind := .scalar signed, size := e.size }
      refine .onCatalog ?_
      exact h.declare (.refl c) h.standing rfl here rfl (Catalog.grows_declareType _)
        (h.standing.addScalar e.name e.size signed) (congrArg Catalog.methods heq :) rfl rfl
        (hshape ▸ .scalar rfl) (not_undeclarable (fun _ _ => hsize) (by simp [hshape]))
  | valueType =>
    obtain ⟨types, heq⟩ := c.declareType_eq { name := e.name, kind := .valueType, size := e.size }
    refine .onCatalog ?_
    exact h.declare (.refl c) h.standing rfl here rfl (Catalog.grows_declareType _)
      (h.standing.addValueType e.name e.size) (congrArg Catalog.methods heq :) rfl rfl
      (hshape ▸ .valueType rfl) (not_undeclarable (by simp [hshape]) (by simp [hshape]))
  | «class» base =>
    cases base with
    | none =>
      obtain ⟨types, vtables, descriptors, heq⟩ := c.addClass_eq e.name Core.object e.size
      dsimp only
      rw [pure_bind]
      refine .onCatalog ?_
      exact h.declare (.refl c) h.standing rfl here (Catalog.types_addVtable _)
        (Catalog.grows_addClass _ _ _) (h.standing.addClass e.name Core.object e.size)
        (congrArg Catalog.methods heq :) rfl rfl (hshape ▸ .root rfl rfl)
        (not_undeclarable (by simp [hshape]) (by simp [hshape]))
    | some name =>
      refine ((typeNamed_yields h.standing name).mono_fault fun err herr =>
        .base hshape (h.pointerSize ▸ herr)).bind fun u c₁ hu => ?_
      obtain ⟨types, vtables, descriptors, heq⟩ := c₁.addClass_eq e.name u e.size
      have h' := hu.standing.addClass e.name u e.size
      have hg' := c₁.grows_addClass e.name u e.size
      have hfound := hg'.findType? hu.standing.rooted h'.rooted hu.findType?_eq
      refine .onCatalog ?_
      refine h.declare hu.grows hu.standing hu.methods_eq (fun n v hv => ?_)
        (Catalog.types_addVtable _) hg' h' (congrArg Catalog.methods heq :) rfl rfl
        (hshape ▸ .derived rfl hfound rfl) (not_undeclarable (by simp [hshape]) ?_)
      · exact (hu.others n v hv).imp_right fun hreaches => ⟨name, hshape, hreaches⟩
      · intro base hbase err
        rw [hshape] at hbase
        cases hbase
        rw [← h.pointerSize, ← hu.grows.pointerSize]
        exact hu.not_unresolved err

end DataImage.Description
