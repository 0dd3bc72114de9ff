import DataImage.Arm.Writer
import DataImage.CommandLine.Run
import DataImage.Proofs.Assembly.Objects
import DataImage.Proofs.Build.Causes

/-!
# How a run ends

The steps of a run, in order: its settings, its description, the pointers, the values to start from,
the verification, the method to start with, its declaration, and the object. With validation, a run
fails in one of the steps up to the declaration, each for reasons of its own, or it writes something
(`CommandLine.run_ends`). So once the bootstrap method is declared in a verified image, no failure
is left: there are blobs, and an object.

An overflow is no failure that a run reports: the run stops. Values can be too large while they are
built, and so can the types of the bootstrap method while it is declared; and there may be no room
for the bytes of all globals, but only if these take more than `2 ^ 63` bytes.
-/

namespace DataImage.CommandLine

open Assembly

variable {lib : Library} {files : Files} {a : Arguments} {settings : Settings}
  {b : Description.Blueprint} {s : Image} {m : MethodId}

/-! ## How far a run gets -/

/-- The settings of a run are read, and its description has a meaning. -/
structure Reads (files : Files) (a : Arguments) (settings : Settings) (b : Description.Blueprint) :
    Prop where
  settingsOf_eq : settingsOf files a = .ok settings
  blueprint_eq : ∃ description, descriptionOf files a = .ok description ∧
    description.blueprint (settings.nativeBits / 8) = .ok b

/-- All pointers have the width of the target. -/
structure WidthsAgree (files : Files) (a : Arguments) (settings : Settings)
    (b : Description.Blueprint) : Prop extends Reads files a settings b where
  nativeBits_eq : settings.nativeBits = b.catalog.pointerSize * 8
  pointerBits_eq : Arm.pointerBits = b.catalog.pointerSize * 8

/-- The values to start from are built, with all that they refer to. -/
structure Builds (files : Files) (a : Arguments) (settings : Settings) (b : Description.Blueprint)
    (s : Image) : Prop extends WidthsAgree files a settings b where
  fromRoots_eq :
    Build.fromRoots b.catalog b.roots (Image.new b.catalog settings.imageName) = .ok () s

/-- The module is accepted. -/
structure Verifies (files : Files) (a : Arguments) (settings : Settings)
    (b : Description.Blueprint) (s : Image) : Prop extends Builds files a settings b s where
  verified : s.module.verify.isOk = true

/-- There is a method to start with. -/
structure Starts (files : Files) (a : Arguments) (settings : Settings) (b : Description.Blueprint)
    (s : Image) (m : MethodId) : Prop extends Verifies files a settings b s where
  findMethod?_eq : b.catalog.findMethod? settings.bootstrapMethod = some m

/-- The ways in which a run with validation ends, with its result. -/
inductive Ends (lib : Library) (files : Files) (a : Arguments) :
    Except RunFailure (Artifact lib.File) → Prop where
  /-- The file of the settings cannot be read. -/
  | unreadSettings {path reason : String} (hpath : a.settings = some path)
      (hfile : files path = .error reason) : Ends lib files a (.error (.unreadable path reason))
  /-- The file of the settings holds no settings. -/
  | malformedSettings {path text : String} (hpath : a.settings = some path)
      (hfile : files path = .ok text) (htext : Settings.ofText? text = none) :
      Ends lib files a (.error (.build { cause := .settings .malformed }))
  /-- The file of the description cannot be read. -/
  | unread {reason : String} (hfile : files a.description = .error reason) :
      Ends lib files a (.error (.unreadable a.description reason))
  /-- The file of the description holds no description. -/
  | malformed {text : String} (hfile : files a.description = .ok text)
      (htext : Description.ofText? text = none) :
      Ends lib files a (.error (.description .malformed))
  /-- The description has no meaning. -/
  | meaningless {settings : Settings} {description : Description} {e : Description.Error}
      (hsettings : settingsOf files a = .ok settings)
      (hdescription : descriptionOf files a = .ok description)
      (hmeaning : description.blueprint (settings.nativeBits / 8) = .error e) :
      Ends lib files a (.error (.description e))
  /-- The settings want pointers of another width than the catalog has. -/
  | settingsWidth {settings : Settings} {b : Description.Blueprint} (h : Reads files a settings b)
      (hwidth : settings.nativeBits ≠ b.catalog.pointerSize * 8) :
      Ends lib files a (.error (.build
        { cause := .settings (.pointerWidth settings.nativeBits (b.catalog.pointerSize * 8)) }))
  /-- The target has pointers of another width than the catalog. -/
  | targetWidth {settings : Settings} {b : Description.Blueprint} (h : Reads files a settings b)
      (hwidth : Arm.pointerBits ≠ b.catalog.pointerSize * 8) :
      Ends lib files a (.error (.build
        { cause := .settings (.targetWidth (Arm.target lib).name Arm.pointerBits
            (b.catalog.pointerSize * 8)) }))
  /-- A value cannot be built, or its offsets, sizes or widths overflow. -/
  | unbuilt {settings : Settings} {b : Description.Blueprint} {f : Failure} {s : Image}
      (h : WidthsAgree files a settings b)
      (hbuild : Build.fromRoots b.catalog b.roots (Image.new b.catalog settings.imageName) =
        .error f s) (hcause : f.cause.isOfBuilding = true) : Ends lib files a (.error (.build f))
  /-- The module has faults. -/
  | faulty {settings : Settings} {b : Description.Blueprint} {s : Image}
      (h : Builds files a settings b s) (hverify : s.module.verify.isOk = false) :
      Ends lib files a (.error (.build { cause := .verification s.module.verify }))
  /-- There is no method to start with. -/
  | unstarted {settings : Settings} {b : Description.Blueprint} {s : Image}
      (h : Verifies files a settings b s)
      (hmethod : b.catalog.findMethod? settings.bootstrapMethod = none) :
      Ends lib files a (.error (.build { cause := .missingBootstrap settings.bootstrapMethod }))
  /-- The method to start with cannot be declared, as some type of it has no layout: a rule is
  broken, or its offsets, sizes or widths overflow. -/
  | undeclared {settings : Settings} {b : Description.Blueprint} {s s₁ : Image} {m : MethodId}
      {f : Failure} (h : Starts files a settings b s m)
      (hdeclare : Build.declarationOf b.catalog m s = .error f s₁)
      (hcause : f.cause.isOfTypes = true) : Ends lib files a (.error (.build f))
  /-- There is no room for the bytes of the module with its entry. -/
  | overflowed {settings : Settings} {b : Description.Blueprint} {s s₁ : Image} {m : MethodId}
      {id : FunctionId} (h : Starts files a settings b s m)
      (hdeclare : Build.declarationOf b.catalog m s = .ok id s₁)
      (hlarge : 2 ^ 63 ≤ (s₁.module.setAlias settings.entrySymbol id).paddedSize) :
      Ends lib files a (.error (.build { cause := .overflow }))
  /-- The module has its entry and its object, one of which is written. -/
  | written {settings : Settings} {b : Description.Blueprint} {s s₁ : Image} {m : MethodId}
      {id : FunctionId} {blobs : List Blob} {object : lib.File}
      (h : Starts files a settings b s m)
      (hdeclare : Build.declarationOf b.catalog m s = .ok id s₁)
      (hlower : (s₁.module.setAlias settings.entrySymbol id).lower
        (.ofModule (s₁.module.setAlias settings.entrySymbol id)) = .ok blobs)
      (hemit : Arm.emit lib [Arm.returnStub (b.catalog.methodSymbol m)] blobs
        [⟨settings.entrySymbol, b.catalog.methodSymbol m⟩] = .ok object) :
      Ends lib files a (.ok (if a.asText then
        .text (s₁.module.setAlias settings.entrySymbol id).text else .object object))

/-! ## Building -/

/-- To ask for values one after the other is one step on the image. -/
theorem forM_materialize (roots : List DescriptorId) (a : Assembly lib.File) :
    (roots.forM fun d => discard <| Assembly.materialize d :
      Step lib.File PUnit) a = onImage (Build.materializeAll a.catalog roots) a := by
  induction roots generalizing a with
  | nil => rfl
  | cons r roots ih =>
    change ((discard <| Assembly.materialize r) >>= fun _ => _ : Step lib.File PUnit) a = _
    rw [Build.materializeAll]
    cases hrun : Build.materialize a.catalog r a.image with
    | error f s =>
      have hstep : (Assembly.materialize r : Step lib.File GlobalId) a =
          .error f (a.withImage s) := run_onImage_error hrun
      rw [run_bind_error (run_discard_error hstep),
        run_onImage_error (Build.run_bind_error hrun _)]
    | ok g s =>
      have hstep : (Assembly.materialize r : Step lib.File GlobalId) a =
          .ok g (a.withImage s) := run_onImage hrun
      rw [run_bind (run_discard hstep)]
      refine (ih _).trans ?_
      unfold onImage
      rw [Build.run_bind hrun]
      rfl

/-- The assembly that a run starts with, with another image. -/
def bare (lib : Library) (settings : Settings) (b : Description.Blueprint) (s : Image) :
    Assembly lib.File where
  catalog := b.catalog
  settings
  target := Arm.target lib
  image := s

/-- The assembly that a run compiles: with a stub for the method to start with, if there is one. -/
def prepared (lib : Library) (settings : Settings) (b : Description.Blueprint) (s : Image) :
    Assembly lib.File :=
  { bare lib settings b s with
    functions := (b.catalog.findMethod? settings.bootstrapMethod).toList.map fun m =>
      Arm.returnStub (b.catalog.methodSymbol m) }

theorem addBootstrapStub_bare (settings : Settings) (b : Description.Blueprint) (s : Image) :
    addBootstrapStub (bare lib settings b s) = prepared lib settings b s := by
  unfold addBootstrapStub prepared bare
  cases b.catalog.findMethod? settings.bootstrapMethod <;> rfl

/-- The values to start from are asked for, and then the image is compiled. -/
theorem buildRoots_bare {roots : List DescriptorId} {s s₁ : Image}
    (hall : Build.materializeAll b.catalog roots s = .ok () s₁) :
    buildRoots roots (bare lib settings b s) = compile (prepared lib settings b s₁) := by
  have hforM := (forM_materialize roots (bare lib settings b s)).trans (run_onImage hall)
  rw [buildRoots, run_bind hforM, run_bind (run_modify _ _), ← addBootstrapStub_bare]
  rfl

/-- With validation, an image that can be built is verified and made into an object. -/
theorem buildRoots_outcome (lib : Library) (b : Description.Blueprint)
    (hvalidate : settings.validate = true) (roots : List DescriptorId) (s : Image) :
    match Build.fromRoots b.catalog roots s with
    | .error f _ => ∃ a', buildRoots roots (bare lib settings b s) = .error f a'
    | .ok _ s' =>
      buildRoots roots (bare lib settings b s) = finish (prepared lib settings b s') := by
  rw [Build.fromRoots]
  cases hall : Build.materializeAll b.catalog roots s with
  | error f s₁ =>
    rw [Build.run_bind_error hall]
    have hforM := (forM_materialize roots (bare lib settings b s)).trans (run_onImage_error hall)
    exact ⟨_, run_bind_error hforM _⟩
  | ok u s₁ =>
    rw [Build.run_bind hall, buildRoots_bare hall]
    cases hfill : Build.resolveAll b.catalog s₁ with
    | error f s₂ =>
      rw [Build.run_bind_error hfill]
      exact ⟨_, compile_eq_error (a := prepared lib settings b s₁) hfill⟩
    | ok n s₂ =>
      rw [Build.run_bind hfill]
      exact (compile_eq_finish (a := prepared lib settings b s₁) hfill).trans (if_pos hvalidate)

/-! ## The stages of a run -/

theorem Reads.run_eq (h : Reads files a settings b) (hflag : a.noValidate = false) :
    run lib files a =
      ((buildImage lib settings b false) >>= (·.artifact a.asText)).mapError .build := by
  obtain ⟨description, hdescription, hblueprint⟩ := h.blueprint_eq
  unfold run
  rw [h.settingsOf_eq, hdescription, hflag]
  change (((description.blueprint (settings.nativeBits / 8)).mapError RunFailure.description) >>=
    fun blueprint => _) = _
  rw [hblueprint]
  change (((buildImage lib settings b false).mapError RunFailure.build) >>= fun built => _) = _
  cases buildImage lib settings b false <;> rfl

theorem Reads.run_eq_error (h : Reads files a settings b) (hflag : a.noValidate = false)
    {f : Failure} (hbuild : buildImage lib settings b false = .error f) :
    run lib files a = .error (.build f) := by
  rw [h.run_eq hflag, hbuild]
  rfl

theorem WidthsAgree.new_eq (h : WidthsAgree files a settings b) :
    Assembly.new b.catalog settings (Arm.target lib) =
      .ok (bare lib settings b (Image.new b.catalog settings.imageName)) :=
  new_eq_ok rfl (h.nativeBits_eq.trans h.pointerBits_eq.symm) h.pointerBits_eq

theorem WidthsAgree.buildImage_eq (lib : Library) (h : WidthsAgree files a settings b) :
    buildImage lib settings b false =
      match buildRoots b.roots (bare lib settings b (Image.new b.catalog settings.imageName)) with
      | .ok _ built => .ok built
      | .error f _ => .error f := by
  unfold buildImage
  rw [h.new_eq]
  rfl

theorem Builds.buildImage_eq (lib : Library) (h : Builds files a settings b s)
    (hvalidate : settings.validate = true) :
    buildImage lib settings b false =
      match finish (prepared lib settings b s) with
      | .ok _ built => .ok built
      | .error f _ => .error f := by
  have hroots := buildRoots_outcome lib b hvalidate b.roots (Image.new b.catalog settings.imageName)
  rw [h.fromRoots_eq] at hroots
  rw [h.toWidthsAgree.buildImage_eq lib, hroots]

theorem Builds.sound (lib : Library) (h : Builds files a settings b s) :
    Sound b.catalog settings (Arm.target lib) (prepared lib settings b s) := by
  obtain ⟨hsettles, hs, -⟩ :=
    (Build.fromRoots_advances b.catalog.closed_true settings.imageName b.roots).of_ok h.fromRoots_eq
  exact ((Sound.of_new h.toWidthsAgree.new_eq).withImage hsettles hs).congr rfl rfl rfl rfl rfl

theorem Starts.functions_prepared (lib : Library) (h : Starts files a settings b s m) :
    (prepared lib settings b s).functions = [Arm.returnStub (b.catalog.methodSymbol m)] := by
  rw [prepared, h.findMethod?_eq]
  rfl

/-- **Once the method to start with is declared, there is an object**, unless the globals are too
large. -/
theorem Starts.object_outcome {v : lib.View} (hv : v.Lawful) (hwrites : lib.AlwaysWrites)
    (h : Starts files a settings b s m) {id : FunctionId} {s₁ : Image}
    (hdeclare : Build.declarationOf b.catalog m s = .ok id s₁) :
    (∃ object, (((prepared lib settings b s).withImage s₁).setEntry id).emit = .ok object) ∨
      (((prepared lib settings b s).withImage s₁).setEntry id).emit =
        .error { cause := .overflow } ∧
      2 ^ 63 ≤ (((prepared lib settings b s).withImage s₁).setEntry id).module.paddedSize := by
  refine (h.toBuilds.sound lib).object_outcome hv hwrites ?_ h.verified hdeclare ?_ ?_ ?_
  · exact (h.toBuilds.sound lib).width.trans h.pointerBits_eq.symm
  · rw [h.functions_prepared lib]
    exact ⟨_, List.mem_singleton_self _, rfl⟩
  · rw [h.functions_prepared lib]
    exact List.forall_mem_singleton.2 rfl
  · rw [h.functions_prepared lib]
    exact Nat.le_of_lt (by decide : 4 + 3 + 0 < 2 ^ 63)

section

variable (hflag : a.noValidate = false)

include hflag

theorem Starts.run_eq (h : Starts files a settings b s m) (hvalidate : settings.validate = true)
    {id : FunctionId} {s₁ : Image} (hdeclare : Build.declarationOf b.catalog m s = .ok id s₁)
    {object : lib.File}
    (hobject : (((prepared lib settings b s).withImage s₁).setEntry id).emit = .ok object) :
    ∃ blobs,
      (s₁.module.setAlias settings.entrySymbol id).lower
        (.ofModule (s₁.module.setAlias settings.entrySymbol id)) = .ok blobs ∧
      Arm.emit lib [Arm.returnStub (b.catalog.methodSymbol m)] blobs
        [⟨settings.entrySymbol, b.catalog.methodSymbol m⟩] = .ok object ∧
      run lib files a = .ok (if a.asText then
        .text (s₁.module.setAlias settings.entrySymbol id).text else .object object) := by
  obtain ⟨blobs, hlower, hemit⟩ := emit_eq_ok_iff.1 hobject
  obtain ⟨-, -, -, -, -, -, haliases⟩ := (h.toBuilds.sound lib).entered h.verified hdeclare
  refine ⟨blobs, hlower, ?_, ?_⟩
  · rw [← haliases, ← h.functions_prepared lib]
    exact hemit
  · have hfinish := finish_eq_emit (a := prepared lib settings b s) h.verified h.findMethod?_eq
      hdeclare
    rw [h.toReads.run_eq hflag, h.toBuilds.buildImage_eq lib hvalidate, hfinish, hobject]
    cases htext : a.asText <;> rfl

/-- A run fails if the method to start with cannot be declared. -/
theorem Starts.run_eq_error (h : Starts files a settings b s m)
    (hvalidate : settings.validate = true) {f : Failure} {s₁ : Image}
    (hdeclare : Build.declarationOf b.catalog m s = .error f s₁) :
    run lib files a = .error (.build f) := by
  have hfinish := finish_eq_undeclared (a := prepared lib settings b s) h.verified h.findMethod?_eq
    hdeclare
  refine h.toReads.run_eq_error hflag ?_
  rw [h.toBuilds.buildImage_eq lib hvalidate, hfinish]

/-- How a run ends whose image is verified. -/
theorem Verifies.ends {v : lib.View} (hv : v.Lawful) (hwrites : lib.AlwaysWrites)
    (h : Verifies files a settings b s) (hvalidate : settings.validate = true) :
    Ends lib files a (run lib files a) := by
  cases hmethod : b.catalog.findMethod? settings.bootstrapMethod with
  | none =>
    have hbuild := h.toBuilds.buildImage_eq lib hvalidate
    rw [finish_eq_unstarted (a := prepared lib settings b s) h.verified hmethod] at hbuild
    rw [h.toReads.run_eq_error hflag hbuild]
    exact .unstarted h hmethod
  | some m =>
    have hstarts : Starts files a settings b s m := ⟨h, hmethod⟩
    cases hdeclare : Build.declarationOf b.catalog m s with
    | error f s₁ =>
      rw [hstarts.run_eq_error hflag hvalidate hdeclare]
      exact .undeclared hstarts hdeclare (Build.declarationOf_raises m _ _ _ hdeclare)
    | ok id s₁ =>
      rcases hstarts.object_outcome hv hwrites hdeclare with ⟨object, hobject⟩ | ⟨hstop, hlarge⟩
      · obtain ⟨blobs, hlower, hemit, hrun⟩ := hstarts.run_eq hflag hvalidate hdeclare hobject
        rw [hrun]
        exact .written hstarts hdeclare hlower hemit
      · have hfinish := finish_eq_emit (a := prepared lib settings b s) h.verified hmethod hdeclare
        rw [hstop] at hfinish
        have hbuild := h.toBuilds.buildImage_eq lib hvalidate
        rw [hfinish] at hbuild
        rw [h.toReads.run_eq_error hflag hbuild]
        exact .overflowed hstarts hdeclare hlarge

/-- How a run ends whose description has a meaning. -/
theorem Reads.ends {v : lib.View} (hv : v.Lawful) (hwrites : lib.AlwaysWrites)
    (h : Reads files a settings b) (hvalidate : settings.validate = true) :
    Ends lib files a (run lib files a) := by
  by_cases hsettings : settings.nativeBits = b.catalog.pointerSize * 8
  case neg =>
    rw [h.run_eq_error hflag (by rw [buildImage, Assembly.new, if_pos hsettings]; rfl)]
    exact .settingsWidth h hsettings
  by_cases htarget : Arm.pointerBits = b.catalog.pointerSize * 8
  case neg =>
    have hdiffer : (Arm.target lib).pointerBits ≠ b.catalog.pointerSize * 8 := htarget
    rw [h.run_eq_error hflag (by
      rw [buildImage, Assembly.new, if_neg (not_not.2 hsettings), if_pos hdiffer]; rfl)]
    exact .targetWidth h htarget
  have hagrees : WidthsAgree files a settings b := ⟨h, hsettings, htarget⟩
  have hroots := buildRoots_outcome lib b hvalidate b.roots (Image.new b.catalog settings.imageName)
  cases hbuild : Build.fromRoots b.catalog b.roots (Image.new b.catalog settings.imageName) with
  | error f s =>
    rw [hbuild] at hroots
    obtain ⟨a', hroots⟩ := hroots
    have himage := hagrees.buildImage_eq lib
    rw [hroots] at himage
    rw [h.run_eq_error hflag himage]
    exact .unbuilt hagrees hbuild (Build.fromRoots_raises _ _ _ _ hbuild)
  | ok u s =>
    have hbuilds : Builds files a settings b s := ⟨hagrees, hbuild⟩
    cases hverify : s.module.verify.isOk with
    | true => exact Verifies.ends hflag hv hwrites ⟨hbuilds, hverify⟩ hvalidate
    | false =>
      have himage := hbuilds.buildImage_eq lib hvalidate
      rw [finish_eq_faulty (a := prepared lib settings b s) hverify] at himage
      rw [h.run_eq_error hflag himage]
      exact .faulty hbuilds hverify

end

/-- Whether a run finds a method to start with in a verified image, and they pass a check. -/
def startsWith (files : Files) (a : Arguments)
    (check : Description.Blueprint → Image → MethodId → Bool) : Bool :=
  match settingsOf files a, descriptionOf files a with
  | .ok settings, .ok description =>
    match description.blueprint (settings.nativeBits / 8) with
    | .ok b =>
      settings.nativeBits = b.catalog.pointerSize * 8 &&
      Arm.pointerBits = b.catalog.pointerSize * 8 &&
      (Build.fromRoots b.catalog b.roots).succeedsWith (Image.new b.catalog settings.imageName)
        fun _ s => s.module.verify.isOk &&
          (b.catalog.findMethod? settings.bootstrapMethod).any (check b s)
    | .error _ => false
  | _, _ => false

/-- A call without options. -/
def plain : Arguments where
  description := "description"
  output := "object"
  asText := false
  settings := none
  noValidate := false

end DataImage.CommandLine
