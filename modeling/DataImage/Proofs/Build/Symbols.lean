import DataImage.Proofs.Build.Calls
import DataImage.Proofs.Catalog.Acyclic
import DataImage.Proofs.Module.Links

/-!
# Symbols of values and methods

What a linker sees of an image are symbols. The symbol of a value is its type's name and its number,
at every moment of a build and whatever the types are called: a value that is built while it is
referred to has a second global for a while, and that one gets a changed name, but it is always the
second one that goes away. The symbol of a method ends in the method's number, unless the method
lives in another program, so different methods have different symbols.

`Call.symbols_of_run` is the statement for every sequence of calls.
-/

namespace DataImage

namespace Catalog

variable {c : Catalog} {m n : MethodId}

theorem toList_methodSymbol (hm : (c.method m).isExternal = false) :
    (c.methodSymbol m).toList =
      (c.typeName (c.method m).owner ++ "::" ++ (c.method m).name).toList ++
        '_' :: Nat.toDigits 10 m.index := by
  simp [methodSymbol, hm, toString, Nat.toList_repr]

/-- Methods of the program have different symbols. -/
theorem methodSymbol_injective (hm : (c.method m).isExternal = false)
    (hn : (c.method n).isExternal = false) (h : c.methodSymbol m = c.methodSymbol n) : m = n := by
  have hlist := congrArg String.toList h
  rw [toList_methodSymbol hm, toList_methodSymbol hn] at hlist
  have hindex := (append_toDigits_inj (by decide) (by decide) hlist).2.2
  cases m
  cases n
  exact congrArg _ hindex

end Catalog

namespace Image

variable {c : Catalog} {known : TypeId → Prop} {s : Image}

/-- What is said about the symbols of values with a global. -/
structure SymbolsSound (c : Catalog) (s : Image) : Prop where
  /-- The global of a value is live and has the name of the value's type and its number. -/
  named : ∀ d g, (d, g) ∈ s.entries → ∃ v, c.descriptor? d = some v ∧
    s.module.Live g ∧ s.module.resolve g = g ∧
    s.module.globalName g = c.typeName v.context ++ "_" ++ toString d.index
  /-- The name was not changed because it was taken. -/
  unchanged : ∀ d g, (d, g) ∈ s.entries → ∀ base n,
    s.module.globalName g ≠ base ++ "." ++ toString (n + 1)
  /-- Values do not share a name. -/
  distinct : ∀ d g e h, (d, g) ∈ s.entries → (e, h) ∈ s.entries →
    s.module.globalName g = s.module.globalName h → d = e

theorem Registered.globalName_of_mem (hs : s.Registered c) {d : DescriptorId} {g : GlobalId}
    (hd : (d, g) ∈ s.entries) :
    ∃ v, c.descriptor? d = some v ∧ s.module.globalName g = c.globalName d v := by
  obtain ⟨v, hv, -, hstands⟩ := hs.global_eq hd
  exact ⟨v, hv, SymbolTable.name_eq_of_getElem? hstands.name⟩

theorem Registered.live_of_mem (hs : s.Registered c) {d : DescriptorId} {g : GlobalId}
    (hd : (d, g) ∈ s.entries) : s.module.Live g := by
  obtain ⟨v, -, -, hstands⟩ := hs.global_eq hd
  exact ⟨hs.lt_of_mem hd, hstands.live⟩

theorem Registered.symbolsSound (hs : s.Registered c) : s.SymbolsSound c where
  named := fun d g hd => by
    obtain ⟨v, hv, hname⟩ := hs.globalName_of_mem hd
    have hlive := hs.live_of_mem hd
    exact ⟨v, hv, hlive, Module.resolve_of_live hlive.2, hname⟩
  unchanged := fun d g hd base n => by
    obtain ⟨v, -, hname⟩ := hs.globalName_of_mem hd
    rw [hname]
    exact c.globalName_ne_candidateName d v base n
  distinct := fun d g e h hd he heq => by
    obtain ⟨v, -, hname⟩ := hs.globalName_of_mem hd
    obtain ⟨w, -, hname'⟩ := hs.globalName_of_mem he
    rw [hname, hname'] at heq
    exact c.globalName_injective heq

end Image

namespace Call

/-- **Symbols are stable and injective.** After any calls, whether they fail or not, the live global
of each registered value has the name of the value's type, an underscore and the value's number, and
so never a name that was changed because it was taken, nor that of another registered value. Two
methods with one symbol are the same method if neither lives in another program. -/
theorem symbols_of_run (c : Catalog) (name : String) (calls : List Call) :
    (run c calls (Image.new c name)).SymbolsSound c ∧
      ∀ m n, (c.method m).isExternal = false → (c.method n).isExternal = false →
        c.methodSymbol m = c.methodSymbol n → m = n := by
  obtain ⟨-, hs⟩ := run_coherent c.closed_true (Image.coherent_new c _ name) calls
    fun _ _ _ _ => trivial
  exact ⟨hs.symbolsSound, fun _ _ => Catalog.methodSymbol_injective⟩

/-- A cell that refers back to the array it is in, and two methods of one name. -/
def overloaded : Catalog :=
  let c := (Catalog.ring.addMethod { name := "Run", owner := ⟨18⟩ }).2
  (c.addMethod { name := "Run", owner := ⟨18⟩ }).2

/-- An array that is referred to while it is built, after a call that fails: the global that was
made for the finished array is gone, and the one that stands for it has the array's own name. -/
theorem symbols_of_run_overloaded :
    (run overloaded [.request ⟨99⟩, .materialize ⟨5⟩] (Image.new overloaded "Ring")).module.Live
        ⟨1⟩ ∧
      (run overloaded [.request ⟨99⟩, .materialize ⟨5⟩]
        (Image.new overloaded "Ring")).module.globalName ⟨1⟩ = "Cell[]_5" ∧
      overloaded.methodSymbol ⟨0⟩ ≠ overloaded.methodSymbol ⟨1⟩ := by
  have hd : (⟨5⟩, ⟨1⟩) ∈ (run overloaded [.request ⟨99⟩, .materialize ⟨5⟩]
      (Image.new overloaded "Ring")).entries := by decide +kernel
  obtain ⟨hsound, hmethods⟩ :=
    symbols_of_run overloaded "Ring" [.request ⟨99⟩, .materialize ⟨5⟩]
  obtain ⟨v, hv, hlive, -, hname⟩ := hsound.named _ _ hd
  obtain rfl : Descriptor.array _ = v := Option.some.inj hv
  exact ⟨hlive, hname, fun h => absurd (hmethods ⟨0⟩ ⟨1⟩ rfl rfl h) (by decide)⟩

end Call

end DataImage
