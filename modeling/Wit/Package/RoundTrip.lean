import Wit.Package.Grammar
import Wit.Semver.Canonical

/-!
# Package — parsing and printing undo each other

* `PackageName.Valid`: the names `ParsePackageName` returns (`parsePackageName_eq_ok_iff_valid`).
* `PackageName.Valid.spells_string`: `String` spells every valid name.  It adds no `'@'` or
  `':'` that would move either cut: the namespace holds neither, the name no `'@'`, and the
  first `'@'` is the one `String` puts before the version.
* `parsePackageName_string`: printing, then parsing, gives back every name `ParsePackageName`
  returned, the version compared by value.
* `string_parsePackageName`: parsing, then printing, gives back every accepted string whose
  version text is already `Version.String`'s.  The only rewriting is the version's.
* `string_parsePackageName_iff`: it gives back an accepted string exactly when its version text
  is canonical (`CanonicalVersion`); `parsePackageName_zero_major`: and every versioned name
  has spellings that are not.
-/

namespace Wit.Package
open Wit.Go Wit.Semver

/-- The names `ParsePackageName` returns: a namespace with neither `':'` nor `'@'`, a name with
no `'@'`, neither empty, and a version `NewVersion` could have returned. -/
structure PackageName.Valid (pn : PackageName) : Prop where
  namespace_ne_nil : pn.«namespace» ≠ []
  colon_not_mem_namespace : ':'.toUInt8 ∉ pn.«namespace»
  at_not_mem_namespace : '@'.toUInt8 ∉ pn.«namespace»
  name_ne_nil : pn.name ≠ []
  at_not_mem_name : '@'.toUInt8 ∉ pn.name
  version : ∀ v, pn.version = some v → v.WellFormed

theorem Spells.valid {s : GoString} {pn : PackageName} (h : Spells s pn) : pn.Valid := by
  refine ⟨h.namespace_ne_nil, h.colon_not_mem_namespace, h.at_not_mem_namespace, h.name_ne_nil,
    h.at_not_mem_name, fun v hv => ?_⟩
  have hs := h.spelled
  rw [hv] at hs
  obtain ⟨V, -, hV⟩ := hs
  exact newVersion_wellFormed hV

/-- `String` spells every valid name. -/
theorem PackageName.Valid.spells_string {pn : PackageName} (h : pn.Valid) :
    Spells pn.string pn := by
  obtain ⟨N, M, ver⟩ := pn
  obtain ⟨hN, hcN, haN, hM, haM, hv⟩ := h
  refine ⟨hN, hcN, haN, hM, haM, ?_⟩
  cases ver with
  | none => exact ⟨rfl, by simp [PackageName.string, haN, haM, at_ne_colon]⟩
  | some v => exact ⟨v.string, rfl, newVersion_string_of_wellFormed (hv v rfl)⟩

theorem parsePackageName_string {s : GoString} {p : PackageName}
    (h : parsePackageName s = (p, none)) : parsePackageName p.string = (p, none) :=
  parsePackageName_of_spells (spells_of_parsePackageName h).valid.spells_string

theorem parsePackageName_string_clocks :
    parsePackageName (.ofString "wasi:clocks@01.2.3-rc.1+build") =
        (⟨.ofString "wasi", .ofString "clocks",
          some ⟨1, 2, 3, .ofString "rc.1", .ofString "build"⟩⟩, none) ∧
      parsePackageName (PackageName.string ⟨.ofString "wasi", .ofString "clocks",
          some ⟨1, 2, 3, .ofString "rc.1", .ofString "build"⟩⟩) =
        (⟨.ofString "wasi", .ofString "clocks",
          some ⟨1, 2, 3, .ofString "rc.1", .ofString "build"⟩⟩, none) :=
  have h : parsePackageName (.ofString "wasi:clocks@01.2.3-rc.1+build") =
      (⟨.ofString "wasi", .ofString "clocks",
        some ⟨1, 2, 3, .ofString "rc.1", .ofString "build"⟩⟩, none) := by decide
  ⟨h, parsePackageName_string h⟩

/-- **What `ParsePackageName` returns.**  The names it returns without error are exactly the
valid ones. -/
theorem parsePackageName_eq_ok_iff_valid (p : PackageName) :
    (∃ s, parsePackageName s = (p, none)) ↔ p.Valid :=
  ⟨fun ⟨_, h⟩ => (spells_of_parsePackageName h).valid,
    fun h => ⟨_, parsePackageName_of_spells h.spells_string⟩⟩

/-- `wasi:clocks@1.0.0`, the name of the examples. -/
def clocks : PackageName := ⟨.ofString "wasi", .ofString "clocks", some ⟨1, 0, 0, [], []⟩⟩

/-! ### Canonical strings -/

/-- **Printing after parsing gives back exactly the canonical strings.**  For a string
`ParsePackageName` accepts, the `String` of the name it is read as is that string exactly when
the version text after its first `'@'`, if there is one, is written as `Version.String` writes a
version. -/
theorem string_parsePackageName_iff {s : GoString} {p : PackageName}
    (h : parsePackageName s = (p, none)) :
    p.string = s ↔ ∀ a V, '@'.toUInt8 ∉ a → s = a ++ '@'.toUInt8 :: V → CanonicalVersion V := by
  obtain ⟨N, M, ver⟩ := p
  obtain ⟨-, -, haN, -, haM, hspelled⟩ := spells_of_parsePackageName h
  have hname : '@'.toUInt8 ∉ N ++ ':'.toUInt8 :: M := by simp [haN, haM, at_ne_colon]
  cases ver with
  | none =>
    obtain ⟨rfl, hs⟩ := hspelled
    exact ⟨fun _ a V _ e => absurd (e ▸ by simp) hs, fun _ => rfl⟩
  | some v =>
    obtain ⟨V, rfl, hV⟩ := hspelled
    simp only [PackageName.string, List.append_cancel_left_eq, List.cons.injEq, true_and]
    rw [(newVersion_eq_ok_iff.mp hV).string_eq_iff]
    exact ⟨fun hc a V' ha e => (eq_of_append_sep hname ha e).2 ▸ hc, fun H => H _ _ hname rfl⟩

theorem string_parsePackageName_iff_clocks :
    parsePackageName (.ofString "wasi:clocks@01.0.0") = (clocks, none) ∧
      (clocks.string = .ofString "wasi:clocks@01.0.0" ↔ ∀ a V, '@'.toUInt8 ∉ a →
        GoString.ofString "wasi:clocks@01.0.0" = a ++ '@'.toUInt8 :: V → CanonicalVersion V) :=
  have h : parsePackageName (.ofString "wasi:clocks@01.0.0") = (clocks, none) := by decide
  ⟨h, string_parsePackageName_iff h⟩

/-- **`ParsePackageName` does not reject a non-canonical version: it rewrites it.**  Every
versioned name it returns is also read from another string, with a `0` before the major
version number. -/
theorem parsePackageName_zero_major {s : GoString} {p : PackageName} {v : Version}
    (h : parsePackageName s = (p, none)) (hv : p.version = some v) :
    parsePackageName (p.«namespace» ++ ':'.toUInt8 :: p.name ++ '@'.toUInt8 :: '0'.toUInt8 ::
        v.string) = (p, none) ∧
      p.«namespace» ++ ':'.toUInt8 :: p.name ++ '@'.toUInt8 :: '0'.toUInt8 :: v.string ≠
        p.string := by
  obtain ⟨N, M, ver⟩ := p
  obtain ⟨hN, hcN, haN, hM, haM, hval⟩ := (spells_of_parsePackageName h).valid
  subst hv
  refine ⟨parsePackageName_of_spells ⟨hN, hcN, haN, hM, haM, _, rfl,
    newVersion_eq_ok_iff.mpr (spellsVersion_string (hval v rfl)).zero_cons⟩, fun e => ?_⟩
  simp only [PackageName.string, List.append_cancel_left_eq, List.cons.injEq, true_and] at e
  simpa using congrArg List.length e

theorem parsePackageName_zero_major_clocks :
    (parsePackageName (.ofString "wasi:clocks@1.0.0") = (clocks, none) ∧
        clocks.version = some ⟨1, 0, 0, [], []⟩) ∧
      parsePackageName (clocks.«namespace» ++ ':'.toUInt8 :: clocks.name ++ '@'.toUInt8 ::
          '0'.toUInt8 :: Version.string ⟨1, 0, 0, [], []⟩) = (clocks, none) ∧
      clocks.«namespace» ++ ':'.toUInt8 :: clocks.name ++ '@'.toUInt8 :: '0'.toUInt8 ::
          Version.string ⟨1, 0, 0, [], []⟩ ≠ clocks.string :=
  have h : parsePackageName (.ofString "wasi:clocks@1.0.0") = (clocks, none) ∧
      clocks.version = some ⟨1, 0, 0, [], []⟩ := ⟨by decide, rfl⟩
  ⟨h, parsePackageName_zero_major h.1 h.2⟩

end Wit.Package
