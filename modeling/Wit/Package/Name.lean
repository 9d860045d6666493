import Wit.Semver.Version

/-!
# Package — `PackageName`

`src/wit/resolve.go`'s `PackageName`, with `ParsePackageName`, `Validate` and `String`.

`ParsePackageName` cuts at the first `'@'`, then what precedes it at the first `':'`; what
follows the `'@'`, if there is one, goes to `semver.NewVersion`.  It returns the name it has
built together with the error, and the name may be half built: the namespace and name are set
before the version is read.

* `validate_eq_none_iff`, `validate_eq_some_iff`: `Validate` accepts exactly the names with a
  non-empty namespace and a non-empty name, and otherwise reports the first empty field.
* `parsePackageName_fst`, `parsePackageName_snd_eq_some_iff`: the name returned, also beside
  an error, is the one cut from the input; the error is the version's, before either field's.
* `parsePackageName_ok_iff`: `ParsePackageName` accepts exactly when the version, if there is
  one, is read and the namespace and name cut from before it are not empty.
-/

namespace Wit.Package
open Wit.Go Wit.Semver

/-- `PackageName`: the namespace, such as `wasi` in `wasi:foo/bar`, the kebab-name of the
package, and the optional version (a `*semver.Version`). -/
structure PackageName where
  «namespace» : GoString
  name : GoString
  version : Option Version
  deriving DecidableEq, Repr

/-- An error of `ParsePackageName`: `NewVersion`'s, returned as it is, or one of `Validate`'s. -/
inductive PackageNameError
  | version (e : SemverError)
  /-- `errors.New("missing package namespace")`. -/
  | missingNamespace
  /-- `errors.New("missing package name")`. -/
  | missingName
  deriving DecidableEq, Repr

/-- `PackageName.Validate`: the namespace, then the name, must not be empty. -/
def PackageName.validate (pn : PackageName) : Option PackageNameError :=
  if pn.«namespace» = [] then some .missingNamespace
  else if pn.name = [] then some .missingName
  else none

/-- `ParsePackageName(s)`, which returns the name it has built beside the error. -/
def parsePackageName (s : GoString) : PackageName × Option PackageNameError :=
  let (name, ver, hasVer) := cut s '@'.toUInt8
  let (ns, nm, _) := cut name ':'.toUInt8
  let pn : PackageName := { «namespace» := ns, name := nm, version := none }
  if hasVer then
    match newVersion ver with
    | .error e => (pn, some (.version e))
    | .ok v    => ({ pn with version := some v }, { pn with version := some v }.validate)
  else (pn, pn.validate)

/-- `PackageName.String`: `namespace:name`, then `@` and the version's `String` when there is a
version. -/
def PackageName.string (pn : PackageName) : GoString :=
  match pn.version with
  | none   => pn.«namespace» ++ ':'.toUInt8 :: pn.name
  | some v => pn.«namespace» ++ ':'.toUInt8 :: pn.name ++ '@'.toUInt8 :: v.string

section Validate
variable {pn : PackageName}

theorem validate_eq_none_iff :
    pn.validate = none ↔ pn.«namespace» ≠ [] ∧ pn.name ≠ [] := by
  unfold PackageName.validate
  split_ifs <;> simp_all

/-- `Validate` reports the first empty field, the namespace before the name. -/
theorem validate_eq_some_iff {e : PackageNameError} :
    pn.validate = some e ↔ pn.«namespace» = [] ∧ e = .missingNamespace ∨
      pn.«namespace» ≠ [] ∧ pn.name = [] ∧ e = .missingName := by
  unfold PackageName.validate
  split_ifs <;> simp_all [eq_comm]

end Validate

/-! ### `ParsePackageName`, by its two cuts

With `name` cut off before the first `'@'` of `s`, and `ns`, `nm` around the first `':'` of
`name`, the lemmas below say all `ParsePackageName` returns: the name, the error, and when
there is none. -/

section Cuts
variable {s name ver ns nm : GoString} {hasVer f : Bool}
  (h₁ : cut s '@'.toUInt8 = (name, ver, hasVer)) (h₂ : cut name ':'.toUInt8 = (ns, nm, f))
include h₁ h₂

/-- The name `ParsePackageName` returns, also beside an error, is the namespace and name cut
from the input, with the version when there is one and `NewVersion` reads it. -/
theorem parsePackageName_fst :
    (parsePackageName s).1 = ⟨ns, nm, if hasVer then (newVersion ver).toOption else none⟩ := by
  simp only [parsePackageName, h₁, h₂]
  cases hasVer <;> [rfl; cases newVersion ver <;> rfl]

/-- The error `ParsePackageName` reports: `NewVersion`'s, before either field is checked; then
the first empty field, the namespace before the name. -/
theorem parsePackageName_snd_eq_some_iff {e : PackageNameError} :
    (parsePackageName s).2 = some e ↔
      (hasVer ∧ ∃ ve, newVersion ver = .error ve ∧ e = .version ve) ∨
      ((hasVer → ∃ v, newVersion ver = .ok v) ∧
        (ns = [] ∧ e = .missingNamespace ∨ ns ≠ [] ∧ nm = [] ∧ e = .missingName)) := by
  simp only [parsePackageName, h₁, h₂]
  cases hasVer with
  | false => simp [validate_eq_some_iff]
  | true =>
    cases newVersion ver with
    | error ve => simp [eq_comm]
    | ok v => simp [validate_eq_some_iff]

/-- `ParsePackageName` accepts exactly when the version after the `'@'`, if there is one,
is read and neither `ns` nor `nm` is empty; the name returned is made of those pieces. -/
theorem parsePackageName_ok_iff {p : PackageName} :
    parsePackageName s = (p, none) ↔ ns ≠ [] ∧ nm ≠ [] ∧
      if hasVer then ∃ v, newVersion ver = .ok v ∧ p = ⟨ns, nm, some v⟩
      else p = ⟨ns, nm, none⟩ := by
  simp only [parsePackageName, h₁, h₂]
  have swap : ∀ {q : PackageName},
      q = p ∧ ns ≠ [] ∧ nm ≠ [] ↔ ns ≠ [] ∧ nm ≠ [] ∧ p = q :=
    ⟨fun ⟨h, h₁, h₂⟩ => ⟨h₁, h₂, h.symm⟩,
      fun ⟨h₁, h₂, h⟩ => ⟨h.symm, h₁, h₂⟩⟩
  cases hasVer with
  | false => simpa [validate_eq_none_iff] using swap
  | true =>
    cases newVersion ver with
    | error e => simp
    | ok v => simpa [validate_eq_none_iff] using swap

end Cuts

example : parsePackageName (.ofString "wasi:clocks@1.0.0") =
    (⟨.ofString "wasi", .ofString "clocks", some ⟨1, 0, 0, [], []⟩⟩, none) := by decide

end Wit.Package
