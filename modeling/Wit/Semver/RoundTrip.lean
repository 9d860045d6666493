import Wit.Semver.Grammar

/-!
# Semver — `NewVersion` reads back what `String` prints

* `Version.WellFormed`: what `NewVersion` guarantees of the versions it returns.  Its three
  numbers are `int64`s that `%d` prints with no sign, and its pre-release holds no `'+'`.
* `newVersion_wellFormed`: every version `NewVersion` returns is well formed.
* `spellsVersion_string`: `String` spells every well-formed version, in the grammar `Set`
  reads; so `NewVersion` reads it back as the same version (`newVersion_string_of_wellFormed`).
* `newVersion_string`: the two together, the round trip of the package name's version.
-/

namespace Wit.Semver
open Wit.Go

/-- What `NewVersion` guarantees of the versions it returns. -/
structure Version.WellFormed (v : Version) : Prop where
  major : 0 ≤ v.major ∧ v.major < 2 ^ 63
  minor : 0 ≤ v.minor ∧ v.minor < 2 ^ 63
  patch : 0 ≤ v.patch ∧ v.patch < 2 ^ 63
  plus_not_mem : '+'.toUInt8 ∉ v.preRelease
  preRelease : validateIdentifier v.preRelease = true
  metadata : validateIdentifier v.metadata = true

section
variable {s : GoString} {v : Version}

theorem DecimalOf.range {X : GoString} {n : Int} (h : DecimalOf X n) : 0 ≤ n ∧ n < 2 ^ 63 := by
  obtain ⟨-, -, h, rfl⟩ := h
  omega

theorem SpellsVersion.wellFormed (h : SpellsVersion s v) : v.WellFormed :=
  let ⟨⟨_, _, _, _, _, _, hX, hY, hZ, _, _⟩, hplus, hpre, hmeta⟩ := h
  ⟨hX.range, hY.range, hZ.range, hplus, hpre, hmeta⟩

theorem newVersion_wellFormed (h : newVersion s = .ok v) : v.WellFormed :=
  (newVersion_eq_ok_iff.mp h).wellFormed

/-- `%d` of a number in range is a number as `Set` reads it. -/
theorem decimalOf_formatInt {n : Int} (h : 0 ≤ n ∧ n < 2 ^ 63) : DecimalOf (formatInt n) n := by
  rw [formatInt, if_neg (by omega)]
  refine ⟨formatNat_ne_nil _, fun _ => isDigit_of_mem_formatNat, ?_, ?_⟩ <;>
    rw [decimal_formatNat] <;> omega

/-- `String` writes `-` and the pre-release, or `+` and the metadata, only when it is not
empty. -/
theorem optPart_ite (d : UInt8) (b : GoString) : OptPart d b (if b = [] then [] else d :: b) := by
  split
  · exact .inl ⟨rfl, ‹_›⟩
  · exact .inr rfl

theorem spellsVersion_string (hv : v.WellFormed) : SpellsVersion v.string v :=
  ⟨⟨_, _, _, _, _, rfl, decimalOf_formatInt hv.major, decimalOf_formatInt hv.minor,
    decimalOf_formatInt hv.patch, optPart_ite _ _, optPart_ite _ _⟩,
    hv.plus_not_mem, hv.preRelease, hv.metadata⟩

theorem newVersion_string_of_wellFormed (hv : v.WellFormed) : newVersion v.string = .ok v :=
  newVersion_eq_ok_iff.mpr (spellsVersion_string hv)

/-- **The version round trip.**  `NewVersion` reads the `String` of any version it returned as
that same version. -/
theorem newVersion_string (h : newVersion s = .ok v) : newVersion v.string = .ok v :=
  newVersion_string_of_wellFormed (newVersion_wellFormed h)

end

end Wit.Semver
