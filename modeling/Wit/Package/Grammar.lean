import Wit.Package.Name
import Wit.Semver.Grammar

/-!
# Package — the grammar `namespace ":" name ["@" semver]`

`Spells s pn` says that the string `s` is the package name `pn` written out: `N:M`, with no
`'@'`, or `N:M@V` where `semver.NewVersion` reads `V` as the version.  The namespace `N` is not
empty and holds neither `':'` nor `'@'`; the name `M` is not empty and holds no `'@'`, though it
may hold `':'`.  The pieces fit the two cuts of `ParsePackageName`: the first `'@'` of `s` is
the one after `M`, and the first `':'` the one after `N`.

* `parsePackageName_of_spells`: on a string that spells `pn`, `ParsePackageName` returns `pn`
  and no error.
* `spells_of_parsePackageName`: a string `ParsePackageName` accepts spells the name it returns.
* `parsePackageName_grammar`: the two together; `ParsePackageName` accepts exactly the
  grammar, and reads each accepted string as the name it spells.
* `parsePackageName_accepts_iff`: the same grammar with the version's own spelled out
  (`SpellsVersion`), so that which strings are accepted is said without `NewVersion`.
* `parsePackageName_digits`: the error of a name whose version numbers are digits, some of
  them too large.
-/

namespace Wit.Package
open Wit.Go Wit.Semver

/-- `s` spells `pn` in the grammar `namespace ":" name ["@" semver]`. -/
structure Spells (s : GoString) (pn : PackageName) : Prop where
  namespace_ne_nil : pn.«namespace» ≠ []
  colon_not_mem_namespace : ':'.toUInt8 ∉ pn.«namespace»
  at_not_mem_namespace : '@'.toUInt8 ∉ pn.«namespace»
  name_ne_nil : pn.name ≠ []
  at_not_mem_name : '@'.toUInt8 ∉ pn.name
  spelled : match pn.version with
    | none   => s = pn.«namespace» ++ ':'.toUInt8 :: pn.name ∧ '@'.toUInt8 ∉ s
    | some v => ∃ V, s = pn.«namespace» ++ ':'.toUInt8 :: pn.name ++ '@'.toUInt8 :: V ∧
        newVersion V = .ok v

theorem at_ne_colon : '@'.toUInt8 ≠ ':'.toUInt8 := by decide

/-- A string that spells `pn` is parsed as `pn`. -/
theorem parsePackageName_of_spells {s : GoString} {pn : PackageName} (h : Spells s pn) :
    parsePackageName s = (pn, none) := by
  obtain ⟨N, M, ver⟩ := pn
  obtain ⟨hN, hcN, haN, hM, haM, hs⟩ := h
  have hname : '@'.toUInt8 ∉ N ++ ':'.toUInt8 :: M := by simp [haN, haM, at_ne_colon]
  have h₂ : cut (N ++ ':'.toUInt8 :: M) ':'.toUInt8 = (N, M, true) := cut_append hcN
  cases ver with
  | none =>
    obtain ⟨rfl, -⟩ := hs
    exact (parsePackageName_ok_iff (cut_of_not_mem hname) h₂).mpr ⟨hN, hM, rfl⟩
  | some v =>
    obtain ⟨V, rfl, hV⟩ := hs
    exact (parsePackageName_ok_iff (cut_append hname) h₂).mpr ⟨hN, hM, v, hV, rfl⟩

/-- What `ParsePackageName` accepts spells the name it returns. -/
theorem spells_of_parsePackageName {s : GoString} {p : PackageName}
    (h : parsePackageName s = (p, none)) : Spells s p := by
  rcases h₁ : cut s '@'.toUInt8 with ⟨name, ver, hasVer⟩
  rcases h₂ : cut name ':'.toUInt8 with ⟨ns, nm, _ | _⟩
  · exact absurd (cut_not_found_iff.mp h₂).2.2 ((parsePackageName_ok_iff h₁ h₂).mp h).2.1
  obtain ⟨hns, hnm, hp⟩ := (parsePackageName_ok_iff h₁ h₂).mp h
  obtain ⟨hcolon, rfl⟩ := cut_found_iff.mp h₂
  cases hasVer with
  | false =>
    obtain ⟨hat, rfl, rfl⟩ := cut_not_found_iff.mp h₁
    rw [if_neg Bool.false_ne_true] at hp
    subst hp
    simp only [List.mem_append, List.mem_cons, not_or] at hat
    exact ⟨hns, hcolon, hat.1, hnm, hat.2.2, rfl, by simp [hat, at_ne_colon]⟩
  | true =>
    obtain ⟨hat, rfl⟩ := cut_found_iff.mp h₁
    obtain ⟨v, hv, rfl⟩ := hp
    simp only [List.mem_append, List.mem_cons, not_or] at hat
    exact ⟨hns, hcolon, hat.1, hnm, hat.2.2, ver, rfl, hv⟩

theorem parsePackageName_grammar (s : GoString) :
    ((parsePackageName s).2 = none ↔ ∃ pn, Spells s pn) ∧
      ∀ pn, Spells s pn → parsePackageName s = (pn, none) :=
  ⟨⟨fun h => ⟨_, spells_of_parsePackageName (Prod.ext rfl h)⟩,
      fun ⟨_, h⟩ => by rw [parsePackageName_of_spells h]⟩,
    fun _ => parsePackageName_of_spells⟩

theorem parsePackageName_accepts_iff (s : GoString) :
    (parsePackageName s).2 = none ↔
      ∃ N M, N ≠ [] ∧ ':'.toUInt8 ∉ N ∧ '@'.toUInt8 ∉ N ∧
        M ≠ [] ∧ '@'.toUInt8 ∉ M ∧ (s = N ++ ':'.toUInt8 :: M ∧ '@'.toUInt8 ∉ s ∨
          ∃ V v, s = N ++ ':'.toUInt8 :: M ++ '@'.toUInt8 :: V ∧ SpellsVersion V v) := by
  constructor
  · intro h
    obtain ⟨hN, hcN, haN, hM, haM, hs⟩ := spells_of_parsePackageName (Prod.ext rfl h)
    refine ⟨_, _, hN, hcN, haN, hM, haM, ?_⟩
    split at hs
    · exact .inl hs
    · obtain ⟨V, hs, hV⟩ := hs
      exact .inr ⟨V, _, hs, newVersion_eq_ok_iff.mp hV⟩
  · rintro ⟨N, M, hN, hcN, haN, hM, haM, hs | ⟨V, v, hs, hV⟩⟩
    · have h : Spells s ⟨N, M, none⟩ := ⟨hN, hcN, haN, hM, haM, hs⟩
      rw [parsePackageName_of_spells h]
    · have h : Spells s ⟨N, M, some v⟩ :=
        ⟨hN, hcN, haN, hM, haM, V, hs, newVersion_eq_ok_iff.mpr hV⟩
      rw [parsePackageName_of_spells h]

/-! ### Version numbers out of range -/

/-- **A version number out of range.**  When the version is three runs of digits,
`ParsePackageName` reports `strconv`'s range error for the first of them whose value does not
fit an `int64`, however many digits it has, before it looks at the namespace and the name; with
all three in range it reports what it reports of the name without its version. -/
theorem parsePackageName_digits {N M X Y Z : GoString} (ha : '@'.toUInt8 ∉ N ++ ':'.toUInt8 :: M)
    (hX : X ≠ [] ∧ ∀ c ∈ X, IsDigit c) (hY : Y ≠ [] ∧ ∀ c ∈ Y, IsDigit c)
    (hZ : Z ≠ [] ∧ ∀ c ∈ Z, IsDigit c) :
    (parsePackageName (N ++ ':'.toUInt8 :: M ++ '@'.toUInt8 :: X ++ '.'.toUInt8 :: Y ++
        '.'.toUInt8 :: Z)).2 =
      if 2 ^ 63 ≤ decimal 0 X then some (.version (.parseInt ⟨X, .range⟩))
      else if 2 ^ 63 ≤ decimal 0 Y then some (.version (.parseInt ⟨Y, .range⟩))
      else if 2 ^ 63 ≤ decimal 0 Z then some (.version (.parseInt ⟨Z, .range⟩))
      else (parsePackageName (N ++ ':'.toUInt8 :: M)).2 := by
  have hs : N ++ ':'.toUInt8 :: M ++ '@'.toUInt8 :: X ++ '.'.toUInt8 :: Y ++ '.'.toUInt8 :: Z =
      N ++ ':'.toUInt8 :: M ++ '@'.toUInt8 :: (X ++ '.'.toUInt8 :: Y ++ '.'.toUInt8 :: Z) := by
    simp
  rw [hs]
  simp only [parsePackageName, cut_append ha, cut_of_not_mem ha, newVersion_digits hX hY hZ,
    Bool.false_eq_true, if_false]
  split_ifs <;> rfl

theorem parsePackageName_digits_overflow :
    ('@'.toUInt8 ∉ GoString.ofString "wasi" ++ ':'.toUInt8 :: GoString.ofString "clocks" ∧
      (GoString.ofString "9223372036854775808" ≠ [] ∧
        ∀ c ∈ GoString.ofString "9223372036854775808", IsDigit c) ∧
      (GoString.ofString "0" ≠ [] ∧ ∀ c ∈ GoString.ofString "0", IsDigit c)) ∧
      (parsePackageName (GoString.ofString "wasi" ++ ':'.toUInt8 :: GoString.ofString "clocks" ++
          '@'.toUInt8 :: GoString.ofString "9223372036854775808" ++ '.'.toUInt8 ::
          GoString.ofString "0" ++ '.'.toUInt8 :: GoString.ofString "0")).2 =
        some (.version (.parseInt ⟨GoString.ofString "9223372036854775808", .range⟩)) :=
  have h : '@'.toUInt8 ∉ GoString.ofString "wasi" ++ ':'.toUInt8 :: GoString.ofString "clocks" ∧
      (GoString.ofString "9223372036854775808" ≠ [] ∧
        ∀ c ∈ GoString.ofString "9223372036854775808", IsDigit c) ∧
      (GoString.ofString "0" ≠ [] ∧ ∀ c ∈ GoString.ofString "0", IsDigit c) := by decide
  ⟨h, (parsePackageName_digits h.1 h.2.1 h.2.2 h.2.2).trans (if_pos (by decide))⟩

end Wit.Package
