import Wit.Go.Strconv

/-!
# Semver — the `Version` of `github.com/coreos/go-semver/semver`

A package name's version is read by that package's `NewVersion` and printed by its
`Version.String`.  Both belong to the dependency, not to this repository; they are modelled
here after the dependency's `Set` and `String`.

`Set` cuts the metadata off at the first `'+'`, then the pre-release at the first `'-'` of what
is left, splits the rest into three parts at its first two `'.'`s, checks the pre-release and
the metadata against `reIdentifier`, and reads the three numbers with `strconv.ParseInt`.
`String` prints the three numbers with `%d`, then `-pre-release` and `+metadata` when they are
not empty.
-/

namespace Wit.Semver
open Wit.Go

/-- go-semver's `Version`; `Major`, `Minor` and `Patch` are `int64`s. -/
structure Version where
  major : Int
  minor : Int
  patch : Int
  preRelease : GoString
  metadata : GoString
  deriving DecidableEq, Repr

/-- The error of `NewVersion`. -/
inductive SemverError
  /-- `"%s is not in dotted-tri format"`, of what is left after the cuts at `'+'` and `'-'`. -/
  | notDottedTri (version : GoString)
  /-- `"failed to validate pre-release: %s is not a valid semver identifier"`. -/
  | preRelease (id : GoString)
  /-- `"failed to validate metadata: %s is not a valid semver identifier"`. -/
  | metadata (id : GoString)
  /-- The `*strconv.NumError` of a major, minor or patch number, returned as it is. -/
  | parseInt (e : NumError)
  deriving DecidableEq, Repr

/-- `splitOff(&input, delim)`: with `parts := strings.SplitN(*input, delim, 2)`, the input
becomes `parts[0]` and the result is `parts[1]` when there are two parts; otherwise the input
is unchanged and the result is `""`.  Returns the new input and the result. -/
def splitOff (input : GoString) (delim : UInt8) : GoString × GoString :=
  match splitN input delim 2 with
  | [p₀, p₁] => (p₀, p₁)
  | _        => (input, [])

/-- A byte of the class `[0-9A-Za-z-]`. -/
def IsIdentChar (c : UInt8) : Prop :=
  IsDigit c ∨ ('A'.toNat ≤ c.toNat ∧ c.toNat ≤ 'Z'.toNat) ∨
    ('a'.toNat ≤ c.toNat ∧ c.toNat ≤ 'z'.toNat) ∨ c = '-'.toUInt8

instance : DecidablePred IsIdentChar := fun _ => inferInstanceAs (Decidable (_ ∨ _))

/-- `reIdentifier.MatchString`, for `^[0-9A-Za-z-]+(\.[0-9A-Za-z-]+)*$`, scanned left to right;
`inPart` records that the current dot-separated part is not empty.  A byte of a multi-byte
UTF-8 sequence is in no class, as the rune it belongs to is in none. -/
def matchIdentifier (inPart : Bool) : GoString → Bool
  | []     => inPart
  | c :: s =>
    if c = '.'.toUInt8 then inPart && matchIdentifier false s
    else decide (IsIdentChar c) && matchIdentifier true s

/-- `validateIdentifier(id)` succeeds: `id` is empty or matches `reIdentifier`. -/
def validateIdentifier (id : GoString) : Bool := id.isEmpty || matchIdentifier false id

/-- `Version.Set(version)`, on a fresh `Version`: Go writes the fields only once every check has
passed.  The loop over `dotParts[:3]` is unrolled; it stops at the first `ParseInt` error. -/
def Version.set (version : GoString) : Except SemverError Version :=
  let (version, metadata) := splitOff version '+'.toUInt8
  let (version, preRelease) := splitOff version '-'.toUInt8
  match splitN version '.'.toUInt8 3 with
  | [major, minor, patch] =>
    if !validateIdentifier preRelease then .error (.preRelease preRelease)
    else if !validateIdentifier metadata then .error (.metadata metadata)
    else do
      let major ← (parseInt major).mapError .parseInt
      let minor ← (parseInt minor).mapError .parseInt
      let patch ← (parseInt patch).mapError .parseInt
      pure { major, minor, patch, preRelease, metadata }
  | _ => .error (.notDottedTri version)

/-- `NewVersion(version)`: a new `Version`, set from `version`; `nil` with the error of `Set`. -/
def newVersion (version : GoString) : Except SemverError Version := Version.set version

/-- `Version.String`: `"%d.%d.%d"` of the three numbers, then `"-"` and the pre-release unless
it is empty, then `"+"` and the metadata unless it is empty. -/
def Version.string (v : Version) : GoString :=
  formatInt v.major ++ '.'.toUInt8 :: formatInt v.minor ++ '.'.toUInt8 :: formatInt v.patch ++
    (if v.preRelease = [] then [] else '-'.toUInt8 :: v.preRelease) ++
    (if v.metadata = [] then [] else '+'.toUInt8 :: v.metadata)

example : newVersion (.ofString "1.0.0-rc.1+build-5") =
    .ok ⟨1, 0, 0, .ofString "rc.1", .ofString "build-5"⟩ := by
  decide

end Wit.Semver
