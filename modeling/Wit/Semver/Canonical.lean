import Wit.Semver.RoundTrip

/-!
# Semver — the versions `String` writes

`NewVersion` accepts more spellings of a version than `String` writes: numbers with leading
zeros (`01.2.3`), and a `-` or `+` with nothing after it (`1.2.3-`, `1.2.3+`), which stand for
an empty pre-release or metadata.  `CanonicalVersion` is the grammar of what `String` writes:
numbers as `%d` writes them, and a `-` or `+` only before a part that is not empty.

* `canonicalVersion_string`: `String` writes every well-formed version canonically.
* `SpellsVersion.string_eq_of_canonical`: the grammar of `Set` reads a string in one way only,
  so a canonical spelling of `v` is `v`'s `String`.
* `SpellsVersion.string_eq_iff`: the two together; `String` gives back a string `NewVersion`
  accepted exactly when that string was canonical.
* `SpellsVersion.zero_cons`: a `0` before the major number is read as nothing.
-/

namespace Wit.Semver
open Wit.Go

/-- `P` writes an optional part after the delimiter `d` as `String` does: nothing, or `d` then a
part that is not empty. -/
def CanonicalPart (d : UInt8) (P : GoString) : Prop := P = [] ∨ ∃ b, b ≠ [] ∧ P = d :: b

/-- `V` is a version written as `String` writes one: `X.Y.Z` with each number a numeral, then
optionally `-` and a pre-release with no `'+'`, then optionally `+` and metadata, neither part
empty when its delimiter is there. -/
def CanonicalVersion (V : GoString) : Prop :=
  ∃ X Y Z P Mt, V = X ++ '.'.toUInt8 :: Y ++ '.'.toUInt8 :: Z ++ P ++ Mt ∧
    IsNumeral X ∧ IsNumeral Y ∧ IsNumeral Z ∧
    CanonicalPart '-'.toUInt8 P ∧ '+'.toUInt8 ∉ P ∧ CanonicalPart '+'.toUInt8 Mt

section
variable {V : GoString} {v : Version} {d : UInt8} {b P : GoString}

theorem isNumeral_formatInt {n : Int} (h : 0 ≤ n) : IsNumeral (formatInt n) := by
  rw [formatInt, if_neg (by omega)]
  exact formatNat_isNumeral _

theorem formatInt_decimalOf {X : GoString} {n : Int} (hX : DecimalOf X n) (hc : IsNumeral X) :
    formatInt n = X := by
  obtain ⟨-, -, -, rfl⟩ := hX
  rw [formatInt, if_neg (by omega), Int.toNat_ofNat, formatNat_decimal hc]

theorem canonicalPart_ite : CanonicalPart d (if b = [] then [] else d :: b) := by
  split
  · exact .inl rfl
  · exact .inr ⟨b, ‹_›, rfl⟩

/-- A part written canonically is written as `String` writes it. -/
theorem ite_eq_of_canonicalPart (h : OptPart d b P) (hc : CanonicalPart d P) :
    (if b = [] then [] else d :: b) = P := by
  rcases h with ⟨rfl, rfl⟩ | rfl
  · rfl
  · obtain h | ⟨b', hb', h⟩ := hc
    · cases h
    · obtain ⟨-, rfl⟩ := List.cons.inj h
      exact if_neg hb'

theorem head_optPart (h : OptPart d b P) : ∀ c ∈ P.head?, c = d := by
  rcases h with ⟨rfl, -⟩ | rfl <;> simp

theorem head_canonicalPart (h : CanonicalPart d P) : ∀ c ∈ P.head?, c = d := by
  rcases h with rfl | ⟨b, -, rfl⟩ <;> simp

/-- What follows the patch number, if anything, starts with `-` or `+`, which are no digits. -/
theorem not_isDigit_head {Mt : GoString} (hP : ∀ c ∈ P.head?, c = '-'.toUInt8)
    (hMt : ∀ c ∈ Mt.head?, c = '+'.toUInt8) : ∀ c ∈ (P ++ Mt).head?, ¬IsDigit c := by
  cases P with
  | nil => exact fun c hc => hMt c hc ▸ by decide
  | cons x P => exact fun c hc => (Option.some.inj hc ▸ hP x rfl) ▸ by decide

/-- `String` writes every well-formed version canonically. -/
theorem canonicalVersion_string (hv : v.WellFormed) : CanonicalVersion v.string := by
  refine ⟨_, _, _, _, _, rfl, isNumeral_formatInt hv.major.1, isNumeral_formatInt hv.minor.1,
    isNumeral_formatInt hv.patch.1, canonicalPart_ite, ?_, canonicalPart_ite⟩
  split
  · exact List.not_mem_nil _
  · simp [hv.plus_not_mem, (by decide : '+'.toUInt8 ≠ '-'.toUInt8)]

/-- A canonical spelling of `v` is `v`'s `String`, since it can be read in one way only: the
numbers end at the dots and at the first byte that is no digit, the pre-release at the first
`'+'`, and each piece is written as `String` writes it. -/
theorem SpellsVersion.string_eq_of_canonical (h : SpellsVersion V v) (hc : CanonicalVersion V) :
    v.string = V := by
  obtain ⟨⟨X, Y, Z, P, Mt, rfl, hX, hY, hZ, hP, hMt⟩, hplus, -, -⟩ := h
  obtain ⟨X', Y', Z', P', Mt', hV, hX', hY', hZ', hP', hplus', hMt'⟩ := hc
  simp only [List.append_assoc, List.cons_append] at hV
  have dot : ¬IsDigit '.'.toUInt8 := by decide
  obtain ⟨rfl, hYZ⟩ := eq_of_append_sep (hX.not_mem dot) (hX'.not_mem dot) hV
  obtain ⟨rfl, hZ₁⟩ := eq_of_append_sep (hY.not_mem dot) (hY'.not_mem dot) hYZ
  obtain ⟨rfl, hPM⟩ := append_inj_of_span hZ.2.1 hZ'.2.1
    (not_isDigit_head (head_optPart hP) (head_optPart hMt))
    (not_isDigit_head (head_canonicalPart hP') (head_canonicalPart hMt')) hZ₁
  have hplusP : '+'.toUInt8 ∉ P := by
    rcases hP with ⟨rfl, -⟩ | rfl
    · exact List.not_mem_nil _
    · simp [hplus, (by decide : '+'.toUInt8 ≠ '-'.toUInt8)]
  obtain ⟨rfl, rfl⟩ := append_inj_of_span
    (fun c hc h => hplusP (h ▸ hc) : ∀ c ∈ P, c ≠ '+'.toUInt8) (fun c hc h => hplus' (h ▸ hc))
    (fun c hc => not_not.mpr (head_optPart hMt c hc))
    (fun c hc => not_not.mpr (head_canonicalPart hMt' c hc)) hPM
  rw [Version.string, formatInt_decimalOf hX hX', formatInt_decimalOf hY hY',
    formatInt_decimalOf hZ hZ', ite_eq_of_canonicalPart hP hP', ite_eq_of_canonicalPart hMt hMt']

/-- **`String` gives back exactly the canonical spellings.**  For a string `NewVersion` reads as
`v`, `v`'s `String` is that string exactly when it is canonical. -/
theorem SpellsVersion.string_eq_iff (h : SpellsVersion V v) : v.string = V ↔ CanonicalVersion V :=
  ⟨fun e => e ▸ canonicalVersion_string h.wellFormed, h.string_eq_of_canonical⟩

/-- A `0` written before a number leaves its value as it is. -/
theorem DecimalOf.zero_cons {X : GoString} {n : Int} (h : DecimalOf X n) :
    DecimalOf ('0'.toUInt8 :: X) n := by
  obtain ⟨-, hd, hlt, rfl⟩ := h
  have hz : decimal 0 ('0'.toUInt8 :: X) = decimal 0 X := rfl
  refine ⟨List.cons_ne_nil _ _, ?_, hz ▸ hlt, hz ▸ rfl⟩
  simp only [List.mem_cons, forall_eq_or_imp]
  exact ⟨by decide, hd⟩

/-- `NewVersion` reads a `0` before the major number as nothing: a version has spellings that
are not canonical. -/
theorem SpellsVersion.zero_cons {V : GoString} {v : Version} (h : SpellsVersion V v) :
    SpellsVersion ('0'.toUInt8 :: V) v := by
  obtain ⟨⟨X, Y, Z, P, Mt, rfl, hX, hY, hZ, hP, hMt⟩, hplus, hpre, hmeta⟩ := h
  exact ⟨⟨'0'.toUInt8 :: X, Y, Z, P, Mt, rfl, hX.zero_cons, hY, hZ, hP, hMt⟩, hplus, hpre, hmeta⟩

end

end Wit.Semver
