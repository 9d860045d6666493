import Wit.Semver.Version

/-!
# Semver — the strings `NewVersion` accepts

`Set` reads `X.Y.Z`, then optionally `-` and a pre-release, then optionally `+` and metadata.
`X`, `Y` and `Z` are non-empty runs of decimal digits below `2⁶³`, leading zeros allowed
(`DecimalOf`).  The pre-release holds no `'+'`, and it and the metadata are each empty or an
identifier.  A `-` or a `+` may stand alone, for an empty pre-release or metadata (`OptPart`).

* `splitOff_eq_iff`: `splitOff` keeps what precedes the first delimiter and returns what
  follows it; with no delimiter it keeps everything and returns `""`.
* `validateIdentifier_iff`: the scanner `matchIdentifier` decides the language of
  `reIdentifier` (`IdentifierMatch`), so `validateIdentifier` accepts the empty identifier and
  the dot-separated non-empty runs of `[0-9A-Za-z-]`.
* `set_eq_ok_iff`: `Set`, after its two cuts.
* `newVersion_eq_ok_iff`: `NewVersion s` returns `v` exactly when `s` spells `v`
  (`SpellsVersion`).
* `newVersion_digits`: on `X.Y.Z` of digits, the range error of the first number that does not
  fit an `int64`, whatever its length.
-/

namespace Wit.Semver
open Wit.Go

/-- `P` writes the optional part `b` after the delimiter `d`: nothing when `b` is empty, or
`d` then `b` (also when `b` is empty). -/
def OptPart (d : UInt8) (b P : GoString) : Prop := P = [] ∧ b = [] ∨ P = d :: b

/-! ### `splitOff` -/

section SplitOff
variable {s a b P : GoString} {d : UInt8}

theorem splitOff_eq (s : GoString) (d : UInt8) :
    splitOff s d = ((cut s d).1, (cut s d).2.1) := by
  rcases h : cut s d with ⟨a, b, _ | _⟩
  · obtain ⟨hs, rfl, rfl⟩ := cut_not_found_iff.mp h
    simp [splitOff, splitN_of_not_mem hs 1]
  · obtain ⟨ha, rfl⟩ := cut_found_iff.mp h
    simp only [splitOff, splitN_append ha 0]
    rfl

theorem splitOff_optPart (h : d ∉ a) (hP : OptPart d b P) : splitOff (a ++ P) d = (a, b) := by
  rcases hP with ⟨rfl, rfl⟩ | rfl
  · rw [List.append_nil, splitOff_eq, cut_of_not_mem h]
  · rw [splitOff_eq, cut_append h]

/-- `splitOff`, inverted. -/
theorem splitOff_eq_iff :
    splitOff s d = (a, b) ↔ d ∉ a ∧ ∃ P, s = a ++ P ∧ OptPart d b P := by
  refine ⟨fun h => ?_, fun ⟨ha, P, hs, hP⟩ => hs ▸ splitOff_optPart ha hP⟩
  rw [splitOff_eq, Prod.mk.injEq] at h
  obtain ⟨rfl, rfl⟩ := h
  rcases hc : cut s d with ⟨a, b, _ | _⟩
  · obtain ⟨hs, rfl, rfl⟩ := cut_not_found_iff.mp hc
    exact ⟨hs, [], by simp, .inl ⟨rfl, rfl⟩⟩
  · obtain ⟨ha, rfl⟩ := cut_found_iff.mp hc
    exact ⟨ha, _, rfl, .inr rfl⟩

theorem splitOff_of_not_mem {s : GoString} {d : UInt8} (h : d ∉ s) : splitOff s d = (s, []) := by
  rw [splitOff_eq, cut_of_not_mem h]

end SplitOff

/-! ### `reIdentifier` -/

/-- The language of `reIdentifier`, `^[0-9A-Za-z-]+(\.[0-9A-Za-z-]+)*$`: non-empty runs of the
class `[0-9A-Za-z-]`, joined by single dots. -/
inductive IdentifierMatch : GoString → Prop
  | run {r : GoString} : r ≠ [] → (∀ c ∈ r, IsIdentChar c) → IdentifierMatch r
  | dot {r s : GoString} : r ≠ [] → (∀ c ∈ r, IsIdentChar c) → IdentifierMatch s →
      IdentifierMatch (r ++ '.'.toUInt8 :: s)

/-- What the scanner accepts from inside a match: the rest `r` of the current run, then the end
or a dot and a match; the run is not empty, unless `inPart` says it has already begun. -/
def IdentifierRest (inPart : Bool) (s : GoString) : Prop :=
  ∃ r rest, s = r ++ rest ∧ (∀ c ∈ r, IsIdentChar c) ∧ (inPart = true ∨ r ≠ []) ∧
    (rest = [] ∨ ∃ t, rest = '.'.toUInt8 :: t ∧ IdentifierMatch t)

theorem identifierMatch_iff_rest {s : GoString} : IdentifierMatch s ↔ IdentifierRest false s := by
  constructor
  · rintro (⟨hne, hr⟩ | ⟨hne, hr, ht⟩)
    · exact ⟨_, [], (List.append_nil _).symm, hr, .inr hne, .inl rfl⟩
    · exact ⟨_, _, rfl, hr, .inr hne, .inr ⟨_, rfl, ht⟩⟩
  · rintro ⟨r, rest, rfl, hr, hne, rfl | ⟨t, rfl, ht⟩⟩
    · rw [List.append_nil]
      exact .run (hne.resolve_left Bool.false_ne_true) hr
    · exact .dot (hne.resolve_left Bool.false_ne_true) hr ht

theorem not_isIdentChar_dot : ¬IsIdentChar '.'.toUInt8 := by decide

theorem identifierRest_nil {inPart : Bool} : IdentifierRest inPart [] ↔ inPart = true := by
  constructor
  · rintro ⟨r, rest, he, -, hb, -⟩
    obtain ⟨rfl, -⟩ := List.append_eq_nil.mp he.symm
    exact hb.resolve_right (not_not.mpr rfl)
  · exact fun h => ⟨[], [], rfl, fun _ h => absurd h (List.not_mem_nil _), .inl h, .inl rfl⟩

/-- One byte of a match: a dot ends a run that has begun, and a match follows it; any other
byte is of the class, and the run goes on. -/
theorem identifierRest_cons {inPart : Bool} {c : UInt8} {s : GoString} :
    IdentifierRest inPart (c :: s) ↔
      if c = '.'.toUInt8 then inPart = true ∧ IdentifierMatch s
      else IsIdentChar c ∧ IdentifierRest true s := by
  constructor
  · rintro ⟨_ | ⟨x, r⟩, rest, he, hr, hb, hrest⟩
    · -- the run has ended: the byte is the dot after it
      rw [List.nil_append] at he
      subst he
      obtain h | ⟨t, ht, hm⟩ := hrest
      · cases h
      · obtain ⟨rfl, rfl⟩ := List.cons.inj ht
        exact (if_pos rfl).mpr ⟨hb.resolve_right (not_not.mpr rfl), hm⟩
    · -- the byte belongs to the run
      obtain ⟨rfl, rfl⟩ := List.cons.inj he
      have hc := hr _ (List.mem_cons_self _ _)
      rw [if_neg (fun (h : _ = '.'.toUInt8) => not_isIdentChar_dot (h ▸ hc))]
      exact ⟨hc, r, rest, rfl, fun y hy => hr y (List.mem_cons_of_mem _ hy), .inl rfl, hrest⟩
  · split_ifs with hc
    · rintro ⟨hb, hm⟩
      exact ⟨[], _, rfl, fun _ h => absurd h (List.not_mem_nil _), .inl hb, .inr ⟨s, hc ▸ rfl, hm⟩⟩
    · rintro ⟨hic, r, rest, rfl, hr, -, hrest⟩
      exact ⟨c :: r, rest, rfl, List.forall_mem_cons.mpr ⟨hic, hr⟩, .inr (List.cons_ne_nil _ _),
        hrest⟩

/-- The scanner decides the regular expression, from any point of a match. -/
theorem matchIdentifier_eq_true_iff (inPart : Bool) (s : GoString) :
    matchIdentifier inPart s = true ↔ IdentifierRest inPart s := by
  induction s generalizing inPart with
  | nil => exact identifierRest_nil.symm
  | cons c s ih =>
    rw [matchIdentifier, identifierRest_cons]
    split
    · rw [Bool.and_eq_true, ih, ← identifierMatch_iff_rest]
    · rw [Bool.and_eq_true, decide_eq_true_iff, ih]

/-- `validateIdentifier` is `reIdentifier`'s test: it accepts the empty identifier and the
strings the regular expression matches. -/
theorem validateIdentifier_iff {id : GoString} :
    validateIdentifier id = true ↔ id = [] ∨ IdentifierMatch id := by
  rw [validateIdentifier, Bool.or_eq_true, List.isEmpty_iff, matchIdentifier_eq_true_iff,
    ← identifierMatch_iff_rest]

/-! ### The grammar -/

/-- `X` is a number as `Set` reads it: a non-empty run of decimal digits, its value `n` below
`2⁶³`. -/
def DecimalOf (X : GoString) (n : Int) : Prop :=
  X ≠ [] ∧ (∀ c ∈ X, IsDigit c) ∧ decimal 0 X < 2 ^ 63 ∧ n = decimal 0 X

/-- `s` spells the version `v` as `Set` reads it. -/
structure SpellsVersion (s : GoString) (v : Version) : Prop where
  spelled : ∃ X Y Z P Mt, s = X ++ '.'.toUInt8 :: Y ++ '.'.toUInt8 :: Z ++ P ++ Mt ∧
    DecimalOf X v.major ∧ DecimalOf Y v.minor ∧ DecimalOf Z v.patch ∧
    OptPart '-'.toUInt8 v.preRelease P ∧ OptPart '+'.toUInt8 v.metadata Mt
  plus_not_mem : '+'.toUInt8 ∉ v.preRelease
  preRelease : validateIdentifier v.preRelease = true
  metadata : validateIdentifier v.metadata = true

/-- A number holds only digits: no sign and no dot. -/
theorem DecimalOf.not_mem {X : GoString} {n : Int} (h : DecimalOf X n) {c : UInt8}
    (hc : ¬IsDigit c) : c ∉ X :=
  fun hm => hc (h.2.1 c hm)

/-- `Set`, inverted, after its two cuts: the rest splits into three numbers that
`ParseInt` reads, and the pre-release and the metadata are identifiers or empty. -/
theorem set_eq_ok_iff {s s₁ s₂ pre meta : GoString} {v : Version}
    (h₁ : splitOff s '+'.toUInt8 = (s₁, meta))
    (h₂ : splitOff s₁ '-'.toUInt8 = (s₂, pre)) :
    Version.set s = .ok v ↔ ∃ x y z, splitN s₂ '.'.toUInt8 3 = [x, y, z] ∧
      validateIdentifier pre = true ∧ validateIdentifier meta = true ∧
      parseInt x = .ok v.major ∧ parseInt y = .ok v.minor ∧ parseInt z = .ok v.patch ∧
      v.preRelease = pre ∧ v.metadata = meta := by
  simp only [Version.set, h₁, h₂]
  split
  · rename_i x y z hs
    obtain ⟨a, b, c, d, e⟩ := v
    cases hp : validateIdentifier pre <;> cases hm : validateIdentifier meta <;>
      simp [hs, pure, Except.pure]
    constructor
    · rintro ⟨_, hx, _, hy, _, hz, rfl, rfl, rfl, rfl, rfl⟩
      exact ⟨_, _, _, ⟨rfl, rfl, rfl⟩, hx, hy, hz, rfl, rfl⟩
    · rintro ⟨_, _, _, ⟨rfl, rfl, rfl⟩, hx, hy, hz, rfl, rfl⟩
      exact ⟨_, hx, _, hy, _, hz, rfl, rfl, rfl, rfl, rfl⟩
  · rename_i hne
    simp only [reduceCtorEq, false_iff]
    rintro ⟨x, y, z, hs, -⟩
    exact hne x y z hs

/-- What `NewVersion` accepts, it accepts as the version the string spells. -/
theorem SpellsVersion.of_newVersion {s : GoString} {v : Version} (h : newVersion s = .ok v) :
    SpellsVersion s v := by
  rcases h₁ : splitOff s '+'.toUInt8 with ⟨s₁, meta⟩
  rcases h₂ : splitOff s₁ '-'.toUInt8 with ⟨s₂, pre⟩
  obtain ⟨x, y, z, hs, hp, hm, hx, hy, hz, rfl, rfl⟩ := (set_eq_ok_iff h₁ h₂).mp h
  obtain ⟨hplus, Mt, rfl, hMt⟩ := splitOff_eq_iff.mp h₁
  obtain ⟨hminus, P, rfl, hP⟩ := splitOff_eq_iff.mp h₂
  obtain ⟨-, -, rfl⟩ := splitN_three_eq_iff.mp hs
  have num : ∀ {w : GoString} {n : Int}, (∀ c, c ∈ w → c ∈ x ++ '.'.toUInt8 :: y ++
      '.'.toUInt8 :: z) → parseInt w = .ok n → DecimalOf w n := fun hw hn =>
    (parseInt_unsigned_iff (fun h => hplus (List.mem_append_left _ (hw _ h)))
      (fun h => hminus (hw _ h))).mp hn
  refine ⟨⟨x, y, z, P, Mt, by simp, num (fun _ h => by simp [h]) hx,
    num (fun _ h => by simp [h]) hy, num (fun _ h => by simp [h]) hz, hP, hMt⟩, ?_, hp, hm⟩
  rcases hP with ⟨-, hpre⟩ | rfl
  · exact hpre ▸ List.not_mem_nil _
  · exact fun h => hplus (by simp [h])

/-- `NewVersion` accepts every string that spells a version, as that version. -/
theorem newVersion_of_spellsVersion {s : GoString} {v : Version} (h : SpellsVersion s v) :
    newVersion s = .ok v := by
  have plus : ¬IsDigit '+'.toUInt8 := by decide
  have minus : ¬IsDigit '-'.toUInt8 := by decide
  have dot : ¬IsDigit '.'.toUInt8 := by decide
  obtain ⟨⟨X, Y, Z, P, Mt, rfl, hX, hY, hZ, hP, hMt⟩, hplus, hpre, hmeta⟩ := h
  have h₂ : splitOff (X ++ '.'.toUInt8 :: Y ++ '.'.toUInt8 :: Z ++ P) '-'.toUInt8 =
      (X ++ '.'.toUInt8 :: Y ++ '.'.toUInt8 :: Z, v.preRelease) :=
    splitOff_optPart (by simp [hX.not_mem minus, hY.not_mem minus, hZ.not_mem minus,
      (by decide : '-'.toUInt8 ≠ '.'.toUInt8)]) hP
  have hplusP : '+'.toUInt8 ∉ P := by
    rcases hP with ⟨rfl, -⟩ | rfl
    · exact List.not_mem_nil _
    · simp [hplus, (by decide : '+'.toUInt8 ≠ '-'.toUInt8)]
  have h₁ : splitOff (X ++ '.'.toUInt8 :: Y ++ '.'.toUInt8 :: Z ++ P ++ Mt) '+'.toUInt8 =
      (X ++ '.'.toUInt8 :: Y ++ '.'.toUInt8 :: Z ++ P, v.metadata) :=
    splitOff_optPart (by simp [hX.not_mem plus, hY.not_mem plus, hZ.not_mem plus, hplusP,
      (by decide : '+'.toUInt8 ≠ '.'.toUInt8)]) hMt
  have int : ∀ {W : GoString} {n : Int}, DecimalOf W n → parseInt W = .ok n :=
    fun hW => (parseInt_unsigned_iff (hW.not_mem plus) (hW.not_mem minus)).mpr hW
  exact (set_eq_ok_iff h₁ h₂).mpr ⟨X, Y, Z,
    splitN_three_eq_iff.mpr ⟨hX.not_mem dot, hY.not_mem dot, rfl⟩, hpre, hmeta,
    int hX, int hY, int hZ, rfl, rfl⟩

/-- **The strings `NewVersion` accepts.**  `NewVersion s` returns `v` exactly when `s` spells
`v`. -/
theorem newVersion_eq_ok_iff {s : GoString} {v : Version} :
    newVersion s = .ok v ↔ SpellsVersion s v :=
  ⟨SpellsVersion.of_newVersion, newVersion_of_spellsVersion⟩

/-! ### Numbers -/

/-- `Set` reading one run of digits `W`, of value `d`, before the rest `f` of its work. -/
theorem bind_parseInt_digits {α : Type} {W : GoString} {d : Nat}
    {f : Int → Except SemverError α} :
    ((if d < 2 ^ 63 then .ok (d : Int) else .error ⟨W, .range⟩ : Except NumError Int).mapError
        .parseInt >>= f) = if 2 ^ 63 ≤ d then .error (.parseInt ⟨W, .range⟩) else f d := by
  by_cases h : d < 2 ^ 63
  · rw [if_pos h, if_neg (Nat.not_le.mpr h)]
    rfl
  · rw [if_neg h, if_pos (Nat.le_of_not_lt h)]
    rfl

/-- `NewVersion` on three runs of digits, however long: the range error of the first number
of `2⁶³` or more, read in the order major, minor, patch; otherwise the version of the three
values. -/
theorem newVersion_digits {X Y Z : GoString} (hX : X ≠ [] ∧ ∀ c ∈ X, IsDigit c)
    (hY : Y ≠ [] ∧ ∀ c ∈ Y, IsDigit c) (hZ : Z ≠ [] ∧ ∀ c ∈ Z, IsDigit c) :
    newVersion (X ++ '.'.toUInt8 :: Y ++ '.'.toUInt8 :: Z) =
      if 2 ^ 63 ≤ decimal 0 X then .error (.parseInt ⟨X, .range⟩)
      else if 2 ^ 63 ≤ decimal 0 Y then .error (.parseInt ⟨Y, .range⟩)
      else if 2 ^ 63 ≤ decimal 0 Z then .error (.parseInt ⟨Z, .range⟩)
      else .ok ⟨decimal 0 X, decimal 0 Y, decimal 0 Z, [], []⟩ := by
  have nd : ∀ {W : GoString} {c : UInt8}, (∀ x ∈ W, IsDigit x) → ¬IsDigit c → c ∉ W :=
    fun hW hc hm => hc (hW _ hm)
  have sep : ∀ {c : UInt8}, ¬IsDigit c → c ≠ '.'.toUInt8 →
      c ∉ X ++ '.'.toUInt8 :: Y ++ '.'.toUInt8 :: Z :=
    fun hc hd => by simp [nd hX.2 hc, nd hY.2 hc, nd hZ.2 hc, hd]
  have hsplit : splitN (X ++ '.'.toUInt8 :: Y ++ '.'.toUInt8 :: Z) '.'.toUInt8 3 = [X, Y, Z] :=
    splitN_three_eq_iff.mpr ⟨nd hX.2 (by decide), nd hY.2 (by decide), rfl⟩
  simp only [newVersion, Version.set,
    splitOff_of_not_mem (sep (by decide) (by decide) : '+'.toUInt8 ∉ _), splitOff_of_not_mem (sep (by decide) (by decide) : '-'.toUInt8 ∉ _), hsplit,
    (rfl : validateIdentifier [] = true), Bool.not_true, Bool.false_eq_true, if_false,
    parseInt_digits hX.1 hX.2, parseInt_digits hY.1 hY.2, parseInt_digits hZ.1 hZ.2,
    bind_parseInt_digits]
  rfl

end Wit.Semver
