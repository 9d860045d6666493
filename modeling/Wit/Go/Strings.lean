import Mathlib.Data.List.Basic

/-!
# Go — strings

A Go `string` is a sequence of bytes, not necessarily valid UTF-8, so here it is a
`List UInt8` (`GoString`); `GoString.ofString` is a literal's UTF-8 encoding.  The package-name
and semver code split strings with `strings.Cut` and `strings.SplitN`, and only ever at a
one-byte separator (`"@"`, `":"`, `"+"`, `"-"`, `"."`), which is the case modelled.

* `cut_found_iff`, `cut_not_found_iff`: `cut s sep` is `(a, b, true)` exactly when `a` is
  everything before the first `sep` and `b` everything after it, and `(s, "", false)` exactly
  when there is no `sep`.
* `eq_of_append_sep`: so a string has one first separator.
* `splitN_append`, `splitN_of_not_mem`: `splitN` cuts at the first separators, one at a time.
-/

namespace Wit.Go

/-- A Go `string`: its bytes. -/
abbrev GoString := List UInt8

/-- The bytes of a Go string literal: its UTF-8 encoding. -/
def GoString.ofString (s : String) : GoString := s.toUTF8.data.toList

/-- `strings.Cut(s, sep)` for a one-byte `sep`: the bytes before the first `sep`, the bytes
after it, and whether there was one; `(s, "", false)` when there is none. -/
def cut : GoString → UInt8 → GoString × GoString × Bool
  | [],     _   => ([], [], false)
  | c :: s, sep => if c = sep then ([], s, true) else (c :: (cut s sep).1, (cut s sep).2)

/-- `strings.SplitN(s, sep, n)` for a one-byte `sep` and `n ≥ 0`: at most `n` pieces, cut at
the first `n - 1` separators, the last piece keeping the rest. -/
def splitN (s : GoString) (sep : UInt8) : Nat → List GoString
  | 0     => []
  | 1     => [s]
  | n + 2 => if (cut s sep).2.2 then (cut s sep).1 :: splitN (cut s sep).2.1 sep (n + 1) else [s]

variable {s a b : GoString} {sep c : UInt8}

@[simp] theorem cut_nil : cut [] sep = ([], [], false) := rfl

@[simp] theorem cut_cons_sep : cut (sep :: s) sep = ([], s, true) := by simp [cut]

@[simp] theorem cut_cons_of_ne (h : c ≠ sep) :
    cut (c :: s) sep = (c :: (cut s sep).1, (cut s sep).2) := by simp [cut, h]

/-- No separator: the whole string before it, nothing after. -/
theorem cut_of_not_mem (h : sep ∉ s) : cut s sep = (s, [], false) := by
  induction s with
  | nil => rfl
  | cons c s ih =>
    rw [List.mem_cons, not_or] at h
    rw [cut_cons_of_ne (Ne.symm h.1), ih h.2]

/-- A first separator: what precedes it, and what follows it. -/
theorem cut_append (h : sep ∉ a) : cut (a ++ sep :: b) sep = (a, b, true) := by
  induction a with
  | nil => exact cut_cons_sep
  | cons c a ih =>
    rw [List.mem_cons, not_or] at h
    rw [List.cons_append, cut_cons_of_ne (Ne.symm h.1), ih h.2]

theorem cut_found_iff : cut s sep = (a, b, true) ↔ sep ∉ a ∧ s = a ++ sep :: b := by
  refine ⟨fun h => ?_, fun ⟨ha, hs⟩ => hs ▸ cut_append ha⟩
  induction s generalizing a with
  | nil => cases h
  | cons c s ih =>
    by_cases hc : c = sep
    · subst hc
      rw [cut_cons_sep] at h
      cases h
      exact ⟨List.not_mem_nil _, rfl⟩
    · rw [cut_cons_of_ne hc, Prod.mk.injEq] at h
      obtain ⟨rfl, h⟩ := h
      obtain ⟨ha, hs⟩ := ih (Prod.ext rfl h)
      exact ⟨by simp [Ne.symm hc, ha], by rw [List.cons_append, ← hs]⟩

theorem cut_not_found_iff : cut s sep = (a, b, false) ↔ sep ∉ s ∧ a = s ∧ b = [] := by
  refine ⟨fun h => ?_, by rintro ⟨hs, rfl, rfl⟩; exact cut_of_not_mem hs⟩
  induction s generalizing a with
  | nil => cases h; exact ⟨List.not_mem_nil _, rfl, rfl⟩
  | cons c s ih =>
    by_cases hc : c = sep
    · subst hc
      rw [cut_cons_sep] at h
      cases h
    · rw [cut_cons_of_ne hc, Prod.mk.injEq] at h
      obtain ⟨rfl, h⟩ := h
      obtain ⟨hs, ha, rfl⟩ := ih (Prod.ext rfl h)
      exact ⟨by simp [Ne.symm hc, hs], congrArg (c :: ·) ha, rfl⟩

/-- A string splits at its first separator in one way only. -/
theorem eq_of_append_sep {a' b' : GoString} (ha : sep ∉ a) (ha' : sep ∉ a')
    (h : a ++ sep :: b = a' ++ sep :: b') : a = a' ∧ b = b' := by
  have hc : cut (a ++ sep :: b) sep = (a, b, true) := cut_append ha
  rw [h, cut_append ha', Prod.mk.injEq, Prod.mk.injEq] at hc
  exact ⟨hc.1.symm, hc.2.1.symm⟩

/-- A string is a run of bytes of a class `q`, then a rest that does not start with one, in one
way only. -/
theorem append_inj_of_span {q : UInt8 → Prop} {a' b' : GoString} (ha : ∀ c ∈ a, q c)
    (ha' : ∀ c ∈ a', q c) (hb : ∀ c ∈ b.head?, ¬q c) (hb' : ∀ c ∈ b'.head?, ¬q c)
    (h : a ++ b = a' ++ b') : a = a' ∧ b = b' := by
  induction a generalizing a' with
  | nil =>
    cases a' with
    | nil => exact ⟨rfl, h⟩
    | cons c a' =>
      subst h
      exact absurd (ha' c (List.mem_cons_self _ _)) (hb c rfl)
  | cons c a ih =>
    cases a' with
    | nil =>
      subst h
      exact absurd (ha c (List.mem_cons_self _ _)) (hb' c rfl)
    | cons c' a' =>
      rw [List.cons_append, List.cons_append, List.cons.injEq] at h
      obtain ⟨rfl, h⟩ := h
      obtain ⟨rfl, rfl⟩ := ih (fun x hx => ha x (List.mem_cons_of_mem _ hx))
        (fun x hx => ha' x (List.mem_cons_of_mem _ hx)) h
      exact ⟨rfl, rfl⟩

/-- The first piece of a split, cut off at the first separator. -/
theorem splitN_append (h : sep ∉ a) (n : Nat) :
    splitN (a ++ sep :: b) sep (n + 2) = a :: splitN b sep (n + 1) := by
  simp only [splitN, cut_append h, if_true]

/-- No separator, one piece. -/
theorem splitN_of_not_mem (h : sep ∉ s) : ∀ n, splitN s sep (n + 1) = [s]
  | 0     => rfl
  | n + 1 => by simp [splitN, cut_of_not_mem h]

/-- A split into two or more pieces was cut at the first separator. -/
theorem splitN_eq_cons {n : Nat} {x y : GoString} {rest : List GoString}
    (h : splitN s sep (n + 2) = x :: y :: rest) :
    sep ∉ x ∧ ∃ t, s = x ++ sep :: t ∧ splitN t sep (n + 1) = y :: rest := by
  unfold splitN at h
  split at h
  · rename_i hf
    obtain ⟨hx, ht⟩ := List.cons.inj h
    obtain ⟨hsep, hs⟩ := cut_found_iff.mp (Prod.ext rfl (Prod.ext rfl hf))
    exact ⟨hx ▸ hsep, _, hx ▸ hs, ht⟩
  · cases h

/-- `strings.SplitN(s, sep, 3)` gives three pieces exactly when `s` has two separators. -/
theorem splitN_three_eq_iff {x y z : GoString} :
    splitN s sep 3 = [x, y, z] ↔ sep ∉ x ∧ sep ∉ y ∧ s = x ++ sep :: y ++ sep :: z := by
  constructor
  · intro h
    obtain ⟨hx, t, rfl, ht⟩ := splitN_eq_cons h
    obtain ⟨hy, u, rfl, hu⟩ := splitN_eq_cons ht
    cases hu
    exact ⟨hx, hy, by simp⟩
  · rintro ⟨hx, hy, rfl⟩
    rw [List.append_assoc, List.cons_append, splitN_append hx, splitN_append hy]
    rfl

end Wit.Go
