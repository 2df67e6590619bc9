import Mathlib.Data.List.Infix
import Taskflow.Types

/-!
# Substring search and retryable errors

`contains` and `hasSubstring` of `internal/types`, their copies in
`internal/worker`, and `IsRetryableError`, which calls the first.

Go strings are byte strings and every slice expression checks its bounds, so
`slice` returns `none` exactly where Go panics, and a search that returns
`some b` has not panicked. The results:

* `types.hasSubstring_eq`: the loop of `hasSubstring` slices only within
  bounds, and answers whether `substr` occurs in `s`, for every pair of byte
  strings, an empty `substr` and one longer than `s` included;
* `types.contains_eq`, `worker.contains_eq`: both `contains` give the same
  answer; the prefix and suffix tests of the first agree with the scan;
* `isRetryableError_some`: `IsRetryableError` looks for its patterns byte for
  byte, so the case of a letter counts, although the comment on `contains`
  calls it case-insensitive.
-/

namespace Taskflow

/-- Go's slice expression `s[i:j]` on a string: the bytes from `i` up to `j`,
or `none` where Go panics, that is unless `0 ≤ i ≤ j ≤ len(s)`. -/
def slice (s : Bytes) (i j : Int) : Option Bytes :=
  if 0 ≤ i ∧ i ≤ j ∧ j ≤ s.length then some ((s.drop i.toNat).take (j - i).toNat) else none

/-- `substr` occurs in `s` at byte offset `i`: the slice `s[i:i+len(substr)]` is
within bounds and equals `substr`. -/
def MatchAt (s substr : Bytes) (i : Nat) : Prop :=
  i + substr.length ≤ s.length ∧ (s.drop i).take substr.length = substr

instance (s substr : Bytes) (i : Nat) : Decidable (MatchAt s substr i) :=
  inferInstanceAs (Decidable (_ ∧ _))

namespace types

/-- The loop of `hasSubstring` from index `i`, with `n` rounds left. -/
def hasSubstringFrom (s substr : Bytes) : Nat → Nat → Option Bool
  | _, 0 => pure false
  | i, n + 1 => do
    let w ← slice s i (i + substr.length)
    if w = substr then pure true else hasSubstringFrom s substr (i + 1) n

/-- `hasSubstring`. Its loop `for i := 0; i <= len(s)-len(substr); i++` runs
`len(s) - len(substr) + 1` rounds, and none when that count is not positive. -/
def hasSubstring (s substr : Bytes) : Option Bool :=
  hasSubstringFrom s substr 0 ((s.length - substr.length + 1 : Int).toNat)

/-- `contains`: the length test, equality, and for a longer `s` a prefix test,
a suffix test and the scan, each tried only when the one before fails. -/
def contains (s substr : Bytes) : Option Bool :=
  if s.length ≥ substr.length then
    if s = substr then pure true
    else if s.length > substr.length then do
      let pre ← slice s 0 substr.length
      if pre = substr then pure true else do
      let suf ← slice s (s.length - substr.length) s.length
      if suf = substr then pure true else hasSubstring s substr
    else pure false
  else pure false

end types

namespace worker

/-- The worker package's `hasSubstring`: the loop of `types.hasSubstring`. -/
def hasSubstring (s substr : Bytes) : Option Bool := types.hasSubstring s substr

/-- The worker package's `contains`: the length test, equality, then the scan. -/
def contains (s substr : Bytes) : Option Bool :=
  if s.length ≥ substr.length then
    if s = substr then pure true else hasSubstring s substr
  else pure false

end worker

/-- The substrings `IsRetryableError` looks for, in its order. -/
def retryablePatterns : List Bytes :=
  ["connection refused", "timeout", "temporary failure", "network is unreachable",
    "no route to host", "connection reset"].map bytes

/-- `IsRetryableError`: `none` is a nil error and `some msg` an error whose
`Error()` is `msg`. The first pattern that `contains` finds answers `true`. -/
def isRetryableError : Option Bytes → Option Bool
  | none => pure false
  | some msg => retryablePatterns.anyM (types.contains msg)

/-! ## Slices and matches -/

theorem slice_at {s : Bytes} {i k : Nat} (h : i + k ≤ s.length) :
    slice s i (i + k) = some ((s.drop i).take k) := by
  have h₁ : (i : Int).toNat = i := by omega
  have h₂ : ((i : Int) + k - i).toNat = k := by omega
  rw [slice, if_pos (by omega), h₁, h₂]

theorem slice_from_zero {s : Bytes} {k : Nat} (h : k ≤ s.length) :
    slice s 0 k = some (s.take k) := by
  simpa using slice_at (i := 0) (s := s) (by simpa using h)

theorem slice_to_end {s : Bytes} {k : Nat} (h : k ≤ s.length) :
    slice s (s.length - k) s.length = some (s.drop (s.length - k)) := by
  have h₁ : ((s.length : Int) - k).toNat = s.length - k := by omega
  have h₂ : ((s.length : Int) - (s.length - k)).toNat = k := by omega
  rw [slice, if_pos (by omega), h₁, h₂, List.take_of_length_le (by rw [List.length_drop]; omega)]

/-- An occurrence is a match at some offset. -/
theorem isInfix_iff_matchAt {s substr : Bytes} : substr <:+: s ↔ ∃ i, MatchAt s substr i := by
  constructor
  · rintro ⟨l₁, l₂, rfl⟩
    exact ⟨l₁.length, by simp, by simp⟩
  · rintro ⟨i, -, h⟩
    refine ⟨s.take i, (s.drop i).drop substr.length, ?_⟩
    calc s.take i ++ substr ++ (s.drop i).drop substr.length
        = s.take i ++ ((s.drop i).take substr.length ++ (s.drop i).drop substr.length) := by
          rw [h, List.append_assoc]
      _ = s := by rw [List.take_append_drop, List.take_append_drop]

/-! ## The scan -/

namespace types

/-- Each round of the loop slices within bounds, and the loop answers whether
some round's offset is a match. -/
theorem hasSubstringFrom_eq (s substr : Bytes) (n : Nat) : ∀ i,
    (∀ j, i ≤ j → j < i + n → j + substr.length ≤ s.length) →
      hasSubstringFrom s substr i n =
        some ((List.range' i n).any fun j => decide (MatchAt s substr j)) := by
  induction n with
  | zero => intro i _; rfl
  | succ n ih =>
    intro i hin
    have hi := hin i le_rfl (by omega)
    rw [hasSubstringFrom, slice_at hi, ih (i + 1) fun j h₁ h₂ => hin j (by omega) (by omega)]
    by_cases hm : (s.drop i).take substr.length = substr <;>
      simp [hm, hi, MatchAt, List.range'_succ]

/-- `hasSubstring` never panics and answers whether `substr` occurs in `s`. -/
theorem hasSubstring_eq (s substr : Bytes) :
    hasSubstring s substr = some (decide (substr <:+: s)) := by
  rw [hasSubstring, hasSubstringFrom_eq _ _ _ 0 fun j _ hj => by omega]
  congr 1
  rw [Bool.eq_iff_iff]
  simp only [List.any_eq_true, List.mem_range'_1, decide_eq_true_eq, isInfix_iff_matchAt]
  exact ⟨fun ⟨j, _, hj⟩ => ⟨j, hj⟩, fun ⟨j, hj⟩ => ⟨j, ⟨by omega, by have := hj.1; omega⟩, hj⟩⟩

/-- `contains` never panics and answers whether `substr` occurs in `s`: its
prefix and suffix tests only ever answer `true` for an occurrence. -/
theorem contains_eq (s substr : Bytes) : contains s substr = some (decide (substr <:+: s)) := by
  unfold contains
  by_cases hge : s.length ≥ substr.length
  · rw [if_pos hge]
    by_cases heq : s = substr
    · subst heq
      rw [if_pos rfl, decide_eq_true List.infix_rfl]
      rfl
    · rw [if_neg heq]
      by_cases hgt : s.length > substr.length
      · rw [if_pos hgt, slice_from_zero hge, slice_to_end hge]
        simp only [Option.bind_eq_bind, Option.some_bind, hasSubstring_eq]
        split_ifs with hpre hsuf
        · rw [decide_eq_true (List.prefix_iff_eq_take.mpr hpre.symm).isInfix]
          rfl
        · rw [decide_eq_true (List.suffix_iff_eq_drop.mpr hsuf.symm).isInfix]
          rfl
        · rfl
      · rw [if_neg hgt, decide_eq_false fun h => heq (h.eq_of_length (by omega)).symm]
        rfl
  · rw [if_neg hge, decide_eq_false fun h => hge h.length_le]
    rfl


end types

/-- The worker's `contains` answers as the types package's does. -/
theorem worker.contains_eq (s substr : Bytes) :
    worker.contains s substr = some (decide (substr <:+: s)) := by
  unfold worker.contains worker.hasSubstring
  split_ifs with hge heq
  · subst heq; simp
  · exact types.hasSubstring_eq s substr
  · simp only [Option.pure_def, Option.some.injEq, false_eq_decide_iff]
    exact fun h => hge h.length_le

/-- Both packages' `contains` and `hasSubstring` never panic, and answer whether
`substr` occurs in `s`, byte for byte. -/
theorem substring_helpers_exact (s substr : Bytes) :
    types.contains s substr = some (decide (substr <:+: s)) ∧
      worker.contains s substr = some (decide (substr <:+: s)) ∧
      types.hasSubstring s substr = some (decide (substr <:+: s)) ∧
      worker.hasSubstring s substr = some (decide (substr <:+: s)) :=
  ⟨types.contains_eq s substr, worker.contains_eq s substr, types.hasSubstring_eq s substr,
    types.hasSubstring_eq s substr⟩

example : types.contains (bytes "dial tcp: i/o timeout") (bytes "timeout") = some true := by
  decide

/-! ## Retryable errors -/

/-- The loop of `IsRetryableError` over any list of patterns. -/
theorem anyM_contains (msg : Bytes) (l : List Bytes) :
    l.anyM (types.contains msg) = some (l.any fun p => decide (p <:+: msg)) := by
  induction l with
  | nil => rfl
  | cons p ps ih =>
    simp only [List.anyM, types.contains_eq, Option.bind_eq_bind, Option.some_bind, List.any_cons]
    by_cases hp : p <:+: msg <;> simp [hp, ih]

/-- `IsRetryableError` of a non-nil error: one of the patterns occurs in the
message, byte for byte. -/
theorem isRetryableError_some (msg : Bytes) :
    isRetryableError (some msg) =
      some (retryablePatterns.any fun p => decide (p <:+: msg)) :=
  anyM_contains msg retryablePatterns

/-- The same refused connection, reported with a capital letter, is not
retryable. -/
theorem retryable_error_case_sensitive :
    isRetryableError (some (bytes "Connection refused")) = some false ∧
      isRetryableError (some (bytes "connection refused")) = some true := by
  decide

end Taskflow
