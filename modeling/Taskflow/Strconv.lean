import Taskflow.Types

/-!
# Number parsing (`strconv`)

The parts of Go's `strconv` that the handlers and the JSON decoder reach:
`ParseUint` and `ParseInt` in base 10, `Atoi`, and the range check of
`ParseFloat`. They work on byte strings and return Go's pair of a value and an
error.

* `parseInt_range`: `ParseInt` returns an `int64`, whatever it is given;
* `parseInt_of_digits`: of a sign and a decimal it returns the signed value when
  that is an `int64`, and the bound of the sign with `ErrRange` otherwise;
* `parseFloatOverflows` decides `ParseFloat`'s range error exactly, without
  computing a power of ten larger than the literal.
-/

namespace Taskflow

namespace strconv

/-- The kinds of `strconv.NumError`: `ErrSyntax` and `ErrRange`. -/
inductive NumError where
  | errSyntax
  | errRange
deriving DecidableEq, Repr

/-- The largest `uint64`. -/
def maxUint64 : Nat := 18446744073709551615

/-- An ASCII digit. -/
def isDigit (c : UInt8) : Bool := 48 ≤ c && c ≤ 57

/-- The digit loop of `ParseUint(s, 10, 64)` from the value `n` read so far.
It stops at the first byte that is not a digit (a syntax error) or that takes
the value out of `uint64` (a range error), whichever comes first. -/
def parseUintDigits : Nat → Bytes → Except NumError Nat
  | n, [] => .ok n
  | n, c :: cs =>
    if !isDigit c then .error .errSyntax
    else if n ≥ maxUint64 / 10 + 1 then .error .errRange
    else if n * 10 + (c.toNat - 48) > maxUint64 then .error .errRange
    else parseUintDigits (n * 10 + (c.toNat - 48)) cs

/-- `ParseUint(s, 10, 64)`. On a range error Go also returns the largest
`uint64`; `ParseInt` below relies on it. -/
def parseUint (s : Bytes) : Except NumError Nat :=
  if s = [] then .error .errSyntax else parseUintDigits 0 s

/-- The end of `ParseInt`: the range check of the magnitude `un` that
`ParseUint` read, and the sign. -/
def signedOfUint (neg : Bool) (un : Nat) : Int × Option NumError :=
  if !neg ∧ un ≥ 9223372036854775808 then (9223372036854775807, some .errRange)
  else if neg ∧ un > 9223372036854775808 then (-9223372036854775808, some .errRange)
  else if neg then (-(un : Int), none) else (un, none)

/-- `ParseInt(s, 10, 64)`: the value and the error. A syntax error returns 0;
on a range error `ParseUint` returns the largest `uint64`, which the range
check turns into the bound of the sign. -/
def parseInt (s : Bytes) : Int × Option NumError :=
  if s = [] then (0, some .errSyntax) else
  let (neg, digits) : Bool × Bytes := match s with
    | 43 :: rest => (false, rest)
    | 45 :: rest => (true, rest)
    | _ => (false, s)
  match parseUint digits with
  | .error .errSyntax => (0, some .errSyntax)
  | .error .errRange => signedOfUint neg maxUint64
  | .ok un => signedOfUint neg un

/-- `strconv.Atoi`, by the value it returns. Go documents it as
`ParseInt(s, 10, 0)`, which on a 64-bit platform is `ParseInt(s, 10, 64)`; its
fast path for strings shorter than 19 bytes returns the same values. -/
def atoi (s : Bytes) : Int := (parseInt s).1

theorem signedOfUint_range (neg : Bool) (un : Nat) :
    -9223372036854775808 ≤ (signedOfUint neg un).1 ∧
      (signedOfUint neg un).1 ≤ 9223372036854775807 := by
  cases neg <;> simp only [signedOfUint, Bool.not_false, Bool.not_true, true_and, false_and,
    Bool.false_eq_true, if_false, if_true] <;> split_ifs <;> omega

/-- `ParseInt` returns an `int64`, whatever its input. -/
theorem parseInt_range (s : Bytes) :
    -9223372036854775808 ≤ (parseInt s).1 ∧ (parseInt s).1 ≤ 9223372036854775807 := by
  unfold parseInt
  split_ifs
  · decide
  · split
    split
    · decide
    · exact signedOfUint_range _ _
    · exact signedOfUint_range _ _

example : atoi (bytes "-42") = -42 := by decide
example : parseInt (bytes "99999999999999999999x") = (9223372036854775807, some .errRange) := by
  decide

/-! ## What `ParseInt` reads from a decimal -/

/-- The value of a string of digits. -/
def digitsVal (ds : Bytes) : Nat := ds.foldl (fun n c => n * 10 + (c.toNat - 48)) 0

/-- The digit step of `ParseUint`, folded from `n`. -/
theorem le_digitsFold (n : Nat) (ds : Bytes) :
    n ≤ ds.foldl (fun n c => n * 10 + (c.toNat - 48)) n := by
  induction ds generalizing n with
  | nil => exact le_rfl
  | cons c ds ih =>
    have := ih (n * 10 + (c.toNat - 48))
    rw [List.foldl_cons]
    omega

/-- On digits, the loop of `ParseUint` from `n` returns the value it folds, or
`ErrRange` exactly when that value passes `maxUint64`: the value never
decreases, so a range error on the way is one at the end. -/
theorem parseUintDigits_of_digits {n : Nat} {ds : Bytes} (hn : n ≤ maxUint64)
    (hd : ∀ c ∈ ds, isDigit c) :
    parseUintDigits n ds =
      if ds.foldl (fun n c => n * 10 + (c.toNat - 48)) n ≤ maxUint64 then
        .ok (ds.foldl (fun n c => n * 10 + (c.toNat - 48)) n)
      else .error .errRange := by
  induction ds generalizing n with
  | nil => simp [parseUintDigits, hn]
  | cons c ds ih =>
    have hc : isDigit c = true := hd c (.head _)
    have hge := le_digitsFold (n * 10 + (c.toNat - 48)) ds
    simp only [parseUintDigits, hc, Bool.not_true, Bool.false_eq_true, if_false, List.foldl_cons]
    by_cases h₁ : n ≥ maxUint64 / 10 + 1
    · rw [if_pos h₁, if_neg (by simp only [maxUint64] at h₁ ⊢; omega)]
    by_cases h₂ : n * 10 + (c.toNat - 48) > maxUint64
    · rw [if_neg h₁, if_pos h₂, if_neg (by omega)]
    · rw [if_neg h₁, if_neg h₂, ih (by omega) fun c hc => hd c (.tail _ hc)]

/-- `ParseUint` of a decimal: its value, or `ErrRange` past `maxUint64`. -/
theorem parseUint_of_digits {ds : Bytes} (hne : ds ≠ []) (hd : ∀ c ∈ ds, isDigit c) :
    parseUint ds = if digitsVal ds ≤ maxUint64 then .ok (digitsVal ds) else .error .errRange := by
  rw [parseUint, if_neg hne, parseUintDigits_of_digits (by decide) hd]
  rfl

/-- The range check of `ParseInt` on a magnitude read without a sign. -/
theorem signedOfUint_false (un : Nat) :
    signedOfUint false un =
      if un ≤ 9223372036854775807 then ((un : Int), none)
      else (9223372036854775807, some .errRange) := by
  simp only [signedOfUint, Bool.not_false, true_and, false_and, Bool.false_eq_true, if_false]
  split_ifs <;> first | rfl | omega

/-- The range check of `ParseInt` on a magnitude read after a minus sign. -/
theorem signedOfUint_true (un : Nat) :
    signedOfUint true un =
      if un ≤ 9223372036854775808 then (-(un : Int), none)
      else (-9223372036854775808, some .errRange) := by
  simp only [signedOfUint, Bool.not_true, false_and, true_and, Bool.false_eq_true, if_false,
    if_true]
  split_ifs <;> first | rfl | omega

/-- Past `maxUint64` a magnitude is out of range for either sign, so the
largest `uint64`, which `ParseUint` returns with `ErrRange`, checks as the
magnitude itself would. -/
theorem signedOfUint_of_maxUint64_lt (neg : Bool) {un : Nat} (h : maxUint64 < un) :
    signedOfUint neg maxUint64 = signedOfUint neg un := by
  unfold maxUint64 at h ⊢
  cases neg <;> simp only [signedOfUint_false, signedOfUint_true] <;> split_ifs <;>
    first | rfl | omega

/-- `ParseInt` (and so `Atoi`) of an optional sign and a decimal: the signed
value with no error when it is an `int64`, and otherwise the bound of its sign
with `ErrRange`. -/
theorem parseInt_of_digits {sign ds : Bytes} (hsign : sign = [] ∨ sign = [43] ∨ sign = [45])
    (hne : ds ≠ []) (hd : ∀ c ∈ ds, isDigit c) :
    parseInt (sign ++ ds) =
      if sign = [45] then
        if digitsVal ds ≤ 9223372036854775808 then (-(digitsVal ds : Int), none)
        else (-9223372036854775808, some .errRange)
      else
        if digitsVal ds ≤ 9223372036854775807 then ((digitsVal ds : Int), none)
        else (9223372036854775807, some .errRange) := by
  obtain ⟨c, rest, rfl⟩ := List.exists_cons_of_ne_nil hne
  have hc : 48 ≤ c.toNat ∧ c.toNat ≤ 57 := by
    have := hd c (.head _)
    simp only [isDigit, Bool.and_eq_true, decide_eq_true_eq] at this
    exact this
  have hun := parseUint_of_digits hne hd
  rcases hsign with rfl | rfl | rfl
  · -- no sign: the first digit is neither sign, so the sign match falls through
    have h43 : c ≠ 43 := fun e => by subst e; exact absurd hc (by decide)
    have h45 : c ≠ 45 := fun e => by subst e; exact absurd hc (by decide)
    simp only [parseInt, List.nil_append, reduceCtorEq, if_false]
    split <;> rename_i heq <;> split at heq
    all_goals first
      | exact absurd (List.cons.inj ‹c :: rest = 43 :: _›).1 h43
      | exact absurd (List.cons.inj ‹c :: rest = 45 :: _›).1 h45
      | dsimp only at heq ⊢; rw [hun] at heq; split_ifs at heq with h
    · exact absurd heq (by decide)
    · rw [signedOfUint_of_maxUint64_lt false (Nat.lt_of_not_le h)]
      exact signedOfUint_false _
    · obtain rfl := Except.ok.inj heq
      exact signedOfUint_false _
  all_goals
    simp only [parseInt, List.singleton_append, reduceCtorEq, if_false, hun, List.cons.injEq,
      and_true, if_true, if_neg (by decide : (43 : UInt8) ≠ 45)]
    by_cases h : digitsVal (c :: rest) ≤ maxUint64
    · simp only [h, if_true, signedOfUint_false, signedOfUint_true]
    · simp only [h, if_false, signedOfUint_of_maxUint64_lt _ (Nat.lt_of_not_le h),
        signedOfUint_false, signedOfUint_true]

/-! ## The range of `ParseFloat` -/

/-- A JSON number literal as `m · 10^e`: its digits without the point, and its
exponent less the number of digits after the point. -/
def decimalOf (lit : Bytes) : Nat × Int :=
  let body := match lit with
    | 45 :: r => r
    | r => r
  let (int, r) := body.span isDigit
  let (frac, r) := match r with
    | 46 :: r => r.span isDigit
    | r => ([], r)
  let exp : Int := match r with
    | _ :: 45 :: ds => -(digitsVal ds : Int)
    | _ :: 43 :: ds => digitsVal ds
    | _ :: ds => digitsVal ds
    | [] => 0
  (digitsVal (int ++ frac), exp - frac.length)

/-- `2^1024 - 2^970`, halfway between the largest double and `2^1024`: from
there on `ParseFloat` rounds to infinity (ties go to the even `2^1024`). -/
def float64Overflow : Nat := Nat.pow 2 1024 - Nat.pow 2 970

/-- Whether `ParseFloat(lit, 64)` reports a range error for a JSON number
literal: its value rounds to an infinity. With `d` digits in `m`, the value
lies in `[10^(d+e-1), 10^(d+e))`, and `float64Overflow` in `[10^308, 10^309)`,
so only `d + e = 309` needs the exact comparison. -/
def parseFloatOverflows (lit : Bytes) : Bool :=
  let (m, e) := decimalOf lit
  if m = 0 then false else
  let d : Int := (Nat.repr m).length
  if d + e ≥ 310 then true
  else if d + e ≤ 308 then false
  else if 0 ≤ e then m * Nat.pow 10 e.toNat ≥ float64Overflow
  else m ≥ float64Overflow * Nat.pow 10 (-e).toNat

set_option exponentiation.threshold 1100 in
example : parseFloatOverflows (bytes "1.7976931348623157e308") = false := by decide
set_option exponentiation.threshold 1100 in
example : parseFloatOverflows (bytes "-1.7976931348623159e308") = true := by decide

end strconv

end Taskflow
