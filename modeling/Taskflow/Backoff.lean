import Taskflow.Lifecycle

/-!
# Retry backoff

`calculateRetryDelay` doubles a base of 5 seconds per attempt and caps the
result at 5 minutes, in Go's 64-bit `time.Duration` arithmetic. `FailJob`
calls it with the incremented attempt count `k` whenever `k < max_attempts`,
and a client may submit any positive `max_attempts`.

* `calculateRetryDelay_of_le`: for `1 ≤ k ≤ 31` nothing overflows and the
  delay is `5 s · 2^(k-1)`, or 5 minutes where that is more, and so lies in
  `(0, 5 min]`;
  `failRecord_scheduledAt` carries this to the record a retry writes;
* `retry_delay_wraps`: at `k = 32` the product `5 s · 2^31` leaves the int64
  range and wraps to a negative duration, which passes the cap. Job `jobA`,
  submitted with `max_attempts` 33 and failed 32 times, is scheduled before
  the failure that retried it.
-/

namespace Taskflow

namespace RedisQueue

/-- The powers of two the delay is built from, up to the 31st attempt. -/
theorem int_pow_two_bounds {n : Nat} (h : n ≤ 30) : 1 ≤ Int.pow 2 n ∧ Int.pow 2 n ≤ 1073741824 := by
  have hcast : Int.pow 2 n = ((Nat.pow 2 n : Nat) : Int) := (Int.natCast_pow 2 n).symm
  have h₁ : 1 ≤ Nat.pow 2 n := Nat.one_le_two_pow
  have h₂ : Nat.pow 2 n ≤ Nat.pow 2 30 := Nat.pow_le_pow_right (by decide) h
  have h₃ : Nat.pow 2 30 = 1073741824 := rfl
  omega

/-- Up to the 31st attempt no step of `calculateRetryDelay` overflows, and the
delay is the doubled base, capped at 5 minutes. -/
theorem calculateRetryDelay_of_le {k : Int} (h₁ : 1 ≤ k) (h₂ : k ≤ 31) :
    calculateRetryDelay k =
      if 5000000000 * Int.pow 2 (k - 1).toNat ≤ 300000000000 then 5000000000 * Int.pow 2 (k - 1).toNat
      else 300000000000 := by
  have hm : Int.pow 2 64 = 18446744073709551616 := rfl
  have hshift : ((k - 1) % Int.pow 2 64).toNat = (k - 1).toNat := by
    rw [Int.emod_eq_of_lt (by omega) (by omega)]
  obtain ⟨lo, hi⟩ := int_pow_two_bounds (n := (k - 1).toNat) (by omega)
  have hpow : wrap64 (Int.pow 2 (k - 1).toNat) = Int.pow 2 (k - 1).toNat :=
    wrap64_of_range (by omega) (by omega)
  simp only [calculateRetryDelay, hshift, show (k - 1).toNat < 64 by omega, if_true, hpow]
  rw [wrap64_of_range (by omega) (by omega)]
  dsimp only [Time]
  split_ifs <;> omega

theorem calculateRetryDelay_pos {k : Int} (h₁ : 1 ≤ k) (h₂ : k ≤ 31) :
    0 < calculateRetryDelay k ∧ calculateRetryDelay k ≤ 300000000000 := by
  obtain ⟨lo, -⟩ := int_pow_two_bounds (n := (k - 1).toNat) (by omega)
  rw [calculateRetryDelay_of_le h₁ h₂]
  dsimp only [Time]
  split_ifs <;> omega

/-- A retry within the first 31 attempts is scheduled after the clock reading
`requeueJobWithDelay` takes, and at most 5 minutes later. -/
theorem failRecord_scheduledAt {job : Job} (msg : String) (now later : Time) (h₀ : 0 ≤ job.attempts)
    (h₁ : job.attempts + 1 < job.maxAttempts) (h₂ : job.attempts + 1 ≤ 31) :
    later < (failRecord job msg now later).scheduledAt ∧
      (failRecord job msg now later).scheduledAt ≤ later + 300000000000 := by
  have := calculateRetryDelay_pos (k := job.attempts + 1) (by omega) h₂
  rw [failRecord, if_pos h₁]
  dsimp only [Time] at *
  omega

example : calculateRetryDelay 10 = 300000000000 := by decide

end RedisQueue

/-- Worker 0 leases `jobA`, its handler fails, and the worker settles, `n`
times over. -/
def failCycles : Nat → List Act
  | 0 => []
  | n + 1 => leaseRun 0 1 ++ failRun 0 2 ++ Act.execs 0 (.succeed 2) 2 ++ failCycles n

set_option maxRecDepth 8000 in
/-- At the 32nd failure of `jobA`, submitted with `max_attempts` 33, the delay
wraps to a negative duration, and the retry is scheduled more than 243 years
before the failure at instant 2 that wrote it. -/
theorem retry_delay_wraps :
    RedisQueue.calculateRetryDelay 32 = -7709325833709551616 ∧
      ((run Sys.empty (setupRun 33 ++ failCycles 32)).redis.jobs jobA).map
          (fun j => (j.attempts, j.status, j.scheduledAt)) =
        some (32, .retrying, 2 - 7709325833709551616) := by
  decide

end Taskflow
