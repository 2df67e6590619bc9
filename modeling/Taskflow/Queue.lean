import Taskflow.Compact

/-!
# The Redis broker (`internal/queue/redis.go`)

The broker is the Redis keyspace the queue methods touch: the list
`taskflow:jobs:pending`, the list `taskflow:jobs:processing`, one key
`taskflow:job:<id>` per job and the hash `taskflow:stats`. Lists have their
head on the left: `LPUSH` conses, `BRPOPLPUSH` takes the last element of
`pending` and conses it onto `processing`, `LREM key 1 id` erases the first
occurrence.

Each `RedisQueue` method is cut at its Redis commands, because that is where
concurrent goroutines interleave. A command either takes effect or fails
without effect; the caller decides which (`ok`). A pipeline is taken to run
as one command.

A job key holds the bytes `json.Marshal(job)` wrote; the model keeps the job
`GetJob`'s `json.Unmarshal` decodes from them (`Job.marshal`). The `payload`
and `result` come back compacted (`Json.compact`); the other fields come back
as they were, the strings of a job being valid UTF-8. A key whose bytes do not
decode — the empty value `CompleteJob` and `FailJob` write when they drop a
`json.Marshal` error — is kept as no job: `GetJob` fails on it with another
message than on a missing key, and every caller treats the two alike.

Restrictions: keys do not expire (the code sets a 24-hour TTL on job keys, and
no modelled run is taken to outlast it), and `time.Time`'s marshalling is
taken to succeed (its years are taken to lie in 0 to 9999).
-/

namespace Taskflow

/-- `json.Marshal` of a `json.RawMessage` field, as `json.Unmarshal` reads it
back: a nil message is written `null`, and any other is compacted, failing
unless it is one JSON value. -/
def marshalRaw (b : RawMessage) : Option RawMessage :=
  if b = [] then some (bytes "null") else Json.compact b

/-- The same for the `omitempty` field `result`: a nil message is left out and
stays nil. -/
def marshalResult (b : RawMessage) : Option RawMessage :=
  if b = [] then some [] else Json.compact b

/-- `json.Unmarshal` of `json.Marshal(job)`: the job `GetJob` reads back from
the bytes a `SET` of `job` wrote, or `none` where `Marshal` fails. -/
def Job.marshal (job : Job) : Option Job :=
  (marshalRaw job.payload).bind fun payload =>
    (marshalResult job.result).map fun result => { job with payload, result }

theorem compact_ne_nil {b c : Bytes} (h : Json.compact b = some c) : c ≠ [] := by
  obtain ⟨v, -, hw, -, rfl⟩ := Json.compact_some h
  obtain ⟨x, t, hxt, -⟩ := @Json.render_head [] [] _ hw.htmlEscape
  rw [hxt]
  exact List.cons_ne_nil x t

/-- What `Job.marshal` writes, field by field. -/
theorem Job.marshal_some {job rec : Job} (h : job.marshal = some rec) :
    marshalRaw job.payload = some rec.payload ∧ marshalResult job.result = some rec.result ∧
      rec = { job with payload := rec.payload, result := rec.result } := by
  unfold Job.marshal at h
  cases hp : marshalRaw job.payload <;> cases hr : marshalResult job.result <;>
    simp only [hp, hr, Option.none_bind, Option.some_bind, Option.map_none', Option.map_some',
      reduceCtorEq, Option.some.injEq] at h
  subst h
  exact ⟨rfl, rfl, rfl⟩

/-- The record `GetJob` reads back is the job with its payload and result
rewritten. -/
theorem Job.marshal_eq_some {job rec : Job} (h : job.marshal = some rec) :
    ∃ p r, marshalRaw job.payload = some p ∧ marshalResult job.result = some r ∧
      rec = { job with payload := p, result := r } := by
  obtain ⟨hp, hr, he⟩ := Job.marshal_some h
  exact ⟨_, _, hp, hr, he⟩

/-- A raw message `json.Marshal` wrote is written again unchanged. -/
theorem marshalRaw_idem {b c : Bytes} (h : marshalRaw b = some c) : marshalRaw c = some c := by
  unfold marshalRaw at *
  split at h
  · cases h; decide
  · rw [if_neg (compact_ne_nil h), Json.compact_idem h]

theorem marshalResult_idem {b c : Bytes} (h : marshalResult b = some c) : marshalResult c = some c := by
  unfold marshalResult at *
  split at h
  · cases h; rfl
  · rw [if_neg (compact_ne_nil h), Json.compact_idem h]

/-- A job read back is written again unchanged. -/
theorem Job.marshal_idem {job rec : Job} (h : job.marshal = some rec) : rec.marshal = some rec := by
  obtain ⟨hp, hr, hrec⟩ := Job.marshal_some h
  unfold Job.marshal
  rw [marshalRaw_idem hp, marshalResult_idem hr]
  rfl

/-- Marshalling reads only the payload and the result. -/
theorem Job.marshal_congr {j k : Job} (h : j.marshal = some j) (hp : k.payload = j.payload)
    (hr : k.result = j.result) : k.marshal = some k := by
  obtain ⟨h₁, h₂, -⟩ := Job.marshal_some h
  unfold Job.marshal
  rw [hp, hr, h₁, h₂, ← hp, ← hr]
  rfl

@[simp] theorem Job.marshal_id {job rec : Job} (h : job.marshal = some rec) : rec.id = job.id := by
  rw [(Job.marshal_some h).2.2]

/-- Marshalling keeps a result empty or non-empty. -/
theorem Job.marshal_result_eq_nil {job rec : Job} (h : job.marshal = some rec) :
    rec.result = [] ↔ job.result = [] := by
  have hr := (Job.marshal_some h).2.1
  unfold marshalResult at hr
  split at hr
  · rename_i h0; simp only [Option.some.injEq] at hr; simp [← hr, h0]
  · rename_i h0; simp [h0, compact_ne_nil hr]

/-- A JSON value marshals as a non-empty result. -/
theorem marshalResult_of_parse {b : Bytes} (h : (Json.parse b).isSome) : ∃ c, marshalResult b = some c ∧ c ≠ [] := by
  obtain ⟨v, hv⟩ := Option.isSome_iff_exists.1 h
  have hb : b ≠ [] := by rintro rfl; cases hv
  have hc : Json.compact b = some ((v.mapStr Json.htmlEscape).render [] []) := by rw [Json.compact, hv]; rfl
  exact ⟨_, by rw [marshalResult, if_neg hb, hc], compact_ne_nil hc⟩

/-- The broker's keys. Every record is a job `GetJob` decoded from bytes
`json.Marshal` wrote, so `Marshal` writes it again unchanged. -/
structure Redis where
  pending : List JobId
  processing : List JobId
  jobs : JobId → Option Job
  stats : String → Int
  normal : ∀ x j, jobs x = some j → j.marshal = some j

/-- A fresh Redis database. -/
def Redis.empty : Redis := ⟨[], [], fun _ => none, fun _ => 0, fun _ _ h => nomatch h⟩

namespace Redis

theorem storeJob_normal (r : Redis) (job : Job) :
    ∀ x j, (if x = job.id then job.marshal else r.jobs x) = some j → j.marshal = some j := by
  intro x j h
  split at h
  · exact Job.marshal_idem h
  · exact r.normal x j h

/-- `SET taskflow:job:<job.ID>` of `json.Marshal(job)`; where `Marshal` failed
the code writes the empty value, which decodes to no job. -/
def storeJob (r : Redis) (job : Job) : Redis :=
  { r with jobs := fun x => if x = job.id then job.marshal else r.jobs x, normal := storeJob_normal r job }

/-- `LPUSH taskflow:jobs:pending id`. -/
def lpushPending (r : Redis) (id : JobId) : Redis :=
  { r with pending := id :: r.pending }

/-- `LREM taskflow:jobs:processing 1 id`. -/
def lremProcessing (r : Redis) (id : JobId) : Redis :=
  { r with processing := r.processing.erase id }

/-- `HINCRBY taskflow:stats field n`; an absent field counts as zero. -/
def hincrBy (r : Redis) (field : String) (n : Int) : Redis :=
  { r with stats := fun f => if f = field then r.stats f + n else r.stats f }

/-- `BRPOPLPUSH pending processing`: `none` is the timeout reply (`redis.Nil`)
of an empty `pending`. -/
def brpoplpush (r : Redis) : Option (JobId × Redis) :=
  match r.pending.getLast? with
  | none => none
  | some id => some (id, { r with pending := r.pending.dropLast, processing := id :: r.processing })

theorem storeJob_jobs (r : Redis) (job : Job) (x : JobId) :
    (r.storeJob job).jobs x = if x = job.id then job.marshal else r.jobs x := rfl

@[simp] theorem storeJob_jobs_self (r : Redis) (job : Job) : (r.storeJob job).jobs job.id = job.marshal := by
  simp [storeJob]

theorem storeJob_jobs_ne (r : Redis) (job : Job) {x : JobId} (h : x ≠ job.id) :
    (r.storeJob job).jobs x = r.jobs x := by
  simp [storeJob, h]

@[simp] theorem storeJob_pending (r : Redis) (job : Job) : (r.storeJob job).pending = r.pending := rfl
@[simp] theorem storeJob_processing (r : Redis) (job : Job) :
    (r.storeJob job).processing = r.processing := rfl
@[simp] theorem lpushPending_pending (r : Redis) (id : JobId) :
    (r.lpushPending id).pending = id :: r.pending := rfl
@[simp] theorem lpushPending_processing (r : Redis) (id : JobId) :
    (r.lpushPending id).processing = r.processing := rfl
@[simp] theorem lpushPending_jobs (r : Redis) (id : JobId) : (r.lpushPending id).jobs = r.jobs := rfl
@[simp] theorem lremProcessing_pending (r : Redis) (id : JobId) :
    (r.lremProcessing id).pending = r.pending := rfl
@[simp] theorem lremProcessing_processing (r : Redis) (id : JobId) :
    (r.lremProcessing id).processing = r.processing.erase id := rfl
@[simp] theorem lremProcessing_jobs (r : Redis) (id : JobId) :
    (r.lremProcessing id).jobs = r.jobs := rfl
@[simp] theorem hincrBy_pending (r : Redis) (f : String) (n : Int) :
    (r.hincrBy f n).pending = r.pending := rfl
@[simp] theorem hincrBy_processing (r : Redis) (f : String) (n : Int) :
    (r.hincrBy f n).processing = r.processing := rfl
@[simp] theorem hincrBy_jobs (r : Redis) (f : String) (n : Int) : (r.hincrBy f n).jobs = r.jobs := rfl
@[simp] theorem storeJob_stats (r : Redis) (job : Job) : (r.storeJob job).stats = r.stats := rfl
@[simp] theorem lpushPending_stats (r : Redis) (id : JobId) : (r.lpushPending id).stats = r.stats := rfl
@[simp] theorem lremProcessing_stats (r : Redis) (id : JobId) : (r.lremProcessing id).stats = r.stats := rfl
@[simp] theorem hincrBy_stats (r : Redis) (f : String) (n : Int) (g : String) :
    (r.hincrBy f n).stats g = if g = f then r.stats g + n else r.stats g := rfl

theorem brpoplpush_spec {r r' : Redis} {id : JobId} (h : r.brpoplpush = some (id, r')) :
    r.pending = r'.pending ++ [id] ∧ r'.processing = id :: r.processing ∧ r'.jobs = r.jobs := by
  unfold brpoplpush at h
  cases hx : r.pending.getLast? with
  | none => simp [hx] at h
  | some x =>
    simp only [hx, Option.some.injEq, Prod.mk.injEq] at h
    obtain ⟨rfl, rfl⟩ := h
    exact ⟨(List.dropLast_append_getLast? _ hx).symm, rfl, rfl⟩

theorem brpoplpush_stats {r r' : Redis} {id : JobId} (h : r.brpoplpush = some (id, r')) : r'.stats = r.stats := by
  unfold brpoplpush at h
  split at h
  · cases h
  · cases h; rfl

end Redis

namespace RedisQueue

/-- `GetJob`; `ok` is false when the `GET` fails. -/
def getJob (r : Redis) (jobId : JobId) (ok : Bool) : Except String Job :=
  if ok then
    match r.jobs jobId with
    | some job => .ok job
    | none => .error ("job not found: " ++ jobId)
  else .error "failed to get job"

/-- `EnqueueJob`: marshal the job, then the pipeline that stores the record,
pushes its id and counts it. -/
def enqueueJob (r : Redis) (job : Job) : Except String Redis :=
  match job.marshal with
  | none => .error "failed to marshal job"
  | some _ => .ok ((((r.storeJob job).lpushPending job.id).hincrBy "total" 1).hincrBy "pending" 1)

/-- `UpdateJob`: marshal the job, then `SET` it. -/
def updateJob (r : Redis) (job : Job) : Except String Redis :=
  match job.marshal with
  | none => .error "failed to marshal job"
  | some _ => .ok (r.storeJob job)

theorem enqueueJob_of_marshal {r : Redis} {job rec : Job} (h : job.marshal = some rec) :
    enqueueJob r job = .ok ((((r.storeJob job).lpushPending job.id).hincrBy "total" 1).hincrBy "pending" 1) := by
  simp [enqueueJob, h]

theorem updateJob_of_marshal {r : Redis} {job rec : Job} (h : job.marshal = some rec) :
    updateJob r job = .ok (r.storeJob job) := by
  simp [updateJob, h]

/-- How `DequeueJob` rewrites the record it leased (redis.go:101-105). -/
def leaseJob (job : Job) (workerId : String) (now : Time) : Job :=
  { job with status := .processing, workerId := workerId, startedAt := some now, updatedAt := now }

@[simp] theorem leaseJob_id (job : Job) (workerId : String) (now : Time) :
    (leaseJob job workerId now).id = job.id := rfl

@[simp] theorem leaseJob_status (job : Job) (workerId : String) (now : Time) :
    (leaseJob job workerId now).status = .processing := rfl

/-- `DequeueJob`'s closing stats pipeline. -/
def dequeueStats (r : Redis) : Redis :=
  (r.hincrBy "pending" (-1)).hincrBy "processing" 1

@[simp] theorem dequeueStats_pending (r : Redis) : (dequeueStats r).pending = r.pending := rfl
@[simp] theorem dequeueStats_jobs (r : Redis) : (dequeueStats r).jobs = r.jobs := rfl
@[simp] theorem dequeueStats_processing (r : Redis) : (dequeueStats r).processing = r.processing := rfl

/-- `CompleteJob` after its `GetJob`: the rewritten record and the pipeline
(redis.go:165-187); the `Marshal` error is dropped. -/
def completeJob (r : Redis) (jobId : JobId) (job : Job) (result : RawMessage) (now : Time) : Redis :=
  let job := { job with status := .completed, result := result, completedAt := some now, updatedAt := now }
  (((r.storeJob job).lremProcessing jobId).hincrBy "processing" (-1)).hincrBy "completed" 1

/-- Go's 64-bit two's-complement wrap of an `int` or `time.Duration` value. -/
def wrap64 (z : Int) : Int := Int.bmod z (Nat.pow 2 64)

/-- `wrap64` is the identity on the int64 range. -/
theorem wrap64_of_range {z : Int} (h₁ : -9223372036854775808 ≤ z) (h₂ : z < 9223372036854775808) :
    wrap64 z = z := by
  have hm : ((Nat.pow 2 64 : Nat) : Int) = 18446744073709551616 := rfl
  simp only [wrap64, Int.bmod, hm]
  split <;> omega

/-- Subtracting one commutes with the wrap, as it does in two's complement. -/
theorem wrap64_sub_one (z : Int) : wrap64 (wrap64 z - 1) = wrap64 (z - 1) :=
  Int.bmod_sub_bmod_congr

/-- `calculateRetryDelay`, in nanoseconds, with Go's fixed-width arithmetic:
`uint(attempts-1)` wraps to 64 bits, a shift of `time.Duration(1)` by 64 or
more gives 0, and the product wraps before the comparison with the cap. -/
def calculateRetryDelay (attempts : Int) : Time :=
  let base : Int := 1000000000 * 5
  let shift : Nat := ((attempts - 1) % Int.pow 2 64).toNat
  let delay := wrap64 (base * (if shift < 64 then wrap64 (Int.pow 2 shift) else 0))
  if delay > 5 * 60 * 1000000000 then 5 * 60 * 1000000000 else delay

/-- `requeueJobWithDelay`, with the clock read at `now`: stamp `scheduled_at`,
marshal, then store the record and push its id back onto `pending` at once.
It returns `Marshal`'s own error, of which the model keeps the start. -/
def requeueJobWithDelay (r : Redis) (job : Job) (delay : Time) (now : Time) : Except String Redis :=
  let job := { job with scheduledAt := now + delay }
  match job.marshal with
  | none => .error "json: error calling MarshalJSON for type json.RawMessage"
  | some _ => .ok ((r.storeJob job).lpushPending job.id)

/-- `FailJob` after its `GetJob` (redis.go:198-233), reading the clock at
`now` for `updated_at` and again at `later`: count the attempt, then either
requeue (the early `return` skips the pipeline below) or write the final
failure, dropping the `Marshal` error. -/
def failJob (r : Redis) (jobId : JobId) (job : Job) (errorMsg : String) (now later : Time) :
    Except String Redis :=
  let job := { job with attempts := job.attempts + 1, error := errorMsg, updatedAt := now }
  if job.attempts < job.maxAttempts then
    requeueJobWithDelay r { job with status := .retrying } (calculateRetryDelay job.attempts) later
  else
    let job := { job with status := .failed, completedAt := some later }
    let r := ((r.storeJob job).lremProcessing jobId).hincrBy "processing" (-1)
    .ok (r.hincrBy (if job.status = .failed then "failed" else "pending") 1)

/-- `GetStats`: read the hash; a missing field scans as zero. -/
def getStats (r : Redis) : JobStats :=
  ⟨r.stats "total", r.stats "pending", r.stats "processing", r.stats "completed", r.stats "failed"⟩

/-! ## Spec lemmas -/

/-- The record `FailJob` writes, whichever branch it takes. -/
def failRecord (job : Job) (errorMsg : String) (now later : Time) : Job :=
  if job.attempts + 1 < job.maxAttempts then
    { job with attempts := job.attempts + 1, error := errorMsg, updatedAt := now, status := .retrying,
               scheduledAt := later + calculateRetryDelay (job.attempts + 1) }
  else
    { job with attempts := job.attempts + 1, error := errorMsg, updatedAt := now, status := .failed,
               completedAt := some later }

/-- The record `CompleteJob` writes. -/
def completeRecord (job : Job) (result : RawMessage) (now : Time) : Job :=
  { job with status := .completed, result := result, completedAt := some now, updatedAt := now }

theorem completeJob_eq (r : Redis) (jobId : JobId) (job : Job) (result : RawMessage) (now : Time) :
    completeJob r jobId job result now =
      (((r.storeJob (completeRecord job result now)).lremProcessing jobId).hincrBy "processing" (-1)).hincrBy
        "completed" 1 := rfl

@[simp] theorem completeRecord_id (job : Job) (result : RawMessage) (now : Time) :
    (completeRecord job result now).id = job.id := rfl

@[simp] theorem failRecord_payload (job : Job) (msg : String) (now later : Time) :
    (failRecord job msg now later).payload = job.payload := by
  unfold failRecord; split <;> rfl

@[simp] theorem failRecord_result (job : Job) (msg : String) (now later : Time) :
    (failRecord job msg now later).result = job.result := by
  unfold failRecord; split <;> rfl

/-- `FailJob` on a retry: the record goes back to `pending`, and `processing`
and the counters are left as they were; it fails only where `Marshal` does. -/
theorem failJob_retry {r : Redis} {jobId : JobId} {job : Job} {msg : String} {now later : Time}
    (h : job.attempts + 1 < job.maxAttempts) :
    failJob r jobId job msg now later =
      match (failRecord job msg now later).marshal with
      | none => .error "json: error calling MarshalJSON for type json.RawMessage"
      | some _ => .ok ((r.storeJob (failRecord job msg now later)).lpushPending job.id) := by
  simp only [failJob, requeueJobWithDelay, failRecord, h, if_true]

/-- `FailJob` on the last attempt: the record is failed, one occurrence of the
id leaves `processing`, and the `failed` counter moves. -/
theorem failJob_final {r : Redis} {jobId : JobId} {job : Job} {msg : String} {now later : Time}
    (h : ¬ job.attempts + 1 < job.maxAttempts) :
    failJob r jobId job msg now later =
      .ok ((((r.storeJob (failRecord job msg now later)).lremProcessing jobId).hincrBy "processing" (-1)).hincrBy
        "failed" 1) := by
  simp only [failJob, failRecord, h, if_false]
  rfl

/-- A record read back from the broker and rewritten by `FailJob` marshals to
itself, so `FailJob` succeeds and stores exactly `failRecord`. -/
theorem failRecord_marshal {job : Job} (h : job.marshal = some job) (msg : String) (now later : Time) :
    (failRecord job msg now later).marshal = some (failRecord job msg now later) :=
  Job.marshal_congr h (failRecord_payload ..) (failRecord_result ..)

/-- A record read back from the broker and completed with a result `Marshal`
writes as `c` is stored with the result `c`. -/
theorem completeRecord_marshal {job : Job} (h : job.marshal = some job) {result c : RawMessage}
    (hc : marshalResult result = some c) (now : Time) :
    (completeRecord job result now).marshal = some (completeRecord job c now) := by
  have hp := (Job.marshal_some h).1
  simp only [Job.marshal, completeRecord, hp, hc, Option.some_bind, Option.map_some']

/-- `FailJob` of a record read back from the broker stores `failRecord`. -/
theorem failJob_of_marshal {r : Redis} {jobId : JobId} {job : Job} (h : job.marshal = some job) (msg : String)
    (now later : Time) :
    failJob r jobId job msg now later =
      .ok (if job.attempts + 1 < job.maxAttempts then (r.storeJob (failRecord job msg now later)).lpushPending job.id
        else (((r.storeJob (failRecord job msg now later)).lremProcessing jobId).hincrBy "processing" (-1)).hincrBy
          "failed" 1) := by
  by_cases hr : job.attempts + 1 < job.maxAttempts
  · rw [failJob_retry hr, failRecord_marshal h, if_pos hr]
  · rw [failJob_final hr, if_neg hr]

theorem failJob_jobs {r r' : Redis} {jobId : JobId} {job : Job} {msg : String} {now later : Time}
    (h : failJob r jobId job msg now later = .ok r') : r'.jobs = (r.storeJob (failRecord job msg now later)).jobs := by
  by_cases hr : job.attempts + 1 < job.maxAttempts
  · rw [failJob_retry hr] at h
    split at h <;> cases h
    rfl
  · rw [failJob_final hr] at h
    cases h; rfl

@[simp] theorem completeJob_jobs (r : Redis) (jobId : JobId) (job : Job) (result : RawMessage) (now : Time) :
    (completeJob r jobId job result now).jobs = (r.storeJob (completeRecord job result now)).jobs := rfl

theorem enqueueJob_ok {r r' : Redis} {job : Job} (h : enqueueJob r job = .ok r') :
    (∃ rec, job.marshal = some rec) ∧
      r' = (((r.storeJob job).lpushPending job.id).hincrBy "total" 1).hincrBy "pending" 1 := by
  unfold enqueueJob at h
  split at h
  · cases h
  · cases h; exact ⟨⟨_, ‹_›⟩, rfl⟩

theorem updateJob_ok {r r' : Redis} {job : Job} (h : updateJob r job = .ok r') :
    (∃ rec, job.marshal = some rec) ∧ r' = r.storeJob job := by
  unfold updateJob at h
  split at h
  · cases h
  · cases h; exact ⟨⟨_, ‹_›⟩, rfl⟩

@[simp] theorem failRecord_id (job : Job) (msg : String) (now later : Time) :
    (failRecord job msg now later).id = job.id := by
  unfold failRecord; split <;> rfl

@[simp] theorem failRecord_attempts (job : Job) (msg : String) (now later : Time) :
    (failRecord job msg now later).attempts = job.attempts + 1 := by
  unfold failRecord; split <;> rfl

@[simp] theorem failRecord_maxAttempts (job : Job) (msg : String) (now later : Time) :
    (failRecord job msg now later).maxAttempts = job.maxAttempts := by
  unfold failRecord; split <;> rfl

@[simp] theorem failRecord_error (job : Job) (msg : String) (now later : Time) :
    (failRecord job msg now later).error = msg := by
  unfold failRecord; split <;> rfl

theorem failRecord_completedAt (job : Job) (msg : String) (now later : Time) :
    (failRecord job msg now later).completedAt =
      if job.attempts + 1 < job.maxAttempts then job.completedAt else some later := by
  unfold failRecord; split <;> rfl

theorem failRecord_status (job : Job) (msg : String) (now later : Time) :
    (failRecord job msg now later).status =
      if job.attempts + 1 < job.maxAttempts then .retrying else .failed := by
  unfold failRecord; split <;> rfl

end RedisQueue

end Taskflow
