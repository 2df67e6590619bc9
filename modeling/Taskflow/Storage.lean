import Mathlib.Data.String.Basic
import Taskflow.Jsonb

/-!
# The Postgres store (`internal/storage/postgres.go`)

The two tables the core writes: `jobs`, keyed by job id, and `workers`, keyed
by worker id. Single-row statements are atomic; a statement that fails has no
effect, and the caller decides which (`ok`).

A row is kept as `GetJob` reads it back, which is not what `CreateJob` or
`UpdateJob` sent: every column converts the value `lib/pq` writes into it.

* `JSONB` (`payload`, `result`) keeps the value, and reads back as
  `jsonb_out` writes it (`Jsonb.text`); a nil `result` is taken to be sent as
  `NULL` and reads back empty;
* `TIMESTAMP WITH TIME ZONE` keeps microseconds: `lib/pq` writes nine
  fractional digits, and the server rounds them as
  `rint(strtod(fraction) * 1000000)` in double precision (`timestamptz`);
* `INTEGER` (`attempts`, `max_attempts`) refuses values outside 32 bits;
* `VARCHAR(n)` and `TEXT` refuse a NUL character, and `VARCHAR(n)` refuses a
  longer value unless what is past `n` characters is spaces, which it cuts.

A statement with a value its column refuses fails as a whole. The messages
the driver adds to the code's own error texts are not modelled.

`UpdateJob` is a full-row `UPDATE … WHERE id = $1` of the mutable columns: it
changes nothing when the row is missing. `RegisterWorker` is an upsert that
overwrites every column of `Worker`, so its effect is the same whether the row
existed or not. `ListJobs`, `GetWorkers` and the `metadata` column are not
used by the modelled operations and are left out.
-/

namespace Taskflow

/-- The durable tables, each row as a `SELECT` reads it back. -/
structure Postgres where
  jobs : JobId → Option Job
  workers : String → Option Worker

/-- An empty database after `migrate`. -/
def Postgres.empty : Postgres := ⟨fun _ => none, fun _ => none⟩

namespace PostgresStorage

/-! ## Columns -/

/-- A string the server's UTF-8 check refuses: one with a NUL character. -/
def hasNul (s : String) : Bool := s.data.contains (Char.ofNat 0)

/-- A `TEXT` parameter. -/
def text (s : String) : Option String := if hasNul s then none else some s

/-- A `VARCHAR(n)` parameter: a longer value is refused unless its excess is
spaces, which are cut. -/
def varchar (n : Nat) (s : String) : Option String :=
  if hasNul s then none
  else if s.length ≤ n then some s
  else if (s.drop n).all (· = ' ') then some (s.take n)
  else none

/-- An `INTEGER` parameter. -/
def int4 (z : Int) : Option Int := if -2147483648 ≤ z ∧ z ≤ 2147483647 then some z else none

/-- A `JSONB` parameter, as it reads back; a nil `json.RawMessage` is `NULL`,
which reads back empty. -/
def jsonb (b : RawMessage) : Option RawMessage := if b = [] then some [] else Jsonb.text b

/-- A `JSONB NOT NULL` parameter. -/
def jsonbNotNull (b : RawMessage) : Option RawMessage := if b = [] then none else Jsonb.text b

/-- `m / d` rounded to the nearest integer, ties to even (`rint`). -/
def roundHalfEven (m d : Nat) : Nat :=
  if 2 * (m % d) < d then m / d
  else if d < 2 * (m % d) then m / d + 1
  else if m / d % 2 = 0 then m / d else m / d + 1

/-- The least `k` from `k₀` with `2^52 ≤ a * 2^k / b`: the scale of the binary64
mantissa of `a / b`. -/
def mantissaScale (a b : Nat) : Nat → Nat → Nat
  | 0, k => k
  | fuel + 1, k => if a * Nat.pow 2 k < Nat.pow 2 52 * b then mantissaScale a b fuel (k + 1) else k

/-- The binary64 number nearest `a / b`, ties to even, for `0 < a / b < 2^52`
and `b < 2^128`: a mantissa `m` and a scale `k`, of value `m / 2^k`. This is
`strtod`'s rounding and that of a product. -/
def nearestDouble (a b : Nat) : Nat × Nat :=
  let k := mantissaScale a b 256 0
  (roundHalfEven (a * Nat.pow 2 k) b, k)

/-- The microseconds `ParseFractionalSecond` makes of `n` nanoseconds,
`0 < n < 10^9`, written as a fraction: `rint(strtod(".n") * 1000000)`, each
operation in binary64. -/
def fractionMicros (n : Nat) : Nat :=
  let x := nearestDouble n 1000000000
  let y := nearestDouble (x.1 * 1000000) (Nat.pow 2 x.2)
  roundHalfEven y.1 (Nat.pow 2 y.2)

/-- A `TIMESTAMP WITH TIME ZONE` parameter, as it reads back: `lib/pq` writes
the instant with its nanoseconds, trailing zeros cut, and the server keeps
microseconds. -/
def timestamptz (t : Time) : Time :=
  let n := (t % 1000000000).toNat
  if n = 0 then t else t - n + 1000 * fractionMicros n

example : timestamptz 1234567 = 1235000 := by decide
example : timestamptz 1000001499 = 1000001000 := by decide
example : timestamptz (-1) = 0 := by decide

/-! ## The statements -/

/-- The row `CreateJob`'s `INSERT` stores for a job, as `GetJob` reads it
back; `none` where a column refuses its value. -/
def insertRow (job : Job) : Option Job := do
  let id ← varchar 255 job.id
  let type ← varchar 50 job.type
  let payload ← jsonbNotNull job.payload
  let result ← jsonb job.result
  let error ← text job.error
  let attempts ← int4 job.attempts
  let maxAttempts ← int4 job.maxAttempts
  let workerId ← varchar 255 job.workerId
  pure { job with id, type, payload, result, error, attempts, maxAttempts, workerId,
                  createdAt := timestamptz job.createdAt, updatedAt := timestamptz job.updatedAt,
                  scheduledAt := timestamptz job.scheduledAt, startedAt := job.startedAt.map timestamptz,
                  completedAt := job.completedAt.map timestamptz }

/-- `CreateJob`: `INSERT`; the primary key refuses a second row with the same id. -/
def createJob (db : Postgres) (job : Job) : Except String Postgres :=
  match insertRow job with
  | none => .error "failed to create job"
  | some row =>
    match db.jobs row.id with
    | some _ => .error "failed to create job"
    | none => .ok { db with jobs := fun x => if x = row.id then some row else db.jobs x }

/-- `GetJob`; `ok` is false when the query fails. -/
def getJob (db : Postgres) (jobId : JobId) (ok : Bool) : Except String Job :=
  if ok ∧ hasNul jobId = false then
    match db.jobs jobId with
    | some job => .ok job
    | none => .error ("job not found: " ++ jobId)
  else .error "failed to get job"

/-- The columns `UpdateJob` sets, as they read back: `status`, `result`,
`error`, `attempts`, `updated_at`, `started_at`, `completed_at` and
`worker_id`; `none` where one refuses its value. -/
def updateColumns (job : Job) : Option Job := do
  let _ ← text job.id
  let result ← jsonb job.result
  let error ← text job.error
  let attempts ← int4 job.attempts
  let workerId ← varchar 255 job.workerId
  pure { job with result, error, attempts, workerId, updatedAt := timestamptz job.updatedAt,
                  startedAt := job.startedAt.map timestamptz, completedAt := job.completedAt.map timestamptz }

/-- The row `UpdateJob` leaves: the mutable columns come from `job`; `type`,
`payload`, `max_attempts`, `created_at` and `scheduled_at` stay. -/
def updatedRow (row job : Job) : Job :=
  { row with status := job.status, result := job.result, error := job.error, attempts := job.attempts,
             updatedAt := job.updatedAt, startedAt := job.startedAt, completedAt := job.completedAt,
             workerId := job.workerId }

/-- `UpdateJob`. -/
def updateJob (db : Postgres) (job : Job) : Except String Postgres :=
  match updateColumns job with
  | none => .error "failed to update job"
  | some cols =>
    match db.jobs job.id with
    | none => .ok db
    | some row => .ok { db with jobs := fun x => if x = job.id then some (updatedRow row cols) else db.jobs x }

/-- `json.Marshal` of a `[]string`: `null` for a nil slice. -/
def marshalStrings : List String → Bytes
  | [] => bytes "null"
  | t :: ts => 91 :: (Json.appendString (bytes t) ++ ts.foldr (fun t acc => 44 :: (Json.appendString (bytes t) ++ acc)) [93])

/-- The worker row `RegisterWorker`'s upsert stores, as it reads back; the
job types read back as the list, as `GetWorkers` decodes them. -/
def workerRow (worker : Worker) : Option Worker := do
  let id ← varchar 255 worker.id
  let status ← varchar 20 worker.status
  let _ ← Jsonb.text (marshalStrings worker.jobTypes)
  let currentJob ← varchar 255 worker.currentJob
  pure ⟨id, status, timestamptz worker.lastSeen, worker.jobTypes, currentJob⟩

/-- `RegisterWorker`: the upsert of every column of the worker row. -/
def registerWorker (db : Postgres) (worker : Worker) : Except String Postgres :=
  match workerRow worker with
  | none => .error "failed to register worker"
  | some row => .ok { db with workers := fun x => if x = row.id then some row else db.workers x }

/-! ## Spec lemmas -/

theorem varchar_of_le {n : Nat} {s t : String} (h : varchar n s = some t) (hs : s.length ≤ n) : t = s := by
  simp only [varchar, hs, if_true] at h
  split at h
  · cases h
  · exact (Option.some.inj h).symm

/-- The columns `CreateJob` checks, as the row holds them. -/
theorem insertRow_some {job row : Job} (h : insertRow job = some row) :
    varchar 255 job.id = some row.id ∧ job.payload ≠ [] ∧ Jsonb.text job.payload = some row.payload ∧
      jsonb job.result = some row.result := by
  simp only [insertRow, Option.bind_eq_bind, Option.bind_eq_some, Option.pure_def, Option.some.injEq] at h
  obtain ⟨id, hid, -, -, payload, hp, result, hr, -, -, -, -, -, -, -, -, rfl⟩ := h
  unfold jsonbNotNull at hp
  split at hp
  · cases hp
  · exact ⟨hid, ‹_›, hp, hr⟩

/-- A row inserted under an id of at most 255 characters is filed under it. -/
theorem insertRow_id {job row : Job} (h : insertRow job = some row) (hl : job.id.length ≤ 255) : row.id = job.id :=
  varchar_of_le (insertRow_some h).1 hl

theorem registerWorker_ok {db db' : Postgres} {worker : Worker} (h : registerWorker db worker = .ok db') :
    ∃ row, workerRow worker = some row ∧ db' = { db with workers := fun x => if x = row.id then some row else db.workers x } := by
  unfold registerWorker at h
  split at h
  · cases h
  · cases h; exact ⟨_, ‹_›, rfl⟩

theorem registerWorker_jobs {db db' : Postgres} {worker : Worker} (h : registerWorker db worker = .ok db') :
    db'.jobs = db.jobs := by
  obtain ⟨_, -, rfl⟩ := registerWorker_ok h
  rfl

theorem updateJob_workers {db db' : Postgres} {job : Job} (h : updateJob db job = .ok db') :
    db'.workers = db.workers := by
  unfold updateJob at h
  split at h
  · cases h
  · split at h <;> cases h <;> rfl

/-- A successful `CreateJob` inserted the one row, which was absent. -/
theorem createJob_ok {db db' : Postgres} {job : Job} (h : createJob db job = .ok db') :
    ∃ row, insertRow job = some row ∧ db.jobs row.id = none ∧
      (∀ x, db'.jobs x = if x = row.id then some row else db.jobs x) ∧ db'.workers = db.workers := by
  unfold createJob at h
  split at h
  · cases h
  · rename_i row hrow
    split at h
    · cases h
    · rename_i hn; cases h; exact ⟨row, hrow, hn, fun _ => rfl, rfl⟩

/-- A successful `UpdateJob` rewrites the row of the job's id, when there is
one, with the columns as they read back. -/
theorem updateJob_ok {db db' : Postgres} {job : Job} (h : updateJob db job = .ok db') :
    ∃ cols, updateColumns job = some cols ∧
      ∀ x, db'.jobs x = if x = job.id then (db.jobs x).map (updatedRow · cols) else db.jobs x := by
  unfold updateJob at h
  split at h
  · cases h
  · rename_i cols hcols
    refine ⟨cols, hcols, fun x => ?_⟩
    split at h <;> rename_i hrow <;> cases h
    · split
      · subst x; rw [hrow]; rfl
      · rfl
    · split
      · subst x; simp [hrow]
      · simp [*]

/-- `UpdateJob` never removes a row. -/
theorem updateJob_jobs_isSome {db db' : Postgres} {job : Job} (h : updateJob db job = .ok db') (x : JobId) :
    (db'.jobs x).isSome = (db.jobs x).isSome := by
  obtain ⟨_, -, hx⟩ := updateJob_ok h
  rw [hx x]
  split <;> simp

end PostgresStorage

/-! ## What a row keeps of the job it was written from -/

/-- The status, the attempt count, which times are set, and whether the worker
id and the result are empty: what a row shows of the job written into it. -/
structure Job.Stores (row job : Job) : Prop where
  status : row.status = job.status
  attempts : row.attempts = job.attempts
  started_at : row.startedAt.isSome = job.startedAt.isSome
  completed_at : row.completedAt.isSome = job.completedAt.isSome
  worker_id : row.workerId = "" ↔ job.workerId = ""
  result : row.result = [] ↔ job.result = []

/-- The row `UpdateJob` leaves shows the job written into it. -/
theorem Job.Stores.updatedRow {cols job : Job} (h : cols.Stores job) (row : Job) :
    (PostgresStorage.updatedRow row cols).Stores job :=
  ⟨h.status, h.attempts, h.started_at, h.completed_at, h.worker_id, h.result⟩

namespace PostgresStorage

theorem varchar_eq_empty {n : Nat} {s t : String} (h : varchar n s = some t) (hn : 0 < n) : t = "" ↔ s = "" := by
  unfold varchar at h
  split at h
  · cases h
  split at h
  · cases h; rfl
  split at h
  · cases h
    rename_i hl _
    constructor
    · intro ht
      rw [String.take_eq] at ht
      have := congrArg String.data ht
      simp only [List.take_eq_nil_iff] at this
      rcases this with h0 | h0
      · omega
      · simp [String.length, h0] at hl
    · rintro rfl; simp at hl
  · cases h

theorem int4_eq {z z' : Int} (h : int4 z = some z') : z' = z := by
  unfold int4 at h; split at h <;> cases h; rfl

theorem text_eq {s t : String} (h : text s = some t) : t = s := by
  unfold text at h; split at h <;> cases h; rfl

theorem jsonb_eq_nil {b c : RawMessage} (h : jsonb b = some c) : c = [] ↔ b = [] := by
  unfold jsonb at h
  split at h
  · cases h; simp [*]
  · simp [*, Jsonb.text_ne_nil h]

theorem insertRow_stores {job row : Job} (h : insertRow job = some row) :
    row.Stores job ∧ row.maxAttempts = job.maxAttempts := by
  simp only [insertRow, Option.bind_eq_bind, Option.bind_eq_some, Option.pure_def, Option.some.injEq] at h
  obtain ⟨-, -, -, -, -, -, result, hr, -, -, attempts, ha, max, hm, workerId, hw, rfl⟩ := h
  exact ⟨⟨rfl, int4_eq ha, by simp, by simp, varchar_eq_empty hw (by decide), jsonb_eq_nil hr⟩, int4_eq hm⟩

theorem updateColumns_maxAttempts {job cols : Job} (h : updateColumns job = some cols) :
    cols.maxAttempts = job.maxAttempts := by
  simp only [updateColumns, Option.bind_eq_bind, Option.bind_eq_some, Option.pure_def, Option.some.injEq] at h
  obtain ⟨-, -, -, -, -, -, -, -, -, -, rfl⟩ := h
  rfl

theorem updateColumns_stores {job cols : Job} (h : updateColumns job = some cols) : cols.Stores job := by
  simp only [updateColumns, Option.bind_eq_bind, Option.bind_eq_some, Option.pure_def, Option.some.injEq] at h
  obtain ⟨-, -, result, hr, -, -, attempts, ha, workerId, hw, rfl⟩ := h
  exact ⟨rfl, int4_eq ha, by simp, by simp, varchar_eq_empty hw (by decide), jsonb_eq_nil hr⟩

theorem updateColumns_id {job cols : Job} (h : updateColumns job = some cols) : cols.id = job.id := by
  simp only [updateColumns, Option.bind_eq_bind, Option.bind_eq_some, Option.pure_def, Option.some.injEq] at h
  obtain ⟨-, -, -, -, -, -, -, -, -, -, rfl⟩ := h
  rfl

theorem updateColumns_result {job cols : Job} (h : updateColumns job = some cols) : jsonb job.result = some cols.result := by
  simp only [updateColumns, Option.bind_eq_bind, Option.bind_eq_some, Option.pure_def, Option.some.injEq] at h
  obtain ⟨-, -, _, hr, -, -, -, -, -, -, rfl⟩ := h
  exact hr

theorem hasNul_hexDigits (n x : Nat) : hasNul (String.mk (hexDigits n x)) = false := by
  simp [hasNul, nul_not_mem_hexDigits]

/-- A generated job id fits its `VARCHAR(255)` column as it is. -/
theorem varchar_generateJobID (rand : Nat) : varchar 255 (generateJobID rand) = some (generateJobID rand) := by
  simp [varchar, generateJobID, hasNul_hexDigits]

/-- The columns `RegisterWorker` checks, as the row holds them. -/
theorem workerRow_some {worker R : Worker} (h : workerRow worker = some R) :
    varchar 255 worker.id = some R.id ∧ varchar 20 worker.status = some R.status ∧
      (Jsonb.text (marshalStrings worker.jobTypes)).isSome ∧ varchar 255 worker.currentJob = some R.currentJob := by
  simp only [workerRow, Option.bind_eq_bind, Option.bind_eq_some, Option.pure_def, Option.some.injEq] at h
  obtain ⟨id, hid, status, hs, _, ht, cur, hc, rfl⟩ := h
  exact ⟨hid, hs, by simp [ht], hc⟩

/-- A worker whose columns all fit is upserted as it is, its `last_seen`
rounded to microseconds. -/
theorem workerRow_of_fits {worker : Worker} (hid : varchar 255 worker.id = some worker.id)
    (hs : varchar 20 worker.status = some worker.status) (ht : (Jsonb.text (marshalStrings worker.jobTypes)).isSome)
    (hc : varchar 255 worker.currentJob = some worker.currentJob) :
    workerRow worker = some { worker with lastSeen := timestamptz worker.lastSeen } := by
  obtain ⟨b, hb⟩ := Option.isSome_iff_exists.1 ht
  simp [workerRow, hid, hs, hb, hc]

end PostgresStorage

end Taskflow
