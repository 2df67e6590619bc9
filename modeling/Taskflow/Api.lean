import Taskflow.Worker

/-!
# The job handlers (`internal/api/handlers.go`)

`createJob` and `cancelJob`, cut at their broker and store commands like the
worker loop, and `getJob`, which only reads. A request handler is a goroutine of its own and interleaves with
the workers at those commands; the response it writes is its last phase,
`responded status code`.

`createJob` starts here after its body decoded and `ValidateJobRequest`
accepted it: both are pure, and a request they refuse gets its 400 without
touching the broker or the store. The handler then runs `NewJob`,
`storage.CreateJob` and `queue.EnqueueJob`.

`cancelJob` loads the job (broker first, store second), refuses completed and
failed jobs, calls `FailJob` with the message `Job cancelled by user`, and
mirrors the cancellation into the store, ignoring that write's error.
-/

namespace Taskflow

/-- The message `cancelJob` hands to `FailJob`. -/
def cancelMessage : String := "Job cancelled by user"

/-- Where a `createJob` goroutine is. -/
inductive CreatePhase where
  /-- `storage.CreateJob`. -/
  | storing (job : Job)
  /-- `queue.EnqueueJob`. -/
  | enqueuing (job : Job)
  /-- The response is written. -/
  | responded (status : Nat) (code : String)
deriving DecidableEq, Repr

/-- One command of `createJob`. -/
def CreatePhase.step (p : CreatePhase) (e : Env) (W : World) : CreatePhase × World :=
  match p with
  | .storing job =>
    match e.ok, PostgresStorage.createJob W.db job with
    | true, .ok db => (.enqueuing job, { W with db := db })
    | _, _ => (.responded 500 "STORAGE_ERROR", W)
  | .enqueuing job =>
    match e.ok, RedisQueue.enqueueJob W.redis job with
    | true, .ok r => (.responded 201 "", { W with redis := r })
    | _, _ => (.responded 500 "QUEUE_ERROR", W)
  | .responded status code => (.responded status code, W)

/-- A job whose row `CreateJob` can insert marshals: `EnqueueJob` then stores
it. -/
theorem insertRow_marshal {job row : Job} (h : PostgresStorage.insertRow job = some row) :
    job.marshal.isSome := by
  obtain ⟨-, hp0, hp, hr⟩ := PostgresStorage.insertRow_some h
  have compact_of_text : ∀ {b t}, Jsonb.text b = some t → ∃ c, Json.compact b = some c := fun ht => by
    obtain ⟨v, -, hv, -⟩ := Jsonb.parse_text ht
    exact ⟨_, by rw [Json.compact, hv]; rfl⟩
  obtain ⟨p, hp'⟩ := compact_of_text hp
  have hres : ∃ c, marshalResult job.result = some c := by
    unfold PostgresStorage.jsonb at hr
    unfold marshalResult
    split at hr
    · exact ⟨[], by simp [*]⟩
    · rw [if_neg ‹_›]; exact compact_of_text hr
  obtain ⟨c, hc⟩ := hres
  simp [Job.marshal, marshalRaw, hp0, hp', hc]

/-- Where a `cancelJob` goroutine is. -/
inductive CancelPhase where
  /-- `queue.GetJob`. -/
  | lookup (jobId : JobId)
  /-- `storage.GetJob`, after the broker had no record. -/
  | storeLookup (jobId : JobId)
  /-- `FailJob`'s `GetJob`; `job` is the record the handler loaded. -/
  | failing (jobId : JobId) (job : Job)
  /-- `FailJob`'s write, with the record it read. -/
  | failWriting (jobId : JobId) (job : Job) (record : Job)
  /-- `storage.UpdateJob` of the cancelled copy. -/
  | mirroring (job : Job)
  /-- The response is written. -/
  | responded (status : Nat) (code : String)
deriving DecidableEq, Repr

/-- The check of handlers.go:199: completed and failed jobs cannot be cancelled. -/
def cancelCheck (jobId : JobId) (job : Job) : CancelPhase :=
  if job.status = .completed ∨ job.status = .failed then .responded 400 "CANNOT_CANCEL"
  else .failing jobId job

/-- One command of `cancelJob`. -/
def CancelPhase.step (p : CancelPhase) (e : Env) (W : World) : CancelPhase × World :=
  match p with
  | .lookup jobId =>
    if jobId = "" then (.responded 400 "MISSING_ID", W)
    else match RedisQueue.getJob W.redis jobId e.ok with
      | .ok job => (cancelCheck jobId job, W)
      | .error _ => (.storeLookup jobId, W)
  | .storeLookup jobId =>
    match PostgresStorage.getJob W.db jobId e.ok with
    | .ok job => (cancelCheck jobId job, W)
    | .error _ => (.responded 404 "JOB_NOT_FOUND", W)
  | .failing jobId job =>
    match RedisQueue.getJob W.redis jobId e.ok with
    | .ok record => (.failWriting jobId job record, W)
    | .error _ => (.responded 500 "CANCEL_ERROR", W)
  | .failWriting jobId job record =>
    match e.ok, RedisQueue.failJob W.redis jobId record cancelMessage e.now e.later with
    | true, .ok r => (.mirroring { job with status := .failed, error := cancelMessage }, { W with redis := r })
    | _, _ => (.responded 500 "CANCEL_ERROR", W)
  | .mirroring job =>
    (.responded 200 "", W.storeOr e.ok (PostgresStorage.updateJob W.db job))
  | .responded status code => (.responded status code, W)

/-- `getJob`: the broker's record of `jobId` as `W₁` holds it, else the store's
row as `W₂` holds it, else the 404 of `sendError`; `okRedis` and `okDb` say
whether each read succeeds. The two reads see the states of two moments of a
run. -/
def Server.getJob (W₁ W₂ : World) (jobId : JobId) (okRedis okDb : Bool) : Except (Nat × String) Job :=
  if jobId = "" then .error (400, "MISSING_ID") else
  match RedisQueue.getJob W₁.redis jobId okRedis with
  | .ok job => .ok job
  | .error _ =>
    match PostgresStorage.getJob W₂.db jobId okDb with
    | .ok job => .ok job
    | .error _ => .error (404, "JOB_NOT_FOUND")

end Taskflow
