import Mathlib.Data.List.Nodup
import Mathlib.Tactic.Common

/-!
# Taskflow job model

The records of `internal/types`: the job (`Job`, `JobStatus`), the request a
client submits (`JobRequest`), the worker row (`Worker`) and the counters of
`GET /stats` (`JobStats`), together with `NewJob`.

Representation choices, fixed once for the whole development:

* identifiers and job types are strings; payloads and results
  (`json.RawMessage`) are byte lists, since request validation decodes them
  as JSON and any bytes can arrive;
* instants and durations are integers of nanoseconds (`time.Time`,
  `time.Duration`); the clock is read by the caller and passed in as `now`;
* Go `int` fields are integers. Their 64-bit range only matters where a value
  is multiplied or shifted (`calculateRetryDelay`), which wraps explicitly;
  `attempts` is counted without a bound, where Go's would wrap after 2^63
  increments;
* random draws (`GenerateJobID`'s bytes, `uuid.New`) are numbers chosen by
  the environment.
-/

namespace Taskflow

/-- A wall-clock instant or a duration, in nanoseconds. -/
abbrev Time := Int

/-- A job id: 32 hex characters from `GenerateJobID`. -/
abbrev JobId := String

/-- `JobType`: a free string; the four known tags are below. -/
abbrev JobType := String

/-- A Go byte string. -/
abbrev Bytes := List UInt8

/-- The bytes of a Go string literal: its UTF-8 encoding. -/
def bytes (s : String) : Bytes := s.toUTF8.data.toList

/-- `json.RawMessage`: the payload or result bytes. -/
abbrev RawMessage := Bytes

/-- Results with an error compare by value, so that an outcome can be decided. -/
instance exceptDecidableEq {ε α : Type} [DecidableEq ε] [DecidableEq α] :
    DecidableEq (Except ε α)
  | .error x, .error y =>
    if h : x = y then isTrue (h ▸ rfl) else isFalse fun e => h (by cases e; rfl)
  | .ok x, .ok y => if h : x = y then isTrue (h ▸ rfl) else isFalse fun e => h (by cases e; rfl)
  | .error _, .ok _ => isFalse nofun
  | .ok _, .error _ => isFalse nofun

def JobTypeEmail : JobType := "email"
def JobTypeImageResize : JobType := "image_resize"
def JobTypeWebhook : JobType := "webhook"
def JobTypeDataExport : JobType := "data_export"

/-- `JobStatus`. -/
inductive JobStatus where
  | pending
  | processing
  | completed
  | failed
  | retrying
deriving DecidableEq, Repr

/-- `Job`: one task, as the broker and the store both record it. -/
structure Job where
  id : JobId
  type : JobType
  payload : RawMessage
  status : JobStatus
  result : RawMessage
  error : String
  attempts : Int
  maxAttempts : Int
  createdAt : Time
  updatedAt : Time
  scheduledAt : Time
  startedAt : Option Time
  completedAt : Option Time
  workerId : String
deriving DecidableEq, Repr

/-- `JobRequest`: the body of `POST /jobs`, after JSON decoding. -/
structure JobRequest where
  type : JobType
  payload : RawMessage
  maxAttempts : Int
  scheduledAt : Option Time
deriving DecidableEq, Repr

/-- `Worker`: a row of the workers table. `status` is a free string; the code
writes `starting`, `processing` and `idle`. -/
structure Worker where
  id : String
  status : String
  lastSeen : Time
  jobTypes : List JobType
  currentJob : String
deriving DecidableEq, Repr

/-- `JobStats`: the counters of the stats hash. -/
structure JobStats where
  total : Int
  pending : Int
  processing : Int
  completed : Int
  failed : Int
deriving DecidableEq, Repr

/-- An empty stats hash: every field reads as zero. -/
def JobStats.zero : JobStats := ⟨0, 0, 0, 0, 0⟩

/-- A digit as `hex.EncodeToString` writes it, in lower case. -/
def hexChar (d : Nat) : Char := Char.ofNat (if d < 10 then 48 + d else 87 + d)

/-- The `n` lowest hex digits of `x`, most significant first. -/
def hexDigits : Nat → Nat → List Char
  | 0, _ => []
  | n + 1, x => hexDigits n (x / 16) ++ [hexChar (x % 16)]

@[simp] theorem hexDigits_length (n x : Nat) : (hexDigits n x).length = n := by
  induction n generalizing x with
  | zero => rfl
  | succ n ih => simp [hexDigits, ih]

theorem hexChar_ne_nul {d : Nat} (h : d < 16) : hexChar d ≠ Char.ofNat 0 := by
  have : ∀ d : Fin 16, hexChar d.val ≠ Char.ofNat 0 := by decide
  exact this ⟨d, h⟩

/-- Hex digits are never NUL, so any column takes them. -/
theorem nul_not_mem_hexDigits (n x : Nat) : Char.ofNat 0 ∉ hexDigits n x := by
  induction n generalizing x with
  | zero => simp [hexDigits]
  | succ n ih =>
    simp only [hexDigits, List.mem_append, List.mem_singleton, not_or]
    exact ⟨ih _, (hexChar_ne_nul (Nat.mod_lt x (by omega))).symm⟩

/-- `GenerateJobID`: `hex.EncodeToString` of 16 random bytes, which spell the
number `rand` (taken modulo 2^128). -/
def generateJobID (rand : Nat) : JobId := String.mk (hexDigits 32 rand)

example : generateJobID 255 = "000000000000000000000000000000ff" := by decide

/-- `NewJob`: the id comes from `GenerateJobID` and `now` from `time.Now()`.
`max_attempts` defaults to 3 and is overridden by any positive request value;
`scheduled_at` is overridden by any requested instant, past ones included. -/
def newJob (req : JobRequest) (id : JobId) (now : Time) : Job :=
  { id := id
    type := req.type
    payload := req.payload
    status := .pending
    result := []
    error := ""
    attempts := 0
    maxAttempts := if req.maxAttempts > 0 then req.maxAttempts else 3
    createdAt := now
    updatedAt := now
    scheduledAt := match req.scheduledAt with
      | some t => t
      | none => now
    startedAt := none
    completedAt := none
    workerId := "" }

/-! ## Status classes -/

/-- The statuses `cancelJob` refuses to cancel. -/
def JobStatus.isFinal : JobStatus → Bool
  | .completed | .failed => true
  | _ => false

/-- The statuses of a job that waits in `pending` for a lease. -/
def JobStatus.isQueued : JobStatus → Bool
  | .pending | .retrying => true
  | _ => false

/-- `NewJob` always produces an admissible attempt budget: the default is 3 and
an override is taken only when positive. -/
theorem newJob_maxAttempts_pos (req : JobRequest) (id : JobId) (now : Time) :
    1 ≤ (newJob req id now).maxAttempts := by
  simp only [newJob]
  split <;> omega

@[simp] theorem newJob_id (req : JobRequest) (id : JobId) (now : Time) :
    (newJob req id now).id = id := rfl

@[simp] theorem newJob_status (req : JobRequest) (id : JobId) (now : Time) :
    (newJob req id now).status = .pending := rfl

@[simp] theorem newJob_attempts (req : JobRequest) (id : JobId) (now : Time) :
    (newJob req id now).attempts = 0 := rfl

end Taskflow
