import Taskflow.Api

/-!
# The deployment: broker, store and goroutines

A `Sys` is the broker, the store, and a table of goroutine slots: worker
loops started by the supervisor (`cmd/worker`), and one goroutine per API
request. An `Act` is one move of the environment or of one goroutine:

* `startWorker` — the supervisor starts a worker (`NewWorker`, `Start`);
* `submit` — a `POST /jobs` request, already decoded and validated, arrives;
* `cancel` — a `POST /jobs/{id}/cancel` request arrives;
* `exec t e` — goroutine `t` runs its next command in environment `e`;
* `beat t e` — the heartbeat goroutine of worker `t` ticks;
* `halt t` — worker `t`'s context is cancelled and its loop notices.

Any order of these is a run. `Reachable allow` collects the states of the
runs whose every move satisfies `allow`; `Act.faultFree` and `Act.noCancel`
are the two restrictions the later files use.

The random draws are the environment's: `GenerateJobID`'s 16 bytes, and the
UUID of `NewWorker`. The worker ids handed out so far are recorded, and a
worker is started only under an id no earlier worker has: two workers whose
UUIDs agree on their first 32 bits are not both modelled.
-/

namespace Taskflow

/-- A goroutine slot. -/
inductive Thread where
  | free
  | worker (w : WorkerThread)
  | create (p : CreatePhase)
  | cancel (p : CancelPhase)
deriving DecidableEq, Repr

/-- The deployment. -/
structure Sys extends World where
  threads : Nat → Thread
  workerIds : List String

/-- Nothing started yet. -/
def Sys.empty : Sys :=
  { redis := Redis.empty, db := Postgres.empty, threads := fun _ => .free, workerIds := [] }

/-- One move of the environment or of one goroutine. -/
inductive Act where
  | startWorker (t : Nat) (uuid : Nat) (types : List JobType)
  | submit (t : Nat) (req : JobRequest) (rand : Nat) (now : Time)
  | cancel (t : Nat) (jobId : JobId)
  | exec (t : Nat) (e : Env)
  | beat (t : Nat) (e : Env)
  | halt (t : Nat)

theorem parse_empty_object : ∀ res, (.ok (bytes "\x7b\x7d") : Except String RawMessage) = .ok res →
    (Json.parse res).isSome := by
  rintro _ ⟨⟩
  decide

/-- A command that succeeds, the clock reading `now` throughout; a handler call
returns `{}`. -/
def Env.succeed (now : Time) : Env := ⟨true, now, now, .ok (bytes "\x7b\x7d"), parse_empty_object⟩

/-- A handler call that fails with `msg` at instant `now`. -/
def Env.handlerError (msg : String) (now : Time) : Env := ⟨true, now, now, .error msg, by rintro _ ⟨⟩⟩

/-- A command that fails at instant `now`. -/
def Env.fault (now : Time) : Env := ⟨false, now, now, .ok (bytes "\x7b\x7d"), parse_empty_object⟩

namespace Sys

/-- Slot `t` now holds `th`, and the broker and store are `W`. -/
def put (s : Sys) (t : Nat) (th : Thread) (W : World) : Sys :=
  { s with toWorld := W, threads := fun u => if u = t then th else s.threads u }

@[simp] theorem put_toWorld (s : Sys) (t : Nat) (th : Thread) (W : World) : (s.put t th W).toWorld = W := rfl
@[simp] theorem put_redis (s : Sys) (t : Nat) (th : Thread) (W : World) : (s.put t th W).redis = W.redis := rfl
@[simp] theorem put_db (s : Sys) (t : Nat) (th : Thread) (W : World) : (s.put t th W).db = W.db := rfl
@[simp] theorem put_workerIds (s : Sys) (t : Nat) (th : Thread) (W : World) :
    (s.put t th W).workerIds = s.workerIds := rfl

theorem put_threads (s : Sys) (t : Nat) (th : Thread) (W : World) (u : Nat) :
    (s.put t th W).threads u = if u = t then th else s.threads u := rfl

/-- Goroutine `t` runs one command. -/
def exec (s : Sys) (t : Nat) (e : Env) : Sys :=
  match s.threads t with
  | .free => s
  | .worker w => s.put t (.worker (w.step e s.toWorld).1) (w.step e s.toWorld).2
  | .create c => s.put t (.create (c.step e s.toWorld).1) (c.step e s.toWorld).2
  | .cancel c => s.put t (.cancel (c.step e s.toWorld).1) (c.step e s.toWorld).2

end Sys

/-- One move. A request or a worker takes a free slot; moves that are not
enabled leave the state as it is. -/
def step (s : Sys) : Act → Sys
  | .startWorker t uuid types =>
    if s.threads t = .free ∧ newWorkerId uuid ∉ s.workerIds then
      { s.put t (.worker ⟨newWorkerId uuid, types, .registering⟩) s.toWorld with
        workerIds := newWorkerId uuid :: s.workerIds }
    else s
  | .submit t req rand now =>
    if s.threads t = .free then s.put t (.create (.storing (newJob req (generateJobID rand) now))) s.toWorld
    else s
  | .cancel t jobId =>
    if s.threads t = .free then s.put t (.cancel (.lookup jobId)) s.toWorld else s
  | .exec t e => s.exec t e
  | .beat t e =>
    match s.threads t with
    | .worker w => s.put t (.worker w) (w.beat e s.toWorld)
    | _ => s
  | .halt t =>
    match s.threads t with
    | .worker w => s.put t (.worker w.halt) s.toWorld
    | _ => s

/-- A run: the moves in order. -/
def run (s : Sys) (acts : List Act) : Sys := acts.foldl step s

theorem run_cons (s : Sys) (a : Act) (acts : List Act) : run s (a :: acts) = run (step s a) acts := rfl

/-- The states of the runs from `Sys.empty` whose every move satisfies `allow`. -/
inductive Reachable (allow : Act → Prop) : Sys → Prop where
  | init : Reachable allow Sys.empty
  | step {s : Sys} {a : Act} : Reachable allow s → allow a → Reachable allow (step s a)

theorem Reachable.run {allow : Act → Prop} {s : Sys} (hs : Reachable allow s) :
    ∀ acts : List Act, (∀ a ∈ acts, allow a) → Reachable allow (run s acts)
  | [], _ => hs
  | a :: acts, h =>
    (hs.step (h a (List.mem_cons_self a acts))).run acts (fun b hb => h b (List.mem_cons_of_mem a hb))

theorem Reachable.mono {allow allow' : Act → Prop} (h : ∀ a, allow a → allow' a) {s : Sys}
    (hs : Reachable allow s) : Reachable allow' s := by
  induction hs with
  | init => exact .init
  | step _ ha ih => exact ih.step (h _ ha)

/-- No broker or store command fails. -/
def Act.faultFree : Act → Prop
  | .exec _ e | .beat _ e => e.ok = true
  | _ => True

/-- No cancel request arrives. -/
def Act.noCancel : Act → Prop
  | .cancel _ _ => False
  | _ => True

instance Act.decFaultFree : (a : Act) → Decidable a.faultFree
  | .exec _ e | .beat _ e => inferInstanceAs (Decidable (e.ok = true))
  | .startWorker .. | .submit .. | .cancel .. | .halt _ => inferInstanceAs (Decidable True)

instance Act.decNoCancel : (a : Act) → Decidable a.noCancel
  | .cancel .. => inferInstanceAs (Decidable False)
  | .startWorker .. | .submit .. | .exec .. | .beat .. | .halt _ => inferInstanceAs (Decidable True)

/-- `n` commands of goroutine `t`, each in environment `e`. -/
def Act.execs (t : Nat) (e : Env) (n : Nat) : List Act := List.replicate n (.exec t e)

/-- The ids of the jobs the runs of the later files submit: `GenerateJobID`
of the draws 1, 2 and 3. -/
def jobA : JobId := generateJobID 1
def jobB : JobId := generateJobID 2
def jobC : JobId := generateJobID 3

/-- The UUID of the second worker of those runs (`worker-00000001`); the first
draws 0 (`worker-00000000`). -/
def uuidOne : Nat := Nat.pow 2 96

/-- An email job, as `POST /jobs` receives it, with the given attempt budget. -/
def emailRequest (maxAttempts : Int) : JobRequest :=
  ⟨JobTypeEmail, bytes "\x7b\"to\":\"a@b\",\"subject\":\"s\"\x7d", maxAttempts, none⟩

end Taskflow
