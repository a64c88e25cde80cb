import RuncardReview.Failure

/-!
# Lookups

A check may ask for records about the tools, the lot and the engineer.  What it
asks for is a `Query`, and each query has its own type of answer.  A lookup may
also fail or break off.

An `Inquiry` is a computation that puts queries and goes on with what comes
back.  It names no source, so the same check runs against records in memory, a
source that fails, or a cache.

**Results.**
* `run_bind`, `run_map`: running a composed inquiry composes the runs.
-/

namespace RuncardReview

/-- One step of a lot's route. -/
structure ProcessRecord where
  step : UInt32
  recipe : String
  tool : String
  category : String
  deriving DecidableEq

/-- Whether a tool, or one chamber of it, may be used. -/
structure InhibitionRecord where
  tool : String
  chamber : String
  flag : String
  deriving DecidableEq

/-- The wafer counts of a lot, as texts. -/
structure WaferCounts where
  unique : String
  quantity : String
  deriving DecidableEq

/-- Whether a recipe is released and enabled on a chamber. -/
structure ReleaseRecord where
  tool : String
  chamber : String
  released : Bool
  enabled : Bool
  deriving DecidableEq

/-- What a check can ask for. -/
inductive Query
  /-- The route of a lot under one condition. -/
  | forward (runcard condition : String)
  /-- The inhibition records of some tools for a recipe. -/
  | inhibition (tools : List String) (recipe : String)
  /-- The wafer counts of a lot. -/
  | wafer (runcard : String)
  /-- The release records of a recipe on some tools. -/
  | release (recipe : String) (tools : List String)
  /-- The section that an engineer belongs to. -/
  | engineerSection (engineer : String)
  deriving DecidableEq

namespace Query

def Answer : Query → Type
  | forward .. => List ProcessRecord
  | inhibition .. => List InhibitionRecord
  | wafer .. => Option WaferCounts
  | release .. => List ReleaseRecord
  | engineerSection .. => Option String

abbrev Reply (q : Query) : Type :=
  Outcome SourceError q.Answer

/-- The answer of a source that knows nothing. -/
def noAnswer : (q : Query) → q.Answer
  | forward .. => []
  | inhibition .. => []
  | wafer .. => none
  | release .. => []
  | engineerSection .. => none

end Query

/-- A source of answers, each a function of the query. -/
abbrev Source : Type :=
  (q : Query) → q.Reply

def Source.empty : Source :=
  fun q => .ok q.noAnswer

/-- A computation that puts queries and ends in a value. -/
inductive Inquiry (α : Type)
  | done (a : α)
  | ask (q : Query) (next : q.Reply → Inquiry α)

namespace Inquiry

variable {α β : Type}

def bind (x : Inquiry α) (f : α → Inquiry β) : Inquiry β :=
  match x with
  | done a => f a
  | ask q next => ask q fun r => bind (next r) f

/-- Applies a function to the value of an inquiry. -/
def map (f : α → β) (x : Inquiry α) : Inquiry β :=
  x.bind fun a => done (f a)

instance : Monad Inquiry where
  pure := done
  bind := bind

/-- Runs an inquiry whose queries are served, one after the other, from a state
that serving may change. -/
def runServed {σ : Type} (serve : (q : Query) → σ → q.Reply × σ) : Inquiry α → σ → α × σ
  | done a, s => (a, s)
  | ask q next, s => runServed serve (next (serve q s).1) (serve q s).2

def run (source : Source) : Inquiry α → α
  | done a => a
  | ask q next => run source (next (source q))

/-- The queries that are put when an inquiry runs against a source, in order. -/
def queries (source : Source) : Inquiry α → List Query
  | done _ => []
  | ask q next => q :: queries source (next (source q))

@[simp] theorem run_bind (source : Source) (x : Inquiry α) (f : α → Inquiry β) :
    run source (x.bind f) = run source (f (run source x)) := by
  induction x with
  | done a => rfl
  | ask q next ih => exact ih (source q)

@[simp] theorem run_map (source : Source) (f : α → β) (x : Inquiry α) :
    run source (x.map f) = f (run source x) := by
  simp [map, run]

end Inquiry
end RuncardReview
