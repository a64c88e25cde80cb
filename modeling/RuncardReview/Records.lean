import RuncardReview.Group
import RuncardReview.Lookup
import RuncardReview.Runcard

/-!
# Backends

A backend serves both sides of a review: the groups, the runcards and their
conditions, and the lookups of the checks.  `Records` is a backend in memory;
`Backend.withFaults` lets chosen lookups of a backend fail or break off.
-/

namespace RuncardReview

/-- What serves a review. -/
structure Backend where
  groups : List String → Outcome SourceError (List Group)
  runcards : List String → Timestamp → Timestamp → Outcome SourceError (List Runcard)
  conditions : String → Outcome SourceError (List Condition)
  source : Source

/-- Records in memory, each list in the order in which it was filled. -/
structure Records where
  /-- Groups by section. -/
  groups : List (String × Group)
  /-- Runcards by section. -/
  runcards : List (String × Runcard)
  /-- Conditions by runcard. -/
  conditions : List (String × Condition)
  /-- Route steps by runcard and condition. -/
  processes : List ((String × String) × ProcessRecord)
  inhibitions : List InhibitionRecord
  /-- Wafer counts by runcard; the last entry counts. -/
  wafers : List (String × WaferCounts)
  /-- Release records by recipe. -/
  releases : List (String × ReleaseRecord)
  /-- Sections by engineer; the last entry counts. -/
  engineers : List (String × String)

namespace Records

def empty : Records :=
  ⟨[], [], [], [], [], [], [], []⟩

def under {κ α : Type} [DecidableEq κ] (k : κ) (l : List (κ × α)) : List α :=
  (l.filter fun e => e.1 = k).map Prod.snd

/-- What is filed under any of some sections, in order. -/
def within {α : Type} (sections : List String) (l : List (String × α)) : List α :=
  (l.filter fun e => e.1 ∈ sections).map Prod.snd

/-- Whether a runcard was issued from `start` on and before `stop`.  One without
a time of issue always counts. -/
def issuedWithin (start stop : Timestamp) (r : Runcard) : Bool :=
  match r.issued with
  | none => true
  | some t => !t.before start && t.before stop

def answer (s : Records) : (q : Query) → q.Answer
  | .forward runcard condition => under (runcard, condition) s.processes
  | .inhibition tools _ => s.inhibitions.filter fun r => r.tool ∈ tools
  | .wafer runcard => (under runcard s.wafers).getLast?
  | .release recipe tools => (under recipe s.releases).filter fun r => r.tool ∈ tools
  | .engineerSection engineer => (under engineer s.engineers).getLast?

/-- The records as a source, which never fails. -/
def source (s : Records) : Source :=
  fun q => .ok (s.answer q)

/-- The records as a backend, which never fails. -/
def backend (s : Records) : Backend where
  groups sections := .ok (within sections s.groups)
  runcards sections start stop :=
    .ok ((within sections s.runcards).filter (issuedWithin start stop))
  conditions runcard := .ok (under runcard s.conditions)
  source := s.source

end Records

/-- What is done to a lookup instead of serving it. -/
inductive Fault
  /-- It fails for that reason. -/
  | refuse (reason : String)
  /-- It breaks off with that text. -/
  | breakOff (message : String)

/-- Faults by the name of a lookup, or by its name, a colon and its subject. -/
abbrev Faults := Entries Fault

namespace Faults

/-- The fault for a lookup.  One that names the subject goes first. -/
def for? (fs : Faults) (name subject : String) : Option Fault :=
  match fs.get? (name ++ ":" ++ subject) with
  | some f => some f
  | none => fs.get? name

/-- The outcome of a lookup under the faults. -/
def apply {α : Type} (fs : Faults) (name subject : String) (served : Outcome SourceError α) :
    Outcome SourceError α :=
  match fs.for? name subject with
  | some (.refuse reason) => .error ⟨name, reason⟩
  | some (.breakOff message) => .panicked (.text message)
  | none => served

end Faults

namespace Query

def name : Query → String
  | forward .. => "forward"
  | inhibition .. => "inhibition"
  | wafer .. => "wafer"
  | release .. => "release"
  | engineerSection .. => "section"

def subject : Query → String
  | forward runcard _ => runcard
  | inhibition _ recipe => recipe
  | wafer runcard => runcard
  | release recipe _ => recipe
  | engineerSection engineer => engineer

end Query

namespace Backend

/-- A backend of which some lookups fail or break off. -/
def withFaults (b : Backend) (fs : Faults) : Backend where
  groups sections := fs.apply "groups" "" (b.groups sections)
  runcards sections start stop := fs.apply "runcards" "" (b.runcards sections start stop)
  conditions runcard := fs.apply "conditions" runcard (b.conditions runcard)
  source q := fs.apply q.name q.subject (b.source q)

end Backend
end RuncardReview
