import RuncardReview.Cache
import RuncardReview.Records

/-!
# Remembered lookups

During a batch every successful lookup is remembered, and asked of the source
only once.  Lists of tools count as sets here: their order and repeats make no
difference to what is remembered.
-/

namespace RuncardReview

/-- Puts a name at its place in an ascending list, unless it is there. -/
def insertName (a : String) : List String → List String
  | [] => [a]
  | b :: l => if a < b then a :: b :: l else if b < a then b :: insertName a l else b :: l

/-- The tool ids in ascending order, without repeats. -/
def toolKey (tools : List String) : List String :=
  tools.foldr insertName []

/-- What a batch remembers, and which queries have reached the source. -/
structure Memo where
  forward : Cache (String × String) (List ProcessRecord)
  inhibition : Cache (String × List String) (List InhibitionRecord)
  wafer : Cache String (Option WaferCounts)
  release : Cache (String × List String) (List ReleaseRecord)
  engineerSection : Cache String (Option String)
  reached : List Query

namespace Memo

def empty : Memo :=
  ⟨.empty, .empty, .empty, .empty, .empty, []⟩

def size (m : Memo) : Nat :=
  m.forward.size + m.inhibition.size + m.wafer.size + m.release.size + m.engineerSection.size

/-- Notes that a query has reached the source, if it has. -/
def noteReached (m : Memo) (attempted : Bool) (q : Query) : Memo :=
  if attempted then { m with reached := m.reached ++ [q] } else m

/-- Serves a query from memory, or else by the source. -/
def serve (source : Source) : (q : Query) → Memo → q.Reply × Memo
  | .forward runcard condition, m =>
      let q := Query.forward runcard condition
      let a := m.forward.access (runcard, condition) (source q)
      (a.answer, { m with forward := a.cache }.noteReached a.attempted q)
  | .inhibition tools recipe, m =>
      let q := Query.inhibition tools recipe
      let a := m.inhibition.access (recipe, toolKey tools) (source q)
      (a.answer, { m with inhibition := a.cache }.noteReached a.attempted q)
  | .wafer runcard, m =>
      let q := Query.wafer runcard
      let a := m.wafer.access runcard (source q)
      (a.answer, { m with wafer := a.cache }.noteReached a.attempted q)
  | .release recipe tools, m =>
      let q := Query.release recipe tools
      let a := m.release.access (recipe, toolKey tools) (source q)
      (a.answer, { m with release := a.cache }.noteReached a.attempted q)
  | .engineerSection engineer, m =>
      let q := Query.engineerSection engineer
      let a := m.engineerSection.access engineer (source q)
      (a.answer, { m with engineerSection := a.cache }.noteReached a.attempted q)

def serveAll (source : Source) (m : Memo) (qs : List Query) : Memo :=
  qs.foldl (fun m q => (serve source q m).2) m

/-- The number of queries of a lookup's name that have reached the source. -/
def calls (m : Memo) (name : String) : Nat :=
  (m.reached.filter fun q => q.name = name).length

end Memo
end RuncardReview
