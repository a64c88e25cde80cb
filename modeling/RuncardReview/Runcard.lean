import RuncardReview.Text.Pieces
import RuncardReview.Timestamp

/-!
# Runcards and their conditions

A runcard identifies a lot and says who issued it and when; each of its
conditions names a list of tools and a recipe.
-/

namespace RuncardReview

open Text

/-- The identity and classification of a runcard. -/
structure Runcard where
  id : String
  engineer : Option String
  lot : Option String
  part : Option String
  status : Option String
  purpose : Option String
  pieces : Option UInt32
  holdOperation : Option String
  issued : Option Timestamp
  deriving DecidableEq

namespace Runcard

/-- A runcard of which nothing but the id is known. -/
def ofId (id : String) : Runcard :=
  ⟨id, none, none, none, none, none, none, none, none⟩

/-- The short name in an engineer's path: the last segment that is not blank. -/
def lastSegment (path : String) : Option String :=
  (items '/' path.toList).getLast?

def engineerName (r : Runcard) : Option String :=
  r.engineer.bind lastSegment

end Runcard

/-- One recipe and its tools within a runcard. -/
structure Condition where
  label : String
  /-- The tool ids, joined by commas. -/
  toolList : String
  recipe : String
  deriving DecidableEq

namespace Condition

/-- The tool ids, in order, blanks around them and empty ones dropped. -/
def toolIds (c : Condition) : List String :=
  commaItems c.toolList

end Condition
end RuncardReview
