import RuncardReview.Entries
import RuncardReview.Value

/-!
# Rule settings

Settings are named values that each kind of rule reads in its own way.  A typed
look-up never fails: an entry that is missing, or has no view of the wanted
form, gives the default.
-/

namespace RuncardReview

open Text

abbrev Settings := Entries Value

namespace Settings

def int (s : Settings) (name : String) (default : Int64) : Int64 :=
  ((s.get? name).bind Value.int?).getD default

def bool (s : Settings) (name : String) (default : Bool) : Bool :=
  ((s.get? name).bind Value.bool?).getD default

def text (s : Settings) (name : String) (default : String) : String :=
  ((s.get? name).bind Value.text?).getD default

/-- One entry of a list of texts: a text without the blanks around it, or the
text in which another value is shown. -/
def itemText : Value → String
  | .text s => trim s
  | v => v.display

/-- The list of texts under a name.  One text is cut at its commas; empty entries
are dropped in either form. -/
def texts (s : Settings) (name : String) : List String :=
  match s.get? name with
  | some (.list xs) => (xs.map itemText).filter fun t => t ≠ ""
  | some (.text t) => commaItems t
  | _ => []

end Settings
end RuncardReview
