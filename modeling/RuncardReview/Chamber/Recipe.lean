import RuncardReview.Scan
import RuncardReview.Text.Pieces

/-!
# Chamber brackets in recipe ids

A recipe id may carry brackets that say which chambers a tool must offer:

* `{c}` stands for any chamber, written `%%`;
* `{cEF}` stands for chamber `E` or chamber `F`;
* `{c(PM1;PM2)}` stands for chamber `PM1` or chamber `PM2`.

Each bracket is an or-set; several brackets are demanded together.  The `c` may
be missing, and text outside the brackets, an unclosed brace included, means
nothing here.
-/

namespace RuncardReview
namespace Recipe

open Text Scanner

/-- The chambers of which one bracket asks for any one. -/
abbrev OrSet := List String

def wildcard : String := "%%"

/-- The blanks that may stand around the parts of a bracket. -/
def isSpacing (c : Char) : Bool :=
  c = ' ' || c = '\t' || c = '\r' || c = '\n'

/-- A bracket up to the first closing brace. -/
def bracket : Scanner (List Char) := do
  char '\x7b'
  let content ← span fun c => c ≠ '\x7d'
  char '\x7d'
  return content

/-- A bracket, or one character that means nothing. -/
def piece : Scanner (Option (List Char)) :=
  orElse (some <$> bracket) ((fun _ => none) <$> anyChar)

def bracketContents : Scanner (List (List Char)) := do
  let pieces ← many piece
  return pieces.filterMap id

/-- Chamber names in parentheses, with semicolons between them. -/
def namedChambers : Scanner OrSet := do
  char '('
  let names ← span fun c => c ≠ ')'
  char ')'
  let _ ← span isSpacing
  atEnd
  return items ';' names

/-- Chambers of one letter each, blanks ignored. -/
def letterChambers : Scanner OrSet := do
  let letters ← remainder
  return (letters.filter fun c => !isBlank c).map fun c => String.ofList [c]

/-- The or-set that the content of a bracket stands for. -/
def orSet : Scanner OrSet := do
  let _ ← span isSpacing
  let _ ← opt (char 'c')
  let _ ← span isSpacing
  orElse (do atEnd; return [wildcard]) (orElse namedChambers letterChambers)

/-- The or-sets of all brackets of a recipe id, in order. -/
def orSets (recipe : String) : List OrSet :=
  ((whole? bracketContents recipe.toList).getD []).map fun content =>
    (whole? orSet content).getD []

/-- Whether a chamber satisfies an or-set.  An empty one asks for nothing. -/
def accepts (orSet : OrSet) (chamber : String) : Bool :=
  orSet.isEmpty || orSet.any fun c => c = wildcard || c = chamber

end Recipe
end RuncardReview
