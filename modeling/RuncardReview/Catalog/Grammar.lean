import RuncardReview.Chamber.Recipe
import RuncardReview.Group

/-!
# The text form of a catalog

A catalog is a list of groups:

* `group NAME:` opens a group;
* `tools: T1#E, T2` lists its tools, a chamber after `#`;
* `rule TYPE [lot, lot]` adds a rule, and a colon after it opens its settings,
  one `key = value` after the other.

Values are texts in double quotes on one line, integers, decimals, `true`,
`false` and lists of values in brackets.  White space is free between the
items, and a `#` opens a comment up to the end of the line.
-/

namespace RuncardReview
namespace CatalogText

open Text Number Scanner

/-! ## White space and comments -/

def isSpaceChar (c : Char) : Bool :=
  c = ' ' || c = '\t' || c = '\n' || c = '\x0c' || c = '\r'

def isLineBlank (c : Char) : Bool :=
  c = ' ' || c = '\t'

/-- Blanks within a line, which may be missing. -/
def lineBlanks : Scanner Unit := do
  let _ ← span isLineBlank
  return ()

/-- The end of a line, which is not consumed: a line feed, with or without a
carriage return before it, or the end of the text. -/
def atLineEnd : Scanner Unit
  | [] => .found () []
  | '\n' :: s => .found () ('\n' :: s)
  | '\r' :: '\n' :: s => .found () ('\r' :: '\n' :: s)
  | _ :: _ => .absent

/-- A comment: `#` and the rest of the line. -/
def comment : Scanner Unit := do
  char '#'
  let _ ← span fun c => c ≠ '\n' && c ≠ '\r'
  atLineEnd

def gapPiece : Scanner Unit :=
  orElse (do let _ ← span1 isSpaceChar; return ()) comment

/-- White space and comments, which may be missing. -/
def gap : Scanner Unit := do
  let _ ← many gapPiece
  return ()

/-! ## Names -/

def isNameStart (c : Char) : Bool :=
  c.isAlpha || c = '_'

/-- An ASCII letter, a digit or an underscore. -/
def isNameChar (c : Char) : Bool :=
  c.isAlphanum || c = '_'

def name : Scanner String := do
  let front ← span1 isNameStart
  let back ← span isNameChar
  return String.ofList (front ++ back)

def isGroupChar (c : Char) : Bool :=
  c.isAlphanum || c = '_' || c = '-' || c = '.'

def groupName : Scanner String := do
  let cs ← span1 isGroupChar
  return String.ofList cs

/-! ## Values -/

/-- A text in double quotes.  It ends on the line it begins on, and nothing in
it is escaped. -/
def quoted : Scanner String := do
  char '"'
  let cs ← span fun c => c ≠ '"' && c ≠ '\n'
  expecting "closing quote" (require (char '"'))
  return String.ofList cs

def decimals : Scanner (List Char) := do
  char '.'
  span1 isDigit

/-- An integer that must fit into 64 bits, or a decimal. -/
def number : Scanner Value := do
  let sign ← opt (char '-')
  let whole ← span1 isDigit
  let fraction ← opt decimals
  match fraction with
  | some ds =>
      return .float (withSign sign.isSome (ofDecimal (digits (whole ++ ds)) (-(ds.length : Int))))
  | none =>
      match int64? (signed sign.isSome (digits whole)) with
      | some n => return .int n
      | none => fun s => .broken s []

def listComma : Scanner Unit := do
  gap
  char ','

/-- The items of a list in brackets, each found by `item`. -/
def bracketed (item : Scanner Value) : Scanner Value := do
  char '['
  let items ← separated item listComma
  gap
  require (char ']')
  return .list items

/-- A value with lists nested less than `depth` deep. -/
def valueWithin : Nat → Scanner Value
  | 0 => fun _ => .stuck
  | depth + 1 => do
      gap
      expecting "value"
        (orElse (.text <$> quoted)
          (orElse (bracketed (valueWithin depth))
            (orElse ((fun _ => .bool true) <$> word "true".toList)
              (orElse ((fun _ => .bool false) <$> word "false".toList) number))))

/-- A value.  Every level of nesting takes a bracket, so the length of the text
bounds the depth. -/
def value : Scanner Value :=
  fun s => valueWithin (s.length + 1) s

/-- Where a missing value is noticed: after the gap, and after a minus sign,
since that could begin a number. -/
def valuePlace : Scanner Unit := do
  gap
  let _ ← opt (char '-')
  return ()

def requiredValue : Scanner Value :=
  fun s =>
    match value s with
    | .absent => (valuePlace s).andThen fun _ rest => .broken rest ["value"]
    | r => r

/-! ## Tools -/

def isToolChar (c : Char) : Bool :=
  !isBlank c && c ≠ ','

/-- The tool entry that a word stands for.  The chamber follows the first `#`;
none, or the one that stands for all, leaves the entry open. -/
def toolOf (w : List Char) : Tool :=
  match cutAt '#' w with
  | none => Tool.anyChamber (String.ofList w)
  | some (id, chamber) =>
      if chamber.isEmpty || String.ofList chamber = Recipe.wildcard then
        Tool.anyChamber (String.ofList id)
      else ⟨String.ofList id, String.ofList chamber⟩

def tool : Scanner Tool := do
  let w ← span1 isToolChar
  return toolOf w

/-- The comma between tool entries, on the same line. -/
def toolComma : Scanner Unit := do
  lineBlanks
  char ','
  lineBlanks

def toolsLine : Scanner (List Tool) := do
  gap
  word "tools".toList
  lineBlanks
  char ':'
  lineBlanks
  expecting "tool list" (require (separated1 tool toolComma))

/-! ## Rules -/

def lotTypes : Scanner (List String) := do
  char '['
  let pieces ← separated (span1 fun c => c ≠ ',' && c ≠ ']') (char ',')
  require (char ']')
  return ((pieces.map trimChars).filter fun p => !p.isEmpty).map String.ofList

def setting : Scanner (String × Value) := do
  gap
  let key ← name
  lineBlanks
  char '='
  let v ← requiredValue
  return (key, v)

/-- The colon that opens the settings of a rule. -/
def settingsColon : Scanner Unit := do
  lineBlanks
  char ':'

/-- The settings of a rule, if a colon opens them. -/
def settings : Scanner (Option Settings) := do
  let colon ← opt settingsColon
  match colon with
  | none => return none
  | some _ => do
      let entries ← many setting
      return some (Entries.ofList entries)

def rule : Scanner Rule := do
  gap
  word "rule".toList
  let _ ← span1 isLineBlank
  let ruleType ← expecting "rule type" (require name)
  lineBlanks
  let lots ← expecting "lot type list" (require lotTypes)
  let found ← settings
  let r := (Rule.ofType ruleType).addLotTypes lots
  match found with
  | none => return r
  | some s => return r.withSettings s

/-! ## Groups -/

def group : Scanner Group := do
  gap
  word "group".toList
  let _ ← span1 isLineBlank
  let label ← expecting "group name" (require groupName)
  lineBlanks
  require (char ':')
  let tools ← opt toolsLine
  let rules ← many rule
  return ((Group.ofName label).addTools (tools.getD [])).addRules rules

/-- The groups of a catalog, and the white space after the last. -/
def groups : Scanner (List Group) := do
  let gs ← many group
  gap
  return gs

end CatalogText
end RuncardReview
