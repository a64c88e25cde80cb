import RuncardReview.Catalog.ParseError
import RuncardReview.Proofs.ScanFound

/-!
# Catalogs as they are written

A catalog can be written in many ways: white space and comments are free between the
items, before settings, values, list commas and closing list brackets, settings may
stand in any order, and a number may have leading zeros.  Here `Writes… x t` says
that `t` is one of the texts for `x`, without a word of how it is read.

Not every list of groups has a text.  The plain ones do: names, tools and lot types
without the characters that end them, texts without quotes and line feeds, and
doubles that some decimal stands for.
-/

namespace RuncardReview
namespace CatalogText

open Text Number

/-! ## Layout -/

/-- White space and comments.  A comment is ended by a line feed, with or without a
carriage return before it. -/
inductive Gap : List Char → Prop
  | nil : Gap []
  | space {c : Char} {g : List Char} : isSpaceChar c = true → Gap g → Gap (c :: g)
  | comment {body g : List Char} : (∀ c ∈ body, c ≠ '\n' ∧ c ≠ '\r') → Gap g →
      Gap ('#' :: (body ++ '\n' :: g))
  | commentReturn {body g : List Char} : (∀ c ∈ body, c ≠ '\n' ∧ c ≠ '\r') → Gap g →
      Gap ('#' :: (body ++ '\r' :: '\n' :: g))

theorem gap_of_spaces {g : List Char} (spaces : g.all isSpaceChar = true) :
    Gap g := by
  induction g with
  | nil => exact .nil
  | cons c g ih =>
      obtain ⟨first, others⟩ := Bool.and_eq_true_iff.mp spaces
      exact .space first (ih others)

/-- Blanks within a line. -/
def Blanks (b : List Char) : Prop :=
  ∀ c ∈ b, isLineBlank c = true

instance (b : List Char) : Decidable (Blanks b) :=
  decidable_of_iff (b.all isLineBlank = true) List.all_eq_true

/-- What may follow a tool: white space or the end of the text.  Any other character
would belong to the tool. -/
def SpaceNext (s : List Char) : Prop :=
  ∀ c ∈ s.head?, isSpaceChar c = true

/-! ## Values -/

/-- One digit or more. -/
def IsDigits (ds : List Char) : Prop :=
  ds ≠ [] ∧ ∀ c ∈ ds, isDigit c = true

/-- The sign of a negative number. -/
def minus (neg : Bool) : List Char :=
  if neg then ['-'] else []

inductive IntegerText : List Char → Prop
  | mk (neg : Bool) {ds : List Char} : IsDigits ds → IntegerText (minus neg ++ ds)

inductive DecimalText : List Char → Prop
  | mk (neg : Bool) {whole fraction : List Char} : IsDigits whole → IsDigits fraction →
      DecimalText (minus neg ++ (whole ++ '.' :: fraction))

/-- A value that is not a list.  The text of a number is one that reads as it. -/
inductive WritesLiteral : Value → List Char → Prop
  | text (s : String) : WritesLiteral (.text s) ('"' :: (s.toList ++ ['"']))
  | int {n : Int64} {t : List Char} : IntegerText t → readInt64 t = some n →
      WritesLiteral (.int n) t
  | float {x : Float} {t : List Char} : DecimalText t → readFloat t = some x →
      WritesLiteral (.float x) t
  | true : WritesLiteral (.bool true) "true".toList
  | false : WritesLiteral (.bool false) "false".toList

/-- The comma between the items of a list. -/
def ListCommaText (s : List Char) : Prop :=
  ∃ g, Gap g ∧ s = g ++ [',']

inductive WritesValue : Value → List Char → Prop
  | literal {g t : List Char} {v : Value} : Gap g → WritesLiteral v t →
      WritesValue v (g ++ t)
  | empty {g e : List Char} : Gap g → Gap e → WritesValue (.list []) (g ++ '[' :: (e ++ [']']))
  | list {g t e : List Char} {vs : List Value} : Gap g →
      Separated ListCommaText WritesValue vs t → Gap e →
      WritesValue (.list vs) (g ++ '[' :: (t ++ (e ++ [']'])))

/-! ## Rules -/

inductive WritesSetting : String × Value → List Char → Prop
  | mk {key : String} {v : Value} {g b t : List Char} : Gap g → Blanks b → WritesValue v t →
      WritesSetting (key, v) (g ++ (key.toList ++ (b ++ '=' :: t)))

/-- No colon without settings, and a colon with them, even if there are none in them. -/
inductive WritesSettings : Option Settings → List Char → Prop
  | absent : WritesSettings none []
  | given {s : Settings} {order : List (String × Value)} {b t : List Char} : Blanks b →
      order.Perm s.toList → Sequence WritesSetting order t →
      WritesSettings (some s) (b ++ ':' :: t)

inductive WritesLot : String → List Char → Prop
  | mk {lot : String} {b b' : List Char} : (∀ c ∈ b, isBlank c = true) →
      (∀ c ∈ b', isBlank c = true) → WritesLot lot (b ++ (lot.toList ++ b'))

def LotCommaText (s : List Char) : Prop :=
  s = [',']

inductive WritesLots : List String → List Char → Prop
  | none {b : List Char} : (∀ c ∈ b, isBlank c = true) → WritesLots [] b
  | some {lots : List String} {t : List Char} : Separated LotCommaText WritesLot lots t →
      WritesLots lots t

inductive WritesRule : Rule → List Char → Prop
  | mk {r : Rule} {g b b' lots settings : List Char} : Gap g → Blanks b → b ≠ [] → Blanks b' →
      WritesLots r.lotTypes lots → WritesSettings r.settings settings →
      WritesRule r (g ++ ("rule".toList ++ (b ++ (r.ruleType.toList ++
        (b' ++ '[' :: (lots ++ ']' :: settings))))))

/-! ## Groups -/

/-- All chambers may be left out after the mark, or named by what stands for all. -/
inductive WritesChamber : String → List Char → Prop
  | all : WritesChamber "" []
  | wildcard : WritesChamber "" Recipe.wildcard.toList
  | one {chamber : String} : chamber ≠ "" → WritesChamber chamber chamber.toList

inductive WritesTool : Tool → List Char → Prop
  | bare (id : String) : WritesTool (Tool.anyChamber id) id.toList
  | marked {id chamber : String} {w : List Char} : WritesChamber chamber w →
      WritesTool ⟨id, chamber⟩ (id.toList ++ '#' :: w)

def ToolCommaText (s : List Char) : Prop :=
  ∃ b b', Blanks b ∧ Blanks b' ∧ s = b ++ ',' :: b'

inductive WritesTools : List Tool → List Char → Prop
  | absent : WritesTools [] []
  | line {tools : List Tool} {g b b' t : List Char} : Gap g → Blanks b → Blanks b' →
      Separated ToolCommaText WritesTool tools t →
      WritesTools tools (g ++ ("tools".toList ++ (b ++ ':' :: (b' ++ t))))

/-- The groups, one after the other, and the end of the text. -/
inductive WritesGroups : List Group → List Char → Prop
  | nil {g : List Char} : Gap g → WritesGroups [] g
  | cons {group : Group} {groups : List Group} {g b b' tools rules rest : List Char} :
      Gap g → Blanks b → b ≠ [] → Blanks b' → WritesTools group.tools tools →
      Sequence WritesRule group.rules rules → WritesGroups groups rest →
      (group.tools ≠ [] → SpaceNext (rules ++ rest)) →
      WritesGroups (group :: groups) (g ++ ("group".toList ++ (b ++ (group.name.toList ++
        (b' ++ ':' :: (tools ++ (rules ++ rest)))))))

/-! ## What can be written -/

/-- A letter or an underscore, then letters, digits and underscores. -/
def IsName (s : String) : Prop :=
  ∃ c cs, s.toList = c :: cs ∧ isNameStart c = true ∧ ∀ d ∈ cs, isNameChar d = true

inductive PlainValue : Value → Prop
  | int (n : Int64) : PlainValue (.int n)
  | float {x : Float} {t : List Char} : DecimalText t → readFloat t = some x →
      PlainValue (.float x)
  | bool (b : Bool) : PlainValue (.bool b)
  | text {s : String} : (∀ c ∈ s.toList, c ≠ '"' ∧ c ≠ '\n') → PlainValue (.text s)
  | list {vs : List Value} : (∀ v ∈ vs, PlainValue v) → PlainValue (.list vs)

/-- Neither empty nor with blanks around it. -/
def PlainLot (lot : String) : Prop :=
  lot ≠ "" ∧ trim lot = lot ∧ ∀ c ∈ lot.toList, c ≠ ',' ∧ c ≠ ']'

structure PlainRule (r : Rule) : Prop where
  type : IsName r.ruleType
  distinct : r.lotTypes.Nodup
  lots : ∀ lot ∈ r.lotTypes, PlainLot lot
  settings : ∀ s, r.settings = some s → ∀ e ∈ s.toList, IsName e.1 ∧ PlainValue e.2

structure PlainTool (t : Tool) : Prop where
  some : t.id ≠ ""
  id : ∀ c ∈ t.id.toList, isBlank c = false ∧ c ≠ ',' ∧ c ≠ '#'
  chamber : ∀ c ∈ t.chamber.toList, isBlank c = false ∧ c ≠ ','
  narrow : t.chamber ≠ Recipe.wildcard

structure PlainGroup (g : Group) : Prop where
  some : g.name ≠ ""
  name : ∀ c ∈ g.name.toList, isGroupChar c = true
  distinct : g.tools.Nodup
  tools : ∀ t ∈ g.tools, PlainTool t
  rules : ∀ r ∈ g.rules, PlainRule r

end CatalogText
end RuncardReview
