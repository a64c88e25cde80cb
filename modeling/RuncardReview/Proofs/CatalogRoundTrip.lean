import Mathlib.Tactic.Convert
import RuncardReview.Proofs.CatalogReading

/-!
# The round trip of a catalog

Plain groups have a text, and whatever text is written for them reads back as them.

**Results.**
* `exists_writesValue`, `exists_writesRule`, `exists_writesGroups`: there is a text.
* `read_written`: every text of plain groups reads as the groups.
-/

namespace RuncardReview

theorem Sequence.exists_of_forall {α : Type} {item : α → List Char → Prop} {as : List α}
    (each : ∀ a ∈ as, ∃ t, item a t) :
    ∃ ts, Sequence item as ts := by
  induction as with
  | nil => exact ⟨[], .nil⟩
  | cons a as ih =>
      obtain ⟨t, first⟩ := each a List.mem_cons_self
      obtain ⟨ts, others⟩ := ih fun b hb => each b (List.mem_cons_of_mem a hb)
      exact ⟨t ++ ts, .cons first others⟩

theorem Separated.exists_of_forall {α : Type} {separator : List Char → Prop}
    {item : α → List Char → Prop} {s : List Char} (between : separator s) {as : List α}
    (some : as ≠ []) (each : ∀ a ∈ as, ∃ t, item a t) :
    ∃ ts, Separated separator item as ts := by
  induction as with
  | nil => exact absurd rfl some
  | cons a as ih =>
      obtain ⟨t, first⟩ := each a List.mem_cons_self
      cases as with
      | nil => exact ⟨t, .one first⟩
      | cons b as =>
          obtain ⟨ts, others⟩ := ih (by simp) fun c hc => each c (List.mem_cons_of_mem a hc)
          exact ⟨t ++ (s ++ ts), .cons first between others⟩

namespace CatalogText

open Text Number

theorem digits_natText (n : Nat) :
    digits (natText n) = n := by
  show Nat.ofDigitChars 10 (Nat.toDigits 10 n) 0 = n
  exact Nat.ofDigitChars_ten_toDigits

theorem isDigits_natText (n : Nat) :
    IsDigits (natText n) := by
  refine ⟨Nat.toDigits_ne_nil, fun c hc => ?_⟩
  have digit : c.isDigit = true := Nat.isDigit_of_mem_toDigits (by decide) (by decide) hc
  simpa [isDigit, Char.isDigit, Char.le_def] using digit

/-- Every 64-bit integer is read from its decimal digits. -/
theorem exists_integerText (n : Int64) :
    ∃ t, IntegerText t ∧ readInt64 t = some n := by
  have some := isDigits_natText n.toInt.natAbs
  have back : signed (decide (n.toInt < 0)) n.toInt.natAbs = n.toInt := by
    rcases Int.lt_or_le n.toInt 0 with below | above
    · rw [signed, if_pos (decide_eq_true below)]
      omega
    · rw [signed, if_neg (by simpa using above)]
      omega
  have range : smallest ≤ n.toInt ∧ n.toInt ≤ largest := ⟨n.minValue_le_toInt, n.toInt_le⟩
  refine ⟨_, .mk (decide (n.toInt < 0)) some, ?_⟩
  rw [readInt64_integer some, digits_natText, back, int64?, if_pos range, Int64.ofInt_toInt]

theorem exists_writesValue {v : Value} (plain : PlainValue v) :
    ∃ t, WritesValue v t := by
  have bare : ∀ {v t}, WritesLiteral v t → ∃ t, WritesValue v t := fun h => ⟨_, .literal .nil h⟩
  induction plain with
  | int n =>
      obtain ⟨t, text, reads⟩ := exists_integerText n
      exact bare (.int text reads)
  | float text reads => exact bare (.float text reads)
  | bool b =>
      cases b with
      | true => exact bare .true
      | false => exact bare .false
  | @text s _ => exact bare (.text s)
  | @list vs _ ih =>
      by_cases none : vs = []
      · subst none
        exact ⟨_, .empty .nil .nil⟩
      · have comma : ListCommaText [','] := ⟨[], .nil, rfl⟩
        obtain ⟨t, items⟩ := Separated.exists_of_forall comma none ih
        exact ⟨_, .list .nil items .nil⟩

theorem newLine :
    Gap ['\n'] :=
  gap_of_spaces (by decide)

theorem tight :
    Blanks [] := by
  decide

theorem single :
    Blanks [' '] := by
  decide

theorem exists_writesSettings {given : Option Settings}
    (plain : ∀ s, given = some s → ∀ e ∈ s.toList, IsName e.1 ∧ PlainValue e.2) :
    ∃ t, WritesSettings given t := by
  cases given with
  | none => exact ⟨[], .absent⟩
  | some s =>
      have each : ∀ e ∈ s.toList, ∃ t, WritesSetting e t := by
        intro e he
        obtain ⟨t, value⟩ := exists_writesValue (plain s rfl e he).2
        exact ⟨_, .mk newLine tight value⟩
      obtain ⟨t, items⟩ := Sequence.exists_of_forall each
      exact ⟨_, .given tight (List.Perm.refl _) items⟩

theorem exists_writesLots (lots : List String) :
    ∃ t, WritesLots lots t := by
  by_cases none : lots = []
  · subst none
    exact ⟨[], .none (by simp)⟩
  · have noBlank : ∀ c ∈ [], isBlank c = true := by simp
    have each : ∀ lot ∈ lots, ∃ t, WritesLot lot t := fun lot _ => ⟨_, .mk noBlank noBlank⟩
    have comma : LotCommaText [','] := rfl
    obtain ⟨t, items⟩ := Separated.exists_of_forall comma none each
    exact ⟨t, .some items⟩

/-- On a line of its own. -/
theorem exists_writesRule {r : Rule} (plain : PlainRule r) :
    ∃ t, WritesRule r t ∧ ∀ rest, SpaceNext (t ++ rest) := by
  obtain ⟨lots, lotText⟩ := exists_writesLots r.lotTypes
  obtain ⟨given, settingText⟩ := exists_writesSettings plain.settings
  refine ⟨_, .mk newLine single (by simp) tight lotText settingText, fun rest => ?_⟩
  simp [SpaceNext, isSpaceChar]

theorem exists_writesRules {rules : List Rule} (plain : ∀ r ∈ rules, PlainRule r) :
    ∃ t, Sequence WritesRule rules t ∧ ∀ rest, SpaceNext rest → SpaceNext (t ++ rest) := by
  induction rules with
  | nil => exact ⟨[], .nil, fun rest space => space⟩
  | cons r rules ih =>
      obtain ⟨t, first, space⟩ := exists_writesRule (plain r List.mem_cons_self)
      obtain ⟨ts, others, _⟩ := ih fun q hq => plain q (List.mem_cons_of_mem r hq)
      refine ⟨t ++ ts, .cons first others, fun rest _ => ?_⟩
      rw [List.append_assoc]
      exact space (ts ++ rest)

theorem exists_writesTool (tool : Tool) :
    ∃ t, WritesTool tool t := by
  obtain ⟨id, chamber⟩ := tool
  by_cases all : chamber = ""
  · subst all
    exact ⟨_, .bare id⟩
  · exact ⟨_, .marked (.one all)⟩

theorem exists_writesTools (tools : List Tool) :
    ∃ t, WritesTools tools t := by
  by_cases none : tools = []
  · subst none
    exact ⟨[], .absent⟩
  · have comma : ToolCommaText [','] := ⟨[], [], tight, tight, rfl⟩
    obtain ⟨t, items⟩ := Separated.exists_of_forall comma none fun tool _ =>
      exists_writesTool tool
    exact ⟨_, .line newLine tight tight items⟩

theorem exists_writesGroups {groups : List Group} (plain : ∀ g ∈ groups, PlainGroup g) :
    ∃ t, WritesGroups groups t ∧ SpaceNext t := by
  induction groups with
  | nil => exact ⟨[], .nil .nil, by simp [SpaceNext]⟩
  | cons g groups ih =>
      obtain ⟨rest, others, space⟩ := ih fun h hh => plain h (List.mem_cons_of_mem g hh)
      obtain ⟨rules, ruleText, spaceNext⟩ := exists_writesRules (plain g List.mem_cons_self).rules
      obtain ⟨tools, toolText⟩ := exists_writesTools g.tools
      refine ⟨_, .cons newLine single (by simp) tight toolText ruleText others
        fun _ => spaceNext rest space, ?_⟩
      simp [SpaceNext, isSpaceChar]

/-- Plain groups can be written, and every text that is written for them reads as them. -/
theorem read_written (groups : List Group) (plain : ∀ g ∈ groups, PlainGroup g) :
    (∃ text : String, WritesGroups groups text.toList) ∧
      ∀ text : String, WritesGroups groups text.toList → read text = .ok groups := by
  obtain ⟨t, written, _⟩ := exists_writesGroups plain
  exact ⟨⟨String.ofList t, by rwa [String.toList_ofList]⟩, fun text => read_of_writes plain⟩

/-- A setting has the name of a keyword, a rule that of the other, and a mark stands in
a tool, in a comment and in a text. -/
theorem read_written_of_keywords :
    let owners : Value := .list [.text "#"]
    let settings : Settings := ⟨[("rule", owners)], List.pairwise_singleton _ _⟩
    let groups : List Group :=
      [⟨"E-1", [⟨"T1", "E"⟩], [⟨"group", ["C/W"], some settings⟩]⟩]
    let text := "group E-1:\n tools: T1#E #all\n rule group [ C/W]:\r rule = [\"#\" ]\n"
    (∀ g ∈ groups, PlainGroup g) ∧ WritesGroups groups text.toList ∧ read text = .ok groups := by
  intro owners settings groups text
  have plainRule : PlainRule ⟨"group", ["C/W"], some settings⟩ := by
    have plainLot : PlainLot "C/W" := ⟨by decide, by decide, by simp⟩
    have plainOwners : PlainValue owners :=
      .list (List.forall_mem_singleton.mpr (.text (by simp)))
    refine ⟨isName_keyword (by simp), by decide, List.forall_mem_singleton.mpr plainLot, ?_⟩
    rintro s ⟨⟩
    exact List.forall_mem_singleton.mpr ⟨isName_keyword (by simp), plainOwners⟩
  have plainTool : PlainTool ⟨"T1", "E"⟩ :=
    ⟨by decide, by simp [isBlank, inRanges, blankRanges], by simp [isBlank, inRanges, blankRanges],
      by decide⟩
  have plain : ∀ g ∈ groups, PlainGroup g :=
    List.forall_mem_singleton.mpr ⟨by decide, List.all_eq_true.mp (by decide), by decide,
      List.forall_mem_singleton.mpr plainTool, List.forall_mem_singleton.mpr plainRule⟩
  have space : Gap [' '] := gap_of_spaces (by decide)
  have tool : WritesTool ⟨"T1", "E"⟩ ("T1".toList ++ '#' :: "E".toList) :=
    .marked (.one (by decide))
  have tools : WritesTools [⟨"T1", "E"⟩] "\n tools: T1#E".toList :=
    .line (gap_of_spaces (g := "\n ".toList) (by decide)) tight single (.one tool)
  have value : WritesValue owners " [\"#\" ]".toList :=
    .list space (.one (.literal .nil (.text _))) space
  have setting : WritesSetting ("rule", owners) "\r rule = [\"#\" ]".toList :=
    .mk (gap_of_spaces (g := "\r ".toList) (by decide)) single value
  have given : WritesSettings (some settings) ":\r rule = [\"#\" ]".toList :=
    .given tight (List.Perm.refl _) (.cons setting .nil)
  have lot : WritesLot "C/W" ([' '] ++ ("C/W".toList ++ [])) :=
    .mk (List.all_eq_true.mp rfl) (List.all_eq_true.mp rfl)
  have line : Gap (' ' :: '#' :: ("all".toList ++ ['\n', ' '])) :=
    .space rfl (.comment (by simp) space)
  have rule := WritesRule.mk (r := ⟨"group", ["C/W"], some settings⟩) line single (by decide)
    single (.some (.one lot)) given
  have all : WritesGroups groups _ :=
    .cons .nil single (by decide) tight tools (.cons rule .nil) (.nil newLine) fun _ c hc => by
      obtain rfl := Option.some.inj hc
      rfl
  have written : WritesGroups groups text.toList := by
    convert all using 1
    decide
  exact ⟨plain, written, (read_written groups plain).2 text written⟩

end CatalogText
end RuncardReview
