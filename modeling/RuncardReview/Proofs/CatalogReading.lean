import RuncardReview.Proofs.RuleReading

/-!
# Written catalogs are read back

A group is found where it is written, by the scanners of its line of tools and of its
rules; the groups follow one another up to the last gap of the text.

**Results.**
* `tool_found`, `toolsLine_found`: tools and their line.
* `many_group_found`: all groups of a written catalog, by induction on the text.
-/

namespace RuncardReview
namespace CatalogText

open Text Number Scanner

variable {t rest : List Char}

/-! ## Tools -/

theorem toolOf_written {tool : Tool} (plain : PlainTool tool) (written : WritesTool tool t) :
    toolOf t = tool := by
  cases written with
  | bare id =>
      have fresh : ∀ c ∈ id.toList, c ≠ '#' := fun c hc => (plain.id c hc).2.2
      simp [toolOf, cutAt_none fresh]
  | @marked id chamber w chamberText =>
      have fresh : ∀ c ∈ id.toList, c ≠ '#' := fun c hc => (plain.id c hc).2.2
      rw [toolOf, cutAt_found fresh]
      cases chamberText with
      | all => simp [Tool.anyChamber]
      | wildcard => simp [Tool.anyChamber]
      | one some =>
          have narrow : chamber ≠ Recipe.wildcard := plain.narrow
          simp [some, narrow]

theorem tool_chars {tool : Tool} (plain : PlainTool tool) (written : WritesTool tool t) :
    ∀ c ∈ t, isToolChar c = true := by
  have front : ∀ c ∈ tool.id.toList, isToolChar c = true := by
    intro c hc
    simp [isToolChar, plain.id c hc]
  cases written with
  | bare id => exact front
  | @marked id chamber w chamberText =>
      have back : ∀ c ∈ w, isToolChar c = true := by
        cases chamberText with
        | all => simp
        | wildcard => exact List.all_eq_true.mp rfl
        | one _ =>
            intro c hc
            simp [isToolChar, plain.chamber c hc]
      intro c hc
      rcases List.mem_append.mp hc with hc | hc
      · exact front c hc
      · rcases List.mem_cons.mp hc with rfl | hc
        · decide
        · exact back c hc

theorem tool_ne_nil {tool : Tool} (plain : PlainTool tool) (written : WritesTool tool t) :
    t ≠ [] := by
  cases written with
  | bare id => simpa [Tool.anyChamber] using plain.some
  | marked _ => simp

theorem tool_found {tool : Tool} (plain : PlainTool tool) (written : WritesTool tool t)
    (stop : Stops isToolChar rest) :
    CatalogText.tool (t ++ rest) = .found tool rest := by
  rw [CatalogText.tool,
    bind_found (span1_found (tool_ne_nil plain written) (tool_chars plain written) stop),
    toolOf_written plain written]
  rfl

theorem isLineBlank_noTool {c : Char} (blank : isLineBlank c = true) :
    isToolChar c = false := by
  simp only [isLineBlank, Bool.or_eq_true, decide_eq_true_eq] at blank
  rcases blank with rfl | rfl <;> decide

theorem tool_start {tool : Tool} (plain : PlainTool tool) (written : WritesTool tool t)
    (rest : List Char) :
    Stops isLineBlank (t ++ rest) := by
  cases t with
  | nil => exact absurd rfl (tool_ne_nil plain written)
  | cons c t =>
      refine stops_cons.mpr (Bool.eq_false_iff.mpr fun blank => ?_)
      have inside := tool_chars plain written c List.mem_cons_self
      rw [isLineBlank_noTool blank] at inside
      cases inside

theorem toolComma_found {s : List Char} {tool : Tool} (comma : ToolCommaText s)
    (plain : PlainTool tool) (written : WritesTool tool t) (rest : List Char) :
    toolComma (s ++ (t ++ rest)) = .found () (t ++ rest) := by
  obtain ⟨b, b', blanks, blanks', rfl⟩ := comma
  rw [List.append_assoc, List.cons_append, toolComma,
    bind_found (lineBlanks_found blanks (stops_cons.mpr rfl)), bind_found (char_found ',' _),
    lineBlanks_found blanks' (tool_start plain written rest)]

theorem toolComma_stops {s : List Char} (comma : ToolCommaText s) (rest : List Char) :
    Stops isToolChar (s ++ rest) := by
  obtain ⟨b, b', blanks, _, rfl⟩ := comma
  cases b with
  | nil => exact stops_cons.mpr (by decide)
  | cons c b => exact stops_cons.mpr (isLineBlank_noTool (blanks c List.mem_cons_self))

theorem SpaceNext.stops (space : SpaceNext rest) :
    Stops isToolChar rest := by
  intro c hc
  have := space c hc
  simp only [isSpaceChar, Bool.or_eq_true, decide_eq_true_eq] at this
  rcases this with (((rfl | rfl) | rfl) | rfl) | rfl <;> decide

/-- The tools of a group are found, in a line of theirs or without one. -/
theorem toolsLine_found {tools : List Tool} (plain : ∀ tool ∈ tools, PlainTool tool)
    (written : WritesTools tools t) (space : tools ≠ [] → SpaceNext rest)
    (next : Next afterRule rest) :
    ∃ line, opt toolsLine (t ++ rest) = .found line rest ∧ line.getD [] = tools := by
  cases written with
  | absent => exact ⟨none, opt_absent next.noTools, rfl⟩
  | @line _ g b b' t gapped blanks blanks' items =>
      obtain ⟨front, u, us, member, first, eq, _⟩ := items.front
      have some : tools ≠ [] := List.ne_nil_of_mem member
      have start : Stops isLineBlank (t ++ rest) := by
        rw [eq, List.append_assoc]
        exact tool_start (plain front member) first (us ++ rest)
      have found : separated1 tool toolComma (t ++ rest) = .found tools rest :=
        separated1_found (Stops isToolChar)
          (fun member item stop => tool_found (plain _ member) item stop)
          (fun member item => tool_ne_nil (plain _ member) item)
          (fun comma member item rest => toolComma_found comma (plain _ member) item rest)
          (fun ⟨b, b', _, _, eq⟩ => by simp [eq])
          (fun comma rest => toolComma_stops comma rest)
          items (space some).stops next.noComma
      have named : IsName "tools" := ⟨'t', ['o', 'o', 'l', 's'], rfl, rfl, List.all_eq_true.mp rfl⟩
      refine ⟨Option.some tools, opt_found ?_, rfl⟩
      simp only [List.append_assoc, List.cons_append]
      rw [toolsLine, bind_found (gap_found gapped (named.solid _)), bind_found (word_found _ _),
        bind_found (lineBlanks_found blanks (stops_cons.mpr rfl)), bind_found (char_found ':' _),
        bind_found (lineBlanks_found blanks' start), expecting_found (require_found found)]

/-! ## Groups -/

theorem isNameStart_isGroupChar {c : Char} (start : isNameStart c = true) :
    isGroupChar c = true := by
  simp only [isNameStart, isGroupChar, Char.isAlphanum, Bool.or_eq_true] at start ⊢
  rcases start with start | start
  · exact Or.inl (Or.inl (Or.inl (Or.inl start)))
  · exact Or.inl (Or.inl (Or.inr start))

theorem rule_next {r : Rule} (plain : PlainRule r) (written : WritesRule r t)
    (rest : List Char) :
    Next afterRule (t ++ rest) := by
  obtain @⟨g, b, b', lots, given, gapped, blanks, wide, _, _, _⟩ := written
  obtain ⟨c, s, eq, start⟩ := plain.type.front (b' ++ '[' :: (lots ++ ']' :: (given ++ rest)))
  have opening : Opening afterRule ("rule".toList ++ (b ++ c :: s)) :=
    .word (by simp) blanks wide (isNameStart_isGroupChar start)
  simp only [List.append_assoc, List.cons_append]
  rw [eq]
  exact ⟨gapped, opening⟩

theorem rules_next {rules : List Rule} {rulesText : List Char} (plain : ∀ r ∈ rules, PlainRule r)
    (written : Sequence WritesRule rules rulesText) (next : Next afterRule rest) :
    Next afterRule (rulesText ++ rest) := by
  cases written with
  | nil => exact next
  | cons first _ =>
      rw [List.append_assoc]
      exact rule_next (plain _ List.mem_cons_self) first _

theorem rule_ne_nil {r : Rule} (written : WritesRule r t) :
    t ≠ [] := by
  obtain ⟨_, _, _, _, _, _⟩ := written
  simp

theorem PlainGroup.front {g : Group} (plain : PlainGroup g) :
    ∃ c cs, g.name.toList = c :: cs ∧ isGroupChar c = true := by
  have some : g.name.toList ≠ [] := by simpa using plain.some
  obtain ⟨c, cs, eq⟩ := List.exists_cons_of_ne_nil some
  exact ⟨c, cs, eq, plain.name c (by simp [eq])⟩

theorem groupName_found {g : Group} (plain : PlainGroup g) {b : List Char} (blanks : Blanks b)
    (rest : List Char) :
    groupName (g.name.toList ++ (b ++ ':' :: rest)) = .found g.name (b ++ ':' :: rest) := by
  have some : g.name.toList ≠ [] := by simpa using plain.some
  have stop : Stops isGroupChar (b ++ ':' :: rest) := by
    cases b with
    | nil => exact stops_cons.mpr rfl
    | cons c b =>
        refine stops_cons.mpr (Bool.eq_false_iff.mpr fun inside => ?_)
        have blank := blanks c List.mem_cons_self
        rw [(isGroupChar_plain inside).1] at blank
        cases blank
  rw [groupName, bind_found (span1_found some plain.name stop), String.ofList_toList]
  rfl

theorem groups_next {groups : List Group} (plain : ∀ g ∈ groups, PlainGroup g)
    (written : WritesGroups groups t) :
    Next afterGroup t := by
  cases written with
  | nil gapped =>
      have last : Opening afterGroup [] := .nil
      simpa using Next.mk gapped last
  | @cons group groups g b b' tools rules rest gapped blanks wide _ _ _ _ _ =>
      obtain ⟨c, cs, eq, first⟩ := (plain group List.mem_cons_self).front
      rw [eq]
      exact ⟨gapped, .word List.mem_cons_self blanks wide first⟩

/-- The group that opens a written catalog is found, up to the next one. -/
theorem group_found {g : Group} {gap b b' tools rules : List Char} (plain : PlainGroup g)
    (gapped : Gap gap) (blanks : Blanks b) (wide : b ≠ []) (blanks' : Blanks b')
    (toolText : WritesTools g.tools tools) (ruleText : Sequence WritesRule g.rules rules)
    (space : g.tools ≠ [] → SpaceNext (rules ++ rest)) (next : Next afterGroup rest) :
    group (gap ++ ("group".toList ++ (b ++ (g.name.toList ++
      (b' ++ ':' :: (tools ++ (rules ++ rest))))))) = .found g rest := by
  obtain ⟨line, found, tools_eq⟩ := toolsLine_found plain.tools toolText space
    (rules_next plain.rules ruleText next.wider)
  have rulesFound : many rule (rules ++ rest) = .found g.rules rest :=
    many_found (Next afterRule)
      (fun member item next => rule_found (plain.rules _ member) item next)
      (fun _ item => rule_ne_nil item)
      (fun member item rest => rule_next (plain.rules _ member) item rest)
      ruleText next.wider next.noRule
  have start : Stops isLineBlank (g.name.toList ++ (b' ++ ':' :: (tools ++ (rules ++ rest)))) := by
    obtain ⟨c, cs, eq, first⟩ := plain.front
    rw [eq]
    exact stops_cons.mpr (isGroupChar_plain first).1
  have distinct : Distinct.addAllNew [] g.tools = g.tools :=
    Distinct.addAllNew_of_nodup (l := []) plain.distinct
  rw [group, bind_found (gap_found gapped ((isName_keyword (by simp)).solid _)),
    bind_found (word_found _ _), bind_found (span1_found wide blanks start),
    bind_found (expecting_found (require_found (groupName_found plain blanks' _))),
    bind_found (lineBlanks_found blanks' (stops_cons.mpr rfl)),
    bind_found (require_found (char_found ':' _)), bind_found found]
  refine (bind_found rulesFound).trans ?_
  rw [tools_eq]
  show Step.found (⟨g.name, Distinct.addAllNew [] g.tools, [] ++ g.rules⟩ : Group) rest = _
  rw [distinct]
  rfl

theorem many_group_found {groups : List Group} (plain : ∀ g ∈ groups, PlainGroup g)
    (written : WritesGroups groups t) :
    ∃ last, many group t = .found groups last ∧ Gap last := by
  induction written with
  | @nil g gapped => exact ⟨g, many_of_absent (noGroup gapped), gapped⟩
  | @cons g groups gap b b' tools rules rest gapped blanks wide blanks' toolText ruleText others
      space ih =>
      have plain' : ∀ g ∈ groups, PlainGroup g := fun g hg => plain g (List.mem_cons_of_mem _ hg)
      obtain ⟨last, found, gapped'⟩ := ih plain'
      have here := group_found (plain g List.mem_cons_self) gapped blanks wide blanks' toolText
        ruleText space (groups_next plain' others)
      refine ⟨last, ?_, gapped'⟩
      rw [many_of_found here (by simp; omega), found]
      rfl

theorem read_of_writes {groups : List Group} (plain : ∀ g ∈ groups, PlainGroup g) {text : String}
    (written : WritesGroups groups text.toList) :
    read text = .ok groups := by
  obtain ⟨last, found, gapped⟩ := many_group_found plain written
  have finish := gap_found gapped solid_nil
  rw [List.append_nil] at finish
  have all : CatalogText.groups text.toList = .found groups [] := by
    rw [CatalogText.groups, bind_found found, bind_found finish]
    rfl
  rw [read, all]

end CatalogText
end RuncardReview
