import Mathlib.Data.List.TakeWhile
import RuncardReview.Proofs.CatalogAcceptance
import RuncardReview.Proofs.CatalogCarried
import RuncardReview.Proofs.ScanFront

/-!
# What is read from a catalog text

Each scanner of the grammar lets only certain characters into what it finds, and what is
built from its findings keeps to that: a list holds values that were found themselves, and
tools and lot types are collected without repeats.  A group that is read has therefore the
form of a group that can be written, with one exception: a tool may lack its id.

**Results.**
* `gap_front`: what a gap passes over is layout.
* `toolOf_split`, `toolsLine_reads`: the words of a tools line, and the two parts of each.
* `valueWithin_reads`: values, by induction on the depth to which lists may nest.
* `rule_reads`, `group_reads`: rules and groups, with the texts they are read from.
* `read_wellFormed`: the groups of every text that is read.
-/

namespace RuncardReview

namespace CatalogText

open Text Number Scanner

/-! ## Layout -/

/-- A line ends with the text, or with a line feed, or it does not end here. -/
theorem atLineEnd_cases (s : List Char) :
    s = [] ∨ (∃ t, s = '\n' :: t) ∨ (∃ t, s = '\r' :: '\n' :: t) ∨ atLineEnd s = .absent := by
  unfold atLineEnd
  split
  · exact Or.inl rfl
  · exact Or.inr (Or.inl ⟨_, rfl⟩)
  · exact Or.inr (Or.inr (Or.inl ⟨_, rfl⟩))
  · exact Or.inr (Or.inr (Or.inr rfl))

/-- What a gap passes over is layout.  Only at the end of the text a comment may be open. -/
theorem gap_front : ∀ {s r : List Char}, gap s = .found () r →
    ∃ g, s = g ++ r ∧ (r ≠ [] → Gap g)
  | [], r, found => by
      rw [gap_solid solid_nil] at found
      cases found
      exact ⟨[], rfl, fun _ => .nil⟩
  | c :: s, r, found => by
      by_cases space : isSpaceChar c = true
      · rw [gap_space space] at found
        obtain ⟨g, rfl, layout⟩ := gap_front found
        exact ⟨c :: g, rfl, fun some => .space space (layout some)⟩
      by_cases mark : c = '#'
      · subst mark
        obtain ⟨body, rest, split, run, stop⟩ := exists_run (fun c => c ≠ '\n' && c ≠ '\r') s
        have shorter : rest.length ≤ s.length := by simp [split]
        have line : ∀ c ∈ body, c ≠ '\n' ∧ c ≠ '\r' := fun c hc => by simpa using run c hc
        rw [split] at found
        rcases atLineEnd_cases rest with rfl | ⟨t, rfl⟩ | ⟨t, rfl⟩ | broken
        · rw [gap_comment line stop rfl, gap_solid solid_nil] at found
          cases found
          exact ⟨'#' :: s, by simp, fun some => absurd rfl some⟩
        · rw [gap_comment line stop rfl, gap_space rfl] at found
          obtain ⟨g, rfl, layout⟩ := gap_front found
          exact ⟨'#' :: (body ++ '\n' :: g), by simp [split],
            fun some => .comment line (layout some)⟩
        · rw [gap_comment line stop rfl, gap_space rfl, gap_space rfl] at found
          obtain ⟨g, rfl, layout⟩ := gap_front found
          exact ⟨'#' :: (body ++ '\r' :: '\n' :: g), by simp [split],
            fun some => .commentReturn line (layout some)⟩
        · -- A lone carriage return ends neither the comment nor the line: the gap stops before all.
          rw [gap_of_absent ((gapPiece_comment line stop).trans broken)] at found
          cases found
          exact ⟨[], by simp [split], fun _ => .nil⟩
      · rw [gap_solid (solid_cons.mpr ⟨by simpa using space, mark⟩)] at found
        cases found
        exact ⟨[], rfl, fun _ => .nil⟩
termination_by s => s.length
decreasing_by
  all_goals
    simp only [List.length_cons] at *
    omega

theorem gap_reads :
    Reads gap fun _ _ => True := by
  intro s _ rest found
  obtain ⟨g, split, -⟩ := gap_front found
  exact ⟨g, split, trivial⟩

/-- The gap before a keyword is layout, since the text does not end with it. -/
theorem keyword_reads {α : Type} {p : Scanner α} {R : α → List Char → Prop} {w : List Char}
    (some : w ≠ []) (reads : Reads p R) :
    Reads (do gap; word w; p) fun a t => ∃ g u, Gap g ∧ R a u ∧ t = g ++ (w ++ u) := by
  intro s a rest found
  obtain ⟨_, middle, gapped, keyed⟩ := bind_eq_found.mp found
  obtain ⟨_, behind, keyword, there⟩ := bind_eq_found.mp keyed
  obtain ⟨g, rfl, layout⟩ := gap_front gapped
  obtain rfl := word_eq_found.mp keyword
  obtain ⟨u, rfl, form⟩ := reads behind a rest there
  exact ⟨g ++ (w ++ u), by simp, g, u, layout (by simp [some]), form, rfl⟩

theorem lineBlanks_reads :
    Reads lineBlanks fun _ => Blanks :=
  (Reads.span isLineBlank).bind fun w _ ⟨same, blank⟩ => .pure <| by
    rw [same, List.append_nil]
    exact blank

/-! ## Tools -/

/-- What can be read as a tool: without blanks and commas, the id also without the mark before
the chamber, and the chamber not the one that stands for all. -/
structure WellFormedTool (t : Tool) : Prop where
  id : ∀ c ∈ t.id.toList, isBlank c = false ∧ c ≠ ',' ∧ c ≠ '#'
  chamber : ∀ c ∈ t.chamber.toList, isBlank c = false ∧ c ≠ ','
  narrow : t.chamber ≠ "%%"

/-- The id goes up to the first mark.  What is behind it is the chamber, unless that stands
for all. -/
theorem toolOf_split (w : List Char) :
    ∃ chamber, toolOf w =
        ⟨String.ofList (w.takeWhile fun c => c ≠ '#'), String.ofList chamber⟩ ∧
      chamber <:+ w ∧ String.ofList chamber ≠ Recipe.wildcard := by
  by_cases mark : '#' ∈ w
  · obtain ⟨id, chamber, rfl, fresh⟩ := List.eq_append_cons_of_mem mark
    have plain : ∀ c ∈ id, c ≠ '#' := fun c hc same => fresh (same ▸ hc)
    have front : (id ++ '#' :: chamber).takeWhile (fun c => c ≠ '#') = id :=
      takeWhile_of_stops (by simpa using plain) (stops_cons.mpr (by decide))
    rw [toolOf, cutAt_found plain, front]
    dsimp only
    split
    · exact ⟨[], rfl, List.nil_suffix, by decide⟩
    · rename_i narrow
      refine ⟨chamber, rfl, ⟨id ++ ['#'], by simp⟩, fun wild => narrow ?_⟩
      simp [wild]
  · have plain : ∀ c ∈ w, c ≠ '#' := fun c hc same => mark (same ▸ hc)
    have front : w.takeWhile (fun c => c ≠ '#') = w :=
      List.takeWhile_eq_self_iff.mpr (by simpa using plain)
    rw [toolOf, cutAt_none plain, front]
    exact ⟨[], rfl, List.nil_suffix, by decide⟩

theorem toolOf_wellFormed {w : List Char} (chars : ∀ c ∈ w, isToolChar c = true) :
    WellFormedTool (toolOf w) := by
  have plain : ∀ c ∈ w, isBlank c = false ∧ c ≠ ',' := by
    intro c hc
    simpa [isToolChar] using chars c hc
  obtain ⟨chamber, tool, back, narrow⟩ := toolOf_split w
  rw [tool]
  refine ⟨fun c hc => ?_, fun c hc => ?_, narrow⟩
  · rw [String.toList_ofList] at hc
    obtain ⟨blank, comma⟩ := plain c (List.takeWhile_subset _ hc)
    exact ⟨blank, comma, by simpa using List.mem_takeWhile_imp hc⟩
  · rw [String.toList_ofList] at hc
    exact plain c (back.subset hc)

/-- A word that stands for a tool is all that is between blanks and commas. -/
def ToolWord (w t : List Char) : Prop :=
  t = w ∧ w ≠ [] ∧ ∀ c ∈ w, isToolChar c = true

theorem tool_reads :
    Reads tool fun tool t => ∃ w, toolOf w = tool ∧ ToolWord w t :=
  (Reads.span1 isToolChar).bind fun w t word => .pure ⟨w, rfl, (List.append_nil t).symm ▸ word⟩

theorem toolComma_reads :
    Reads toolComma fun _ => ToolCommaText := by
  refine lineBlanks_reads.bind fun _ b blanks => (Reads.char ',').bind fun _ _ comma =>
    lineBlanks_reads.imp fun _ b' blanks' => ⟨b, b', blanks, blanks', ?_⟩
  rw [comma]
  rfl

/-- The line that lists these words. -/
inductive ToolsLine : List (List Char) → List Char → Prop
  | mk {words : List (List Char)} {g b b' t : List Char} : Gap g → Blanks b → Blanks b' →
      Separated ToolCommaText ToolWord words t →
      ToolsLine words (g ++ ("tools".toList ++ (b ++ ':' :: (b' ++ t))))

theorem ToolsLine.toolWords {words : List (List Char)} {t : List Char}
    (listed : ToolsLine words t) :
    ∀ w ∈ words, w ≠ [] ∧ ∀ c ∈ w, isToolChar c = true := by
  cases listed with
  | mk _ _ _ written => exact written.forall_mem fun _ _ ⟨_, word⟩ => word

theorem toolsLine_reads :
    Reads toolsLine fun tools t => ∃ words, words.map toolOf = tools ∧ ToolsLine words t := by
  have line : Reads toolsLine fun tools t => ∃ g u, Gap g ∧ (∃ b b' ts, Blanks b ∧ Blanks b' ∧
      u = b ++ ':' :: (b' ++ ts) ∧ Separated ToolCommaText
        (fun tool t => ∃ w, toolOf w = tool ∧ ToolWord w t) tools ts) ∧
      t = g ++ ("tools".toList ++ u) :=
    keyword_reads (by decide) <| lineBlanks_reads.bind fun _ b blanks =>
      (Reads.char ':').bind fun _ _ colon => lineBlanks_reads.bind fun _ b' blanks' =>
        ((tool_reads.separated1 toolComma_reads).require.expecting _).imp fun _ ts words =>
          ⟨b, b', ts, blanks, blanks', by rw [colon]; rfl, words⟩
  refine line.imp ?_
  rintro tools _ ⟨g, _, layout, ⟨b, b', ts, blanks, blanks', rfl, listed⟩, rfl⟩
  obtain ⟨words, tools, listed⟩ := listed.exists_map
  exact ⟨words, tools, .mk layout blanks blanks' listed⟩

/-! ## Values -/

theorem quoted_reads :
    Reads quoted fun s _ => ∀ c ∈ s.toList, c ≠ '"' ∧ c ≠ '\n' :=
  (Reads.char '"').then fun _ => (Reads.span _).bind fun _ _ ⟨_, inside⟩ =>
    ((Reads.char '"').require.expecting _).then fun _ => .pure <| by
      simpa using inside

theorem digits_reads :
    Reads (span1 isDigit) fun ds _ => IsDigits ds :=
  (Reads.span1 isDigit).imp fun _ _ ⟨_, digits⟩ => digits

theorem decimals_reads :
    Reads decimals fun ds _ => IsDigits ds :=
  (Reads.char '.').then fun _ => digits_reads

theorem number_reads :
    Reads number fun v _ => PlainValue v := by
  refine (Reads.char '-').opt.then fun sign => digits_reads.bind fun whole _ front =>
    decimals_reads.opt.bind fun fraction _ back => ?_
  cases fraction with
  | some ds => exact .pure (.float (.mk sign.isSome front back) (readFloat_decimal front back))
  | none =>
      dsimp only
      cases int64? (signed sign.isSome (digits whole)) with
      | some n => exact .pure (.int n)
      | none => exact nofun

theorem listComma_reads :
    Reads listComma fun _ _ => True :=
  gap_reads.then fun _ => (Reads.char ',').imp fun _ _ _ => trivial

theorem bracketed_reads {item : Scanner Value} (items : Reads item fun v _ => PlainValue v) :
    Reads (bracketed item) fun v _ => PlainValue v :=
  (Reads.char '[').then fun _ => (items.each_separated listComma_reads).bind fun _ _ plain =>
    gap_reads.then fun _ => (Reads.char ']').require.then fun _ => .pure (.list plain)

/-- Whatever the depth, a list holds values that were found one level further in. -/
theorem valueWithin_reads (depth : Nat) :
    Reads (valueWithin depth) fun v _ => PlainValue v := by
  induction depth with
  | zero => exact nofun
  | succ depth ih =>
      refine gap_reads.then fun _ => .expecting _ ?_
      exact (quoted_reads.map fun _ => .text).orElse <| (bracketed_reads ih).orElse <|
        ((Reads.word _).then fun _ => .pure (.bool true)).orElse <|
          ((Reads.word _).then fun _ => .pure (.bool false)).orElse number_reads

theorem requiredValue_reads :
    Reads requiredValue fun v _ => PlainValue v :=
  fun s v rest found =>
    valueWithin_reads (s.length + 1) s v rest (requiredValue_eq_found.mp found)

/-! ## Rules -/

theorem name_reads :
    Reads name fun n _ => IsName n := by
  refine (Reads.span1 isNameStart).bind fun front _ ⟨_, any, start⟩ =>
    (Reads.span isNameChar).bind fun back _ ⟨_, chars⟩ => .pure ?_
  obtain ⟨c, cs, rfl⟩ := List.exists_cons_of_ne_nil any
  refine ⟨c, cs ++ back, by simp, start c List.mem_cons_self, fun d hd => ?_⟩
  rcases List.mem_append.mp hd with hd | hd
  · exact isNameChar_of_isNameStart d (start d (List.mem_cons_of_mem c hd))
  · exact chars d hd

theorem setting_reads :
    Reads setting fun e _ => IsName e.1 ∧ PlainValue e.2 :=
  gap_reads.then fun _ => name_reads.bind fun _ _ named => lineBlanks_reads.then fun _ =>
    (Reads.char '=').then fun _ => requiredValue_reads.bind fun _ _ plain => .pure ⟨named, plain⟩

theorem settings_reads :
    Reads settings fun given _ => ∀ s, given = some s →
      ∀ e ∈ s.toList, IsName e.1 ∧ PlainValue e.2 := by
  have colon : Reads settingsColon fun _ _ => True :=
    lineBlanks_reads.then fun _ => (Reads.char ':').imp fun _ _ _ => trivial
  refine colon.opt.then fun opened => ?_
  cases opened with
  | none => exact .pure nofun
  | some _ =>
      refine setting_reads.each_many.bind fun entries _ plain => .pure ?_
      rintro _ ⟨⟩ e he
      exact plain e (Entries.mem_of_mem_ofList he)

theorem lotTypes_reads :
    Reads lotTypes fun lots _ => ∀ lot ∈ lots, PlainLot lot := by
  have items : Reads (span1 isLotChar) fun piece _ => ∀ c ∈ piece, isLotChar c = true :=
    (Reads.span1 isLotChar).imp fun _ _ ⟨_, _, chars⟩ => chars
  refine (Reads.char '[').then fun _ => (items.each_separated (Reads.char ',')).bind
    fun pieces _ inside => (Reads.char ']').require.then fun _ => .pure fun lot member => ?_
  simp only [List.mem_map, List.mem_filter] at member
  obtain ⟨_, ⟨⟨piece, among, rfl⟩, some⟩, rfl⟩ := member
  obtain ⟨b, b', -, -, split⟩ := trimChars_split piece
  refine ⟨by simpa using some, ?_, fun c hc => ?_⟩
  · rw [trim, String.toList_ofList, trimChars_trimChars]
  · rw [String.toList_ofList] at hc
    have chars := inside piece among
    rw [split] at chars
    simpa [isLotChar] using chars c (by simp [hc])

/-- The text of a rule begins with layout and the keyword. -/
def RuleText (t : List Char) : Prop :=
  ∃ g u, Gap g ∧ t = g ++ ("rule".toList ++ u)

theorem rule_reads :
    Reads rule fun r t => PlainRule r ∧ RuleText t := by
  refine (keyword_reads (R := fun r _ => PlainRule r) (by decide) ?_).imp
    fun _ _ ⟨g, u, layout, plain, split⟩ => ⟨plain, g, u, layout, split⟩
  refine (Reads.span1 isLineBlank).then fun _ =>
    (name_reads.require.expecting _).bind fun ruleType _ named => lineBlanks_reads.then fun _ =>
      (lotTypes_reads.require.expecting _).bind fun lots _ plain =>
        settings_reads.bind fun given _ entries => ?_
  have distinct : (Distinct.firsts lots).Nodup := Distinct.nodup_firsts lots
  have plain' : ∀ lot ∈ Distinct.firsts lots, PlainLot lot := fun lot member =>
    plain lot (Distinct.mem_firsts.mp member)
  cases given with
  | none => exact .pure ⟨named, distinct, plain', nofun⟩
  | some s => exact .pure ⟨named, distinct, plain', entries⟩

/-! ## Groups -/

/-- Not empty, and of the characters of a group name. -/
def IsGroupName (s : String) : Prop :=
  s ≠ "" ∧ ∀ c ∈ s.toList, isGroupChar c = true

/-- What can be read as a group. -/
structure WellFormedGroup (g : Group) : Prop where
  name : IsGroupName g.name
  distinct : g.tools.Nodup
  tools : ∀ t ∈ g.tools, WellFormedTool t
  rules : ∀ r ∈ g.rules, PlainRule r

theorem groupName_reads :
    Reads groupName fun n t => t = n.toList ∧ IsGroupName n :=
  (Reads.span1 isGroupChar).bind fun _ _ ⟨here, any, chars⟩ =>
    .pure ⟨by simp [here], by simpa using any, by simpa using chars⟩

/-- What stands behind the keyword of a group that has its tools from these words. -/
inductive GroupBody (g : Group) (words : List (List Char)) : List Char → Prop
  | mk {b b' line rules : List Char} : Blanks b → b ≠ [] → Blanks b' → ToolsLine words line →
      Sequence (fun _ => RuleText) g.rules rules → g.tools = Distinct.firsts (words.map toolOf) →
      GroupBody g words (b ++ (g.name.toList ++ (b' ++ ':' :: (line ++ rules))))

def GroupText (g : Group) (words : List (List Char)) (t : List Char) : Prop :=
  ∃ lead u, Gap lead ∧ GroupBody g words u ∧ t = lead ++ ("group".toList ++ u)

theorem group_reads :
    Reads group fun g t => WellFormedGroup g ∧ (g.tools ≠ [] → ∃ words, GroupText g words t) := by
  refine (keyword_reads (by decide)
    (R := fun g u => WellFormedGroup g ∧ (g.tools ≠ [] → ∃ words, GroupBody g words u)) ?_).imp
    fun g t ⟨lead, u, layout, ⟨formed, body⟩, split⟩ => ⟨formed, fun some =>
      let ⟨words, listed⟩ := body some; ⟨words, lead, u, layout, listed, split⟩⟩
  refine (Reads.span1 isLineBlank).bind fun _ b ⟨here, wide, blanks⟩ =>
    (groupName_reads.require.expecting _).bind fun label n ⟨name, named⟩ =>
      lineBlanks_reads.bind fun _ b' blanks' => (Reads.char ':').require.bind fun _ _ colon =>
        toolsLine_reads.opt.bind fun tools line listed => rule_reads.many.bind fun rules ts forms =>
          .pure ?_
  have plain : ∀ r ∈ rules, PlainRule r := forms.forall_mem fun _ _ rule => rule.1
  subst here name colon
  -- A group without a tools line has no tools, so there are no words to ask for.
  cases tools with
  | none => exact ⟨⟨named, List.nodup_nil, nofun, plain⟩, fun some => absurd rfl some⟩
  | some tools =>
      obtain ⟨words, rfl, listed⟩ := listed
      refine ⟨⟨named, Distinct.nodup_firsts _, fun t member => ?_, plain⟩, fun _ => ⟨words, ?_⟩⟩
      · obtain ⟨w, among, rfl⟩ := List.mem_map.mp (Distinct.mem_firsts.mp member)
        exact toolOf_wellFormed (listed.toolWords w among).2
      · rw [List.append_nil ts, List.singleton_append]
        exact .mk blanks wide blanks' listed (forms.imp_of_mem fun _ _ _ rule => rule.2) rfl

theorem group_wellFormed :
    Reads group fun g _ => WellFormedGroup g :=
  group_reads.imp fun _ _ here => here.1

theorem read_names {text : String} {gs : List Group} (found : read text = .ok gs) :
    ∀ g ∈ gs, IsGroupName g.name :=
  fun g member => (forall_of_read group_wellFormed found g member).name

/-- The groups of every text that is read are as they could be written, but for tools that have
no id. -/
theorem read_wellFormed (text : String) (gs : List Group) (found : read text = .ok gs) :
    ∀ g ∈ gs, WellFormedGroup g :=
  forall_of_read group_wellFormed found

/-- Tools and lot types repeat, a chamber stands for all, a tool has no id, and a text stands
in a list within a list. -/
theorem read_wellFormed_of_repeats :
    ∃ g, read
        "group E.1:\n tools: T1#E,T1#E,T2#%%,#x\n rule _X [Prod, ,C/W ,Prod]:\n k = [[\"#]\"], 2]" =
          .ok [g] ∧
      WellFormedGroup g ∧ g.tools = [⟨"T1", "E"⟩, ⟨"T2", ""⟩, ⟨"", "x"⟩] ∧
      g.rules.map Rule.lotTypes = [["Prod", "C/W"]] := by
  let k : Value := .list [.list [.text "#]"], .int 2]
  let rule : Rule := ⟨"_X", ["Prod", "C/W"], some (Entries.ofList [("k", k)])⟩
  let g : Group := ⟨"E.1", [⟨"T1", "E"⟩, ⟨"T2", ""⟩, ⟨"", "x"⟩], [rule]⟩
  refine ⟨g, ?found, read_wellFormed _ [g] ?found g (List.mem_singleton_self g), rfl, rfl⟩
  decide +kernel

end CatalogText
end RuncardReview
