import Mathlib.Algebra.GroupWithZero.Nat
import Mathlib.Data.List.Forall2
import RuncardReview.Chamber.Expansion
import RuncardReview.Proofs.RecipeBrackets
import RuncardReview.Proofs.TrimmedItems

/-!
# The round trip of a recipe id

A bracket is written for any chamber, for a row of letters, or for names in
parentheses, and texts without an opening brace stand around the brackets.  What the
brackets of a text ask for is unique, so a written recipe id is read as the or-sets that
it was written for.  Its keys are then placed by counting: a bracket takes as many
places as it has chambers, and a chamber as many as there are tools.

**Results.**
* `Brackets.unique`, `StandsFor.unique`: a text has one reading.
* `orSets_exact`: which is found in every recipe id.
* `items_names`: joined names fall apart into the names.
* `getElem?_flatten`: the key of a bracket, a chamber and a tool.
* `written_recipe_expands`: the or-sets and the keys of a written recipe id.
-/

namespace RuncardReview
namespace Recipe

open Text

/-! ## The written form -/

/-- A chamber that can be named in parentheses: some text without blanks around it and
without the characters that end a name. -/
structure PlainName (name : String) : Prop where
  some : name ≠ ""
  trimmed : trim name = name
  chars : ∀ c ∈ name.toList, c ≠ ';' ∧ c ≠ ')' ∧ c ≠ '\x7d'

/-- What is written between the mark of a bracket and its closing brace. -/
inductive WritesChambers : OrSet → List Char → Prop
  | any : WritesChambers ["%%"] []
  | letters {y : List Char} : y ≠ [] → (∀ c ∈ y, isBlank c = false ∧ c ≠ '\x7d') →
      y.head? ≠ some '(' → WritesChambers (y.map fun c => String.ofList [c]) y
  | names {names : List String} : (∀ name ∈ names, PlainName name) →
      WritesChambers names ('(' :: ([';'].intercalate (names.map String.toList) ++ [')']))

/-- Brackets with their marks, and texts around them in which no brace opens. -/
inductive WritesRecipe : List OrSet → List Char → Prop
  | text {a : List Char} : '\x7b' ∉ a → WritesRecipe [] a
  | bracket {set : OrSet} {sets : List OrSet} {a y rest : List Char} : '\x7b' ∉ a →
      WritesChambers set y → WritesRecipe sets rest →
      WritesRecipe (set :: sets) (a ++ '\x7b' :: ('c' :: y ++ '\x7d' :: rest))

/-! ## One reading -/

section Unique

/-- A text is cut at the first mark in one way. -/
theorem cut_unique {mark : Char} {w w' s s' : List Char} (free : mark ∉ w) (free' : mark ∉ w')
    (e : w ++ mark :: s = w' ++ mark :: s') :
    w = w' ∧ s = s' := by
  have fresh : ∀ c ∈ w, c ≠ mark := fun c hc e => free (e ▸ hc)
  have fresh' : ∀ c ∈ w', c ≠ mark := fun c hc e => free' (e ▸ hc)
  have cut := cutAt_found fresh s
  rw [e, cutAt_found fresh' s', Option.some.injEq, Prod.mk.injEq] at cut
  exact ⟨cut.1.symm, cut.2.symm⟩

variable {s y names names' : List Char} {contents contents' : List (List Char)}
variable {set set' : OrSet}

theorem Brackets.unique (first : Brackets s contents) (second : Brackets s contents') :
    contents = contents' := by
  induction first generalizing contents' with
  | none bare =>
      cases second with
      | none => rfl
      | some => exact absurd rfl (bare _ _ _)
  | @some a x b contents before inside _ ih =>
      generalize e : a ++ '\x7b' :: (x ++ '\x7d' :: b) = s at second
      cases second with
      | none bare => exact absurd e.symm (bare _ _ _)
      | some before' inside' rest' =>
          obtain ⟨-, e⟩ := cut_unique before before' e
          obtain ⟨rfl, rfl⟩ := cut_unique inside inside' e
          rw [ih rest']

theorem Named.unique (first : Named names y) (second : Named names' y) :
    names = names' := by
  obtain ⟨inside, _⟩ := first
  generalize e : '(' :: (names ++ ')' :: _) = y at second
  obtain ⟨inside', _⟩ := second
  exact (cut_unique inside inside' (List.cons.inj e).2).1

theorem StandsFor.unique (first : StandsFor y set) (second : StandsFor y set') :
    set = set' := by
  cases first with
  | any =>
      cases second with
      | any => rfl
      | names named => cases named
      | letters some => exact absurd rfl some
  | names named =>
      cases second with
      | any => cases named
      | names named' => rw [named.unique named']
      | letters _ unnamed => exact absurd named (unnamed _)
  | letters some unnamed =>
      cases second with
      | any => exact absurd rfl some
      | names named => exact absurd named (unnamed _)
      | letters => rfl

/-- A recipe id asks for one sequence of or-sets, which is the one that is read. -/
theorem orSets_eq_of_asks {recipe : String} {sets : List OrSet} (asks : Asks recipe sets) :
    orSets recipe = sets := by
  obtain ⟨contents, brackets, stands⟩ := asks
  obtain ⟨contents', brackets', stands'⟩ := asks_orSets recipe
  obtain rfl := brackets.unique brackets'
  have unique : Relator.RightUnique fun content set => StandsFor (unmarked content) set :=
    fun _ _ _ => StandsFor.unique
  exact List.right_unique_forall₂' unique stands' stands

/-- Reading a recipe id never falls back on a default.  It finds the brackets of the text, which
can be told in one way only, and each of them gives the one or-set for which its content stands. -/
theorem orSets_exact (recipe : String) :
    ∃ contents, Scanner.whole? bracketContents recipe.toList = some contents ∧
      Brackets recipe.toList contents ∧
      (∀ others, Brackets recipe.toList others → others = contents) ∧
      List.Forall₂ (fun content set => Scanner.whole? orSet content = some set ∧
        StandsFor (unmarked content) set ∧
        ∀ other, StandsFor (unmarked content) other → other = set) contents (orSets recipe) := by
  obtain ⟨contents, found, brackets, read⟩ := orSets_found recipe
  refine ⟨contents, found, brackets, fun others other => other.unique brackets, ?_⟩
  refine read.imp fun content set ⟨here, stands⟩ => ?_
  exact ⟨here, stands, fun other stands' => stands'.unique stands⟩

example : orSets "\x7bA\x7bcB\x7d-\x7b c (P 1;; Q) \x7d\x7bc" =
    [["A", "\x7b", "c", "B"], ["P 1", "Q"]] := by
  decide +kernel

end Unique

/-! ## Written brackets are read back -/

section Written

variable {set : OrSet} {sets : List OrSet} {y s : List Char}

theorem PlainName.trimChars {name : String} (plain : PlainName name) :
    trimChars name.toList = name.toList := by
  have text : (trim name).toList = Text.trimChars name.toList := String.toList_ofList
  rw [← text, plain.trimmed]

theorem PlainName.item? {name : String} (plain : PlainName name) :
    Text.item? name.toList = Option.some name := by
  simp [Text.item?, plain.trimChars, plain.some]

/-- Names that are joined by semicolons fall apart into the names. -/
theorem items_names {names : List String} (plain : ∀ name ∈ names, PlainName name) :
    items ';' ([';'].intercalate (names.map String.toList)) = names := by
  have free : ∀ l ∈ names.map String.toList, ';' ∉ l := by
    intro l hl h
    obtain ⟨name, member, rfl⟩ := List.mem_map.mp hl
    exact ((plain name member).chars ';' h).1 rfl
  have each : names.filterMap (Text.item? ∘ String.toList) = names.map id :=
    List.filterMap_eq_map_iff_forall_eq_some.mpr fun name member => (plain name member).item?
  rw [items_intercalate free, List.filterMap_map, each, List.map_id]

theorem mem_intercalate {names : List String} {c : Char} :
    c ∈ [';'].intercalate (names.map String.toList) →
      c = ';' ∨ ∃ name ∈ names, c ∈ name.toList := by
  induction names with
  | nil => simp
  | cons name names ih =>
      intro h
      cases names with
      | nil => exact Or.inr ⟨name, List.mem_cons_self, by simpa using h⟩
      | cons next names =>
          rw [List.map_cons, List.map_cons, List.intercalate_cons_cons, List.append_assoc] at h
          rcases List.mem_append.mp h with h | h
          · exact Or.inr ⟨name, List.mem_cons_self, h⟩
          · rcases List.mem_cons.mp h with h | h
            · exact Or.inl h
            · exact (ih h).imp_right fun ⟨other, member, inside⟩ =>
                ⟨other, List.mem_cons_of_mem name member, inside⟩

theorem PlainName.not_mem_intercalate {names : List String} {c : Char}
    (plain : ∀ name ∈ names, PlainName name) (mark : c = ')' ∨ c = '\x7d') :
    c ∉ [';'].intercalate (names.map String.toList) := by
  intro h
  rcases mem_intercalate h with rfl | ⟨name, member, inside⟩
  · revert mark
    decide
  · have chars := (plain name member).chars c inside
    exact mark.elim chars.2.1 chars.2.2

theorem WritesChambers.closed (written : WritesChambers set y) :
    '\x7d' ∉ 'c' :: y := by
  cases written with
  | any => decide
  | letters _ chars _ =>
      intro h
      rcases List.mem_cons.mp h with h | h
      · cases h
      · exact (chars _ h).2 rfl
  | names plain =>
      have free := PlainName.not_mem_intercalate plain (Or.inr rfl)
      simp [free]

theorem isSpacing_isBlank {c : Char} (spacing : isSpacing c = true) :
    isBlank c = true := by
  simp only [isSpacing, Bool.or_eq_true, decide_eq_true_eq] at spacing
  rcases spacing with ((rfl | rfl) | rfl) | rfl <;> decide

/-- Behind the mark nothing is dropped but blanks. -/
theorem unmarked_marked (stop : Stops isSpacing y) :
    unmarked ('c' :: y) = y := by
  have rest := dropWhile_of_stops (w := []) (by simp) stop
  simpa [unmarked, isSpacing] using rest

theorem WritesChambers.standsFor (written : WritesChambers set y) :
    StandsFor (unmarked ('c' :: y)) set := by
  cases written with
  | any =>
      rw [unmarked_marked stops_nil]
      exact .any
  | @letters y some chars front =>
      have stop : Stops isSpacing y := by
        intro c hc
        refine Bool.eq_false_iff.mpr fun spacing => ?_
        have blank := (chars c (List.mem_of_mem_head? hc)).1
        rw [isSpacing_isBlank spacing] at blank
        cases blank
      have unnamed : ∀ names, ¬Named names y := by
        rintro names ⟨_, _⟩
        exact front rfl
      have all : y.filter (fun c => !isBlank c) = y := by
        refine List.filter_eq_self.mpr fun c hc => ?_
        simp [(chars c hc).1]
      rw [unmarked_marked stop]
      simpa only [all] using StandsFor.letters some unnamed
  | names plain =>
      have free := PlainName.not_mem_intercalate plain (Or.inl rfl)
      have named : Named ([';'].intercalate (set.map String.toList)) _ :=
        @Named.mk _ [] free (by simp)
      rw [unmarked_marked (stops_cons.mpr rfl)]
      simpa only [items_names plain] using StandsFor.names named

theorem WritesRecipe.asks {recipe : String} (written : WritesRecipe sets recipe.toList) :
    Asks recipe sets := by
  unfold Asks
  generalize recipe.toList = s at written
  induction written with
  | @text a bare =>
      refine ⟨[], .none fun b x d e => bare ?_, .nil⟩
      rw [e]
      simp
  | @bracket set sets a y rest before chambers _ ih =>
      obtain ⟨contents, brackets, stands⟩ := ih
      exact ⟨('c' :: y) :: contents, .some before chambers.closed brackets,
        .cons chambers.standsFor stands⟩

end Written

end Recipe

/-! ## Keys by their places -/

namespace Expansion

/-- An entry of one of several lists, when the lists stand one after the other. -/
theorem getElem?_flatten {α : Type} {lists : List (List α)} {l : List α} {a : α} {i j : Nat}
    (here : lists[i]? = some l) (there : l[j]? = some a) :
    lists.flatten[((lists.take i).map List.length).sum + j]? = some a := by
  induction lists generalizing i with
  | nil => simp at here
  | cons first lists ih =>
      cases i with
      | zero =>
          obtain rfl : first = l := by simpa using here
          obtain ⟨bound, -⟩ := List.getElem?_eq_some_iff.mp there
          simpa [List.getElem?_append_left bound] using there
      | succ i =>
          have later := ih (i := i) (by simpa using here)
          rw [List.flatten_cons, List.take_succ_cons, List.map_cons, List.sum_cons,
            Nat.add_assoc, List.getElem?_append_right (Nat.le_add_right _ _),
            Nat.add_sub_cancel_left, later]

theorem getElem?_keys {chambers tools : List String} {chamber tool : String} {p k : Nat}
    (here : chambers[p]? = some chamber) (there : tools[k]? = some tool) :
    (chambers.flatMap fun c => tools.map fun t => key t c)[p * tools.length + k]? =
      some (key tool chamber) := by
  obtain ⟨bound, -⟩ := List.getElem?_eq_some_iff.mp here
  have place : (((chambers.map fun c => tools.map fun t => key t c).take p).map
      List.length).sum = p * tools.length := by
    rw [← List.map_take, List.map_map]
    simp [Function.comp_def, Nat.min_eq_left (Nat.le_of_lt bound)]
  rw [← place, List.flatMap_def]
  exact getElem?_flatten (l := tools.map fun t => key t chamber) (by simp [here])
    (by simp [there])

variable {e : Expansion}

/-- Chamber by chamber, through all brackets. -/
theorem flatten_eq_flatMap (some : e.orSets ≠ []) (tools : List String) :
    e.flatten tools = e.orSets.flatten.flatMap fun c => tools.map fun t => key t c := by
  rw [List.flatten_eq_flatMap, List.flatMap_assoc]
  simp [flatten, isUnconstrained, some]

theorem length_flatten (some : e.orSets ≠ []) (tools : List String) :
    (e.flatten tools).length = tools.length * (e.orSets.map List.length).sum := by
  rw [flatten_eq_flatMap some, List.length_flatMap, ← List.length_flatten]
  simp only [List.length_map, List.map_const', List.sum_replicate_nat, Nat.mul_comm]

end Expansion

/-- A written recipe id is read as the or-sets it was written for.  Its keys stand bracket
by bracket, chamber by chamber and tool by tool; without a bracket the tools stay as they
are. -/
theorem written_recipe_expands (sets : List Recipe.OrSet) (recipe : String)
    (written : Recipe.WritesRecipe sets recipe.toList) (tools : List String) :
    let e := Expansion.ofRecipe recipe
    e.orSets = sets ∧
      (sets = [] → e.flatten tools = tools) ∧
      (sets ≠ [] →
        (e.flatten tools).length = tools.length * (sets.map List.length).sum ∧
        ∀ i j k set chamber tool,
          sets[i]? = some set → set[j]? = some chamber → tools[k]? = some tool →
            (e.flatten tools)[(((sets.take i).map List.length).sum + j) * tools.length + k]? =
              some (tool ++ "#" ++ chamber)) := by
  intro e
  obtain rfl : e.orSets = sets := Recipe.orSets_eq_of_asks written.asks
  refine ⟨rfl, fun none => Expansion.flatten_eq_self none tools, fun any => ⟨?_, ?_⟩⟩
  · exact Expansion.length_flatten any tools
  · intro i j k set chamber tool here there last
    rw [Expansion.flatten_eq_flatMap any]
    exact Expansion.getElem?_keys (Expansion.getElem?_flatten here there) last

/-- Marks stand among the letters, in a name and in the text before the first bracket, and
one bracket lists no names. -/
theorem written_recipe_of_stray_marks :
    let sets : List Recipe.OrSet := [["E", "F"], ["%%"], ["P M", "Q#\x7b"], [], ["c", "("]]
    let recipe := "R\x7dc\x7bcEF\x7d-\x7bc\x7d\x7bc(P M;Q#\x7b)\x7d\x7bc()\x7d\x7bcc(\x7d"
    let e := Expansion.ofRecipe recipe
    Recipe.WritesRecipe sets recipe.toList ∧ e.orSets = sets ∧ sets ≠ [] ∧
      (e.flatten ["T1", "T2"]).length = 14 ∧
      (e.flatten ["T1", "T2"])[9]? = some "T2#Q#\x7b" := by
  intro sets recipe e
  have letters := Recipe.WritesChambers.letters (y := ['E', 'F']) (by decide)
    (by simp [Text.isBlank, Text.inRanges, Text.blankRanges]) (by decide)
  have more := Recipe.WritesChambers.letters (y := ['c', '(']) (by decide)
    (by simp [Text.isBlank, Text.inRanges, Text.blankRanges]) (by decide)
  have spaced : Recipe.PlainName "P M" := ⟨by decide, by decide, by simp⟩
  have marked : Recipe.PlainName "Q#\x7b" := ⟨by decide, by decide, by simp⟩
  have names : Recipe.WritesChambers ["P M", "Q#\x7b"] "(P M;Q#\x7b)".toList :=
    .names (by simp [spaced, marked])
  have none : Recipe.WritesChambers [] "()".toList := .names (by simp)
  have all : Recipe.WritesRecipe _ _ :=
    .bracket (a := "R\x7dc".toList) (by decide) letters
      (.bracket (a := "-".toList) (by decide) .any
        (.bracket (a := []) (by decide) names
          (.bracket (a := []) (by decide) none
            (.bracket (a := []) (by decide) more (.text (a := []) (by decide))))))
  have written : Recipe.WritesRecipe sets recipe.toList := by
    convert all using 1 <;> decide
  have some : sets ≠ [] := List.cons_ne_nil _ _
  obtain ⟨read, -, keys⟩ := written_recipe_expands sets recipe written ["T1", "T2"]
  exact ⟨written, read, some, (keys some).1, (keys some).2 2 1 1 _ _ _ rfl rfl rfl⟩

end RuncardReview
