import Mathlib.Logic.Relation
import RuncardReview.Check.Registry
import RuncardReview.Proofs.RouteStrictness
import RuncardReview.Proofs.TrimmedItems

/-!
# Two spellings of a list of texts

A setting that is a list of texts may be written as a list, or as one text with commas between the
entries.  A list is trimmed entry by entry and a text is cut first, but as long as no entry has a
comma of its own the pieces of the text are the entries, and a blank entry is dropped in either
form.  So one form may stand for the other, in as many settings as one likes: the checks read such a
setting as a list of texts and in no other way.

**Results.**
* `texts_of_spells`: the texts that either spelling stands for.
* `Respells.agree`: what is read from settings of which one is spelled in another way.
* `Agree.verdict`, `Agree.evaluate`: rules with such settings.
* `evaluate_respelled`: any number of settings in another spelling.
-/

namespace RuncardReview

open Text

namespace Settings

/-- The settings that are lists of texts. -/
def listNames : List String :=
  ["recipeIds", "toolIds", "owners", "sections"]

/-- The two values that stand for some texts. -/
inductive Spells (xs : List String) : Value → Prop
  | listed : Spells xs (.texts xs)
  | joined : (∀ x ∈ xs, ',' ∉ x.toList) → Spells xs (.text (",".intercalate xs))

/-- In one of these settings a spelling is replaced by one of the same texts. -/
inductive Respells : Settings → Settings → Prop
  | setting {s : Settings} {name : String} {xs : List String} {v w : Value} :
      name ∈ listNames → s.get? name = some v → Spells xs v → Spells xs w →
      Respells s (s.insert name w)

/-- All lists of texts are the same, and all other settings. -/
structure Agree (s t : Settings) : Prop where
  texts : ∀ name, t.texts name = s.texts name
  other : ∀ name, name ∉ listNames → t.get? name = s.get? name

/-! ## Reading -/

section Reading

variable {s t : Settings} {name : String} {xs : List String} {v : Value}

theorem itemText_text (x : String) :
    itemText (.text x) = String.ofList (trimChars x.toList) := rfl

theorem entries_texts (xs : List String) :
    ((xs.map Value.text).map itemText).filter (fun t => t ≠ "") =
      xs.filterMap fun x => item? x.toList := by
  induction xs with
  | nil => rfl
  | cons x xs ih => by_cases blank : trimChars x.toList = [] <;> simp_all [itemText_text, item?]

/-- Texts without commas are the pieces of the text in which they are joined. -/
theorem commaItems_intercalate (plain : ∀ x ∈ xs, ',' ∉ x.toList) :
    commaItems (",".intercalate xs) = xs.filterMap fun x => item? x.toList := by
  have whole : ∀ p ∈ xs.map String.toList, ',' ∉ p := List.forall_mem_map.mpr plain
  have joined : (",".intercalate xs).toList = [','].intercalate (xs.map String.toList) :=
    String.toList_intercalate
  rw [commaItems, joined, items_intercalate whole, List.filterMap_map]
  rfl

theorem texts_of_spells (spells : Spells xs v) (held : s.get? name = some v) :
    s.texts name = xs.filterMap fun x => item? x.toList := by
  cases spells with
  | listed =>
      simp only [texts, held, Value.texts]
      exact entries_texts xs
  | joined plain =>
      simp only [texts, held]
      exact commaItems_intercalate plain

theorem Agree.refl (s : Settings) :
    Agree s s :=
  ⟨fun _ => rfl, fun _ _ => rfl⟩

theorem Agree.trans {u : Settings} (first : Agree s t) (second : Agree t u) :
    Agree s u :=
  ⟨fun name => (second.texts name).trans (first.texts name),
    fun name plain => (second.other name plain).trans (first.other name plain)⟩

/-- Both spellings of a list are read as the same texts, and the other settings are left alone. -/
theorem Respells.agree (respelled : Respells s t) :
    Agree s t := by
  cases respelled with
  | @setting name _ _ w listed held spells spells' =>
      have same := sameBut_insert s name w
      have held' : (s.insert name w).get? name = some w := by rw [Entries.get?_insert, if_pos rfl]
      refine ⟨fun k => ?_, fun k plain => same k fun e => plain (e ▸ listed)⟩
      by_cases here : k = name
      · subst here
        rw [texts_of_spells spells' held', texts_of_spells spells held]
      · exact same.texts here

theorem agree_of_respells (respelled : Relation.ReflTransGen Respells s t) :
    Agree s t := by
  induction respelled with
  | refl => exact .refl s
  | tail _ last ih => exact ih.trans last.agree

end Reading

/-! ## Checking -/

section Checking

variable {s t : Settings}

theorem Agree.policy (agree : Agree s t) (rule : Rule) (default : EmptyPolicy) :
    EmptyPolicy.ofRule (rule.withSettings t) default =
      EmptyPolicy.ofRule (rule.withSettings s) default := by
  have named : t.text "emptyDataPolicy" "" = s.text "emptyDataPolicy" "" := by
    rw [text, text, agree.other _ (by decide)]
  simp only [EmptyPolicy.ofRule, Rule.withSettings, named]

/-- The route is checked to the same length, against the same patterns. -/
theorem Agree.verdict (agree : Agree s t) (rule : Rule) :
    ForwardProcess.verdict (rule.withSettings t) =
      ForwardProcess.verdict (rule.withSettings s) := by
  funext records
  have steps : ForwardProcess.stepCount t = ForwardProcess.stepCount s := by
    rw [ForwardProcess.stepCount, ForwardProcess.stepCount, int, int, agree.other _ (by decide)]
  have measurements : t.bool "measurementOnly" false = s.bool "measurementOnly" false := by
    rw [bool, bool, agree.other _ (by decide)]
  have window : ForwardProcess.window t records = ForwardProcess.window s records := by
    simp only [ForwardProcess.window, steps, measurements]
  simp only [ForwardProcess.verdict, agree.policy]
  simp only [Rule.withSettings, Option.getD_some, window, steps, agree.texts]
  rfl

theorem Agree.ownerVerdict (agree : Agree s t) :
    RuncardOwner.verdict t = RuncardOwner.verdict s := by
  funext engineer found
  simp only [RuncardOwner.verdict, agree.texts]

/-- What a check asks, and what it comes to, is settled by what it reads from the settings. -/
theorem Agree.run (agree : Agree s t) (kind : RuleKind) (condition : Condition)
    (runcard : Runcard) (rule : Rule) :
    kind.check.run ⟨condition, runcard, rule.withSettings t⟩ =
      kind.check.run ⟨condition, runcard, rule.withSettings s⟩ := by
  cases kind with
  | forwardProcess =>
      simp only [RuleKind.check, ForwardProcess.check]
      rw [agree.verdict]
  | inhibitionStatus =>
      simp only [RuleKind.check, InhibitionStatus.check, InhibitionStatus.verdict, agree.policy]
  | waferCondition =>
      have outcome : WaferCondition.outcome ⟨condition, runcard, rule.withSettings t⟩ =
          WaferCondition.outcome ⟨condition, runcard, rule.withSettings s⟩ := by
        funext counts
        cases counts <;> simp only [WaferCondition.outcome, agree.policy]
      simp only [RuleKind.check, WaferCondition.check, outcome]
  | recipeGroupBlue =>
      simp only [RuleKind.check, RecipeGroupBlue.check, agree.policy]
  | runcardOwner =>
      simp only [RuleKind.check, RuncardOwner.check, Rule.withSettings, Option.getD_some,
        agree.texts]
      rw [agree.ownerVerdict]

theorem Agree.evaluate (agree : Agree s t) (kind : RuleKind) (condition : Condition)
    (runcard : Runcard) (rule : Rule) :
    kind.check.evaluate ⟨condition, runcard, rule.withSettings t⟩ =
      kind.check.evaluate ⟨condition, runcard, rule.withSettings s⟩ := by
  -- Both rules have settings and the same lot types, so the gates treat them alike.
  have gates : Check.skipReason? kind.check.needsSettings
        ⟨condition, runcard, rule.withSettings t⟩ =
      Check.skipReason? kind.check.needsSettings ⟨condition, runcard, rule.withSettings s⟩ := rfl
  simp only [Check.evaluate, gates, agree.run]
  rfl

end Checking

/-- If lists of texts are spelled in the other way, in any number of settings, all lists are read
as before, and each check of the library asks the same and comes to the same result. -/
theorem evaluate_respelled {s t : Settings} (respelled : Relation.ReflTransGen Respells s t) :
    (∀ name, t.texts name = s.texts name) ∧
      ∀ (kind : RuleKind) (condition : Condition) (runcard : Runcard) (rule : Rule),
        kind.check.evaluate ⟨condition, runcard, rule.withSettings t⟩ =
          kind.check.evaluate ⟨condition, runcard, rule.withSettings s⟩ := by
  have agree := agree_of_respells respelled
  exact ⟨agree.texts, agree.evaluate⟩

/-- The patterns for the recipes are joined and the owners are cut.  Blanks around an entry and
blank entries make no difference, and neither does an empty list. -/
theorem evaluate_respelled_of_blanks :
    let s : Settings := ((Entries.empty.insert "owners" (.text " JDOE ,, ASMITH")).insert
      "recipeIds" (.texts [" %ETCH", "", "MEAS\t"])).insert "sections" (.texts [])
    let t : Settings := ((s.insert "recipeIds" (.text " %ETCH,,MEAS\t")).insert
      "owners" (.texts [" JDOE ", "", " ASMITH"])).insert "sections" (.text "")
    Relation.ReflTransGen Respells s t ∧
      t.texts "recipeIds" = ["%ETCH", "MEAS"] ∧ t.texts "owners" = ["JDOE", "ASMITH"] ∧
      t.texts "sections" = [] ∧
      ∀ (kind : RuleKind) (condition : Condition) (runcard : Runcard) (rule : Rule),
        kind.check.evaluate ⟨condition, runcard, rule.withSettings t⟩ =
          kind.check.evaluate ⟨condition, runcard, rule.withSettings s⟩ := by
  intro s t
  let joined : Settings := s.insert "recipeIds" (.text " %ETCH,,MEAS\t")
  let cut : Settings := joined.insert "owners" (.texts [" JDOE ", "", " ASMITH"])
  have heldRecipes : s.get? "recipeIds" = some (.texts [" %ETCH", "", "MEAS\t"]) := by
    simp [s, Entries.get?_insert]
  have heldOwners : joined.get? "owners" =
      some (.text (",".intercalate [" JDOE ", "", " ASMITH"])) := by
    simp [joined, s, Entries.get?_insert, String.intercalate_cons_cons]
  have heldSections : cut.get? "sections" = some (.texts []) := by
    simp [cut, joined, s, Entries.get?_insert]
  have recipes : Respells s joined :=
    .setting (by decide) heldRecipes .listed (.joined (by decide))
  have owners : Respells joined cut :=
    .setting (by decide) heldOwners (.joined (by decide)) .listed
  have sections : Respells cut t :=
    .setting (by decide) heldSections .listed (.joined (by decide))
  have respelled : Relation.ReflTransGen Respells s t :=
    ((Relation.ReflTransGen.single recipes).tail owners).tail sections
  obtain ⟨texts, same⟩ := evaluate_respelled respelled
  refine ⟨respelled, ?_, ?_, ?_, same⟩
  · rw [texts]
    decide +kernel
  · rw [texts]
    decide +kernel
  · rw [texts]
    decide +kernel

end Settings
end RuncardReview
