import RuncardReview.Proofs.CatalogSoundness

/-!
# The words of a tools line

Each group of an accepted catalog lists its tools in words between commas, and a word is cut
at its first mark only after it has been taken for a tool.  A mark behind a blank, which opens
a comment everywhere else, therefore stands for a tool without an id wherever a word may
begin: behind the colon of the line, and behind a comma.

**Results.**
* `toolOf_id_eq_empty`, `GroupText.named_iff`: the words whose tool has no id.
* `groups_texts`: the groups of a text that is read, with the words of their tools.
* `ofText_named_iff`: which groups of an accepted text have an id for every tool.
-/

namespace RuncardReview
namespace CatalogText

open Scanner

/-- The tool of a word has no id exactly if the word begins with the mark. -/
theorem toolOf_id_eq_empty {w : List Char} (any : w ≠ []) :
    (toolOf w).id = "" ↔ w.head? = some '#' := by
  obtain ⟨c, w, rfl⟩ := List.exists_cons_of_ne_nil any
  obtain ⟨chamber, split, -⟩ := toolOf_split (c :: w)
  rw [split]
  by_cases mark : c = '#'
  · simp [mark]
  · simp [mark]

/-- The group has a tool without an id exactly if one of its words begins with the mark. -/
theorem GroupText.named_iff {g : Group} {words : List (List Char)} {t : List Char}
    (text : GroupText g words t) :
    (∀ tool ∈ g.tools, tool.id ≠ "") ↔ ∀ w ∈ words, w.head? ≠ some '#' := by
  obtain ⟨_, _, -, ⟨-, -, -, listed, -, tools⟩, -⟩ := text
  have word : ∀ w ∈ words, (toolOf w).id = "" ↔ w.head? = some '#' := fun w hw =>
    toolOf_id_eq_empty (listed.toolWords w hw).1
  rw [tools]
  constructor
  · intro named w hw mark
    have member : toolOf w ∈ Distinct.firsts (words.map toolOf) :=
      Distinct.mem_firsts.mpr (List.mem_map_of_mem hw)
    exact named _ member ((word w hw).mpr mark)
  · intro unmarked tool member unnamed
    obtain ⟨w, hw, rfl⟩ := List.mem_map.mp (Distinct.mem_firsts.mp member)
    exact unmarked w hw ((word w hw).mp unnamed)

/-- A text that is read is the texts of its groups and a gap at the end. -/
theorem groups_texts {s : List Char} {gs : List Group} (found : groups s = .found gs [])
    (equipped : ∀ g ∈ gs, g.tools ≠ []) :
    ∃ texts closing, s = texts ++ closing ∧ gap closing = .found () [] ∧
      Sequence (fun g t => ∃ words, GroupText g words t) gs texts := by
  obtain ⟨closing, all, closed⟩ := groups_eq_found.mp found
  obtain ⟨texts, split, forms⟩ := group_reads.many s gs closing all
  exact ⟨texts, closing, split, closed, forms.imp_of_mem fun g hg _ form => form.2 (equipped g hg)⟩

end CatalogText

namespace Catalog

open CatalogText

/-- An accepted text is the texts of its groups, and every tool of a group has an id exactly if
none of the words on its tools line begins with the mark. -/
theorem ofText_named_iff (text : String) (catalog : Catalog) (accepted : ofText text = .ok catalog) :
    ∃ texts closing, text.toList = texts ++ closing ∧ gap closing = .found () [] ∧
      Sequence (fun g t => ∃ words, GroupText g words t ∧
          ((∀ tool ∈ g.tools, tool.id ≠ "") ↔ ∀ w ∈ words, w.head? ≠ some '#'))
        catalog.groups texts := by
  have found := read_eq_ok_iff.mp (read_of_ofText accepted)
  obtain ⟨texts, closing, split, closed, forms⟩ := groups_texts found catalog.equipped
  exact ⟨texts, closing, split, closed, forms.imp_of_mem
    fun _ _ _ ⟨words, form⟩ => ⟨words, form, form.named_iff⟩⟩

/-- The second word of the line begins with the mark, and the comment behind it does not count. -/
theorem ofText_named_iff_of_mark :
    ∃ catalog, ofText "group A:\n tools: T1, #E # T2\n" = .ok catalog ∧
      ∃ g ∈ catalog.groups, g.tools = [⟨"T1", ""⟩, ⟨"", "E"⟩] ∧
        ∃ words t, GroupText g words t ∧ ∃ w ∈ words, w.head? = some '#' := by
  let g : Group := ⟨"A", [⟨"T1", ""⟩, ⟨"", "E"⟩], []⟩
  have found : read "group A:\n tools: T1, #E # T2\n" = .ok [g] := by decide +kernel
  obtain ⟨catalog, accepted, groups⟩ := exists_ofText_of_read found (by simp) (by simp [g])
  obtain ⟨texts, closing, -, -, forms⟩ := ofText_named_iff _ catalog accepted
  rw [groups] at forms
  cases forms with
  | cons first _ =>
      obtain ⟨words, form, named⟩ := first
      have member : g ∈ catalog.groups := groups ▸ List.mem_singleton_self g
      refine ⟨catalog, accepted, g, member, rfl, words, _, form, ?_⟩
      by_contra unmarked
      refine named.mpr (fun w hw mark => unmarked ⟨w, hw, mark⟩) ⟨"", "E"⟩ ?_ rfl
      simp [g]

/-- A line whose only word is meant as a comment is accepted, and lists a tool without an id. -/
theorem ofText_accepts_unnamed :
    ∃ catalog, ofText "group A:\n tools: #todo\n rule X [Prod]\n" = .ok catalog ∧
      ∃ g ∈ catalog.groups, ∃ tool ∈ g.tools, tool.id = "" := by
  let g : Group := ⟨"A", [⟨"", "todo"⟩], [⟨"X", ["Prod"], none⟩]⟩
  have found : read "group A:\n tools: #todo\n rule X [Prod]\n" = .ok [g] := by decide +kernel
  obtain ⟨catalog, accepted, groups⟩ := exists_ofText_of_read found (by simp) (by simp [g])
  have member : g ∈ catalog.groups := groups ▸ List.mem_singleton_self g
  exact ⟨catalog, accepted, g, member, _, List.mem_singleton_self _, rfl⟩

end Catalog
end RuncardReview
