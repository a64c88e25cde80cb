import RuncardReview.Proofs.CatalogAcceptance
import RuncardReview.Proofs.CatalogCarried

/-!
# Catalogs one after the other

Two texts that are read as catalogs, with a line feed between them, are read as the groups
of the first and then those of the second.  The rounds of the first text are found as
before; behind the last of them the gap leads into the second text, where the scan goes on
as at its beginning.

**Results.**
* `continues_of_groups`: how the second text begins.
* `groups_append`: the groups of both texts.
* `read_joined`: catalogs are joined, unless a name is in both.
-/

namespace RuncardReview
namespace CatalogText

open Scanner

variable {a b s r : List Char} {gs hs : List Group} {g : Group}

/-- A group begins with its keyword, blanks, and a name. -/
theorem continues_of_group (found : group b = .found g r) :
    Continues b := by
  obtain ⟨_, _, gapped, found⟩ := bind_eq_found.mp found
  obtain ⟨_, _, keyword, found⟩ := bind_eq_found.mp found
  obtain ⟨blanks, _, wide, found⟩ := bind_eq_found.mp found
  obtain ⟨_, _, named, -⟩ := bind_eq_found.mp found
  obtain ⟨n, rest, run, -⟩ := bind_eq_found.mp (require_eq_found.mp (expecting_eq_found.mp named))
  obtain rfl := word_eq_found.mp keyword
  obtain ⟨some, blank, -, rfl⟩ := span1_eq_found.mp wide
  obtain ⟨some', chars, -, rfl⟩ := span1_eq_found.mp run
  obtain ⟨c, n, rfl⟩ := List.exists_cons_of_ne_nil some'
  have opening : Opening afterGroup ("group".toList ++ (blanks ++ c :: (n ++ rest))) :=
    .word (List.mem_singleton_self _) blank some (chars c List.mem_cons_self)
  exact ⟨_, gapped.trans (gap_solid opening.wider.solid).symm, opening⟩

theorem continues_of_groups (found : groups b = .found gs []) :
    Continues b := by
  obtain ⟨rest, all, closing⟩ := groups_eq_found.mp found
  cases first : group b with
  | found g r => exact continues_of_group first
  | absent =>
      rw [many_of_absent first] at all
      cases all
      exact ⟨[], closing.trans (gap_solid solid_nil).symm, .nil⟩
  | _ =>
      rw [many, first] at all
      cases all

/-- Texts that are the same behind their first gap have the same groups, if the one that is
read is not the longer one. -/
theorem groups_of_same_gap (same : gap s = gap b) (longer : b.length ≤ s.length)
    (found : groups b = .found gs []) :
    groups s = .found gs [] := by
  obtain ⟨rest, all, closing⟩ := groups_eq_found.mp found
  have same' : group s = group b := gap_then_congr same
  rw [groups_eq_found]
  cases first : group b with
  | found g r =>
      have shorter : r.length < b.length := by
        by_contra stuck
        rw [many, first] at all
        simp [stuck] at all
      rw [many_of_found first shorter] at all
      rw [many_of_found (same'.trans first) (Nat.lt_of_lt_of_le shorter longer)]
      exact ⟨rest, all, closing⟩
  | absent =>
      rw [many_of_absent first] at all
      cases all
      exact ⟨s, many_of_absent (same'.trans first), same.trans closing⟩
  | _ =>
      rw [many, first] at all
      cases all

theorem groups_append (first : groups a = .found gs []) (second : groups b = .found hs []) :
    groups (a ++ '\n' :: b) = .found (gs ++ hs) [] := by
  obtain ⟨r, here, closing⟩ := groups_eq_found.mp first
  have into : gap (r ++ '\n' :: b) = gap b := by
    rcases gap_append b closing with ⟨-, some⟩ | ⟨into, -⟩
    · exact absurd rfl some
    · exact into
  have longer : b.length ≤ (r ++ '\n' :: b).length := by
    simp only [List.length_append, List.length_cons]
    omega
  obtain ⟨r', there, closing'⟩ := groups_eq_found.mp (groups_of_same_gap into longer second)
  have continues := continues_of_groups second
  exact groups_eq_found.mpr ⟨r', many_append (group_append continues) here there, closing'⟩

end CatalogText

open CatalogText

/-- Two texts that are read are read one after the other, with a line feed between them, and
two catalogs are a catalog together exactly if no group of the one has the name of a group of
the other. -/
theorem read_joined (a b : String) :
    (∀ gs hs, read a = .ok gs → read b = .ok hs → read (a ++ "\n" ++ b) = .ok (gs ++ hs)) ∧
      ∀ c d, Catalog.ofText a = .ok c → Catalog.ofText b = .ok d →
        ((∃ e, Catalog.ofText (a ++ "\n" ++ b) = .ok e) ↔
          ∀ g ∈ c.groups, ∀ h ∈ d.groups, g.name ≠ h.name) := by
  have joined : ∀ gs hs, read a = .ok gs → read b = .ok hs →
      read (a ++ "\n" ++ b) = .ok (gs ++ hs) := by
    intro gs hs first second
    rw [read_eq_ok_iff] at first second ⊢
    simpa using groups_append first second
  refine ⟨joined, fun c d first second => ?_⟩
  have text := joined _ _ (Catalog.read_of_ofText first) (Catalog.read_of_ofText second)
  rw [Catalog.ofText_of_read text]
  exact Catalog.exists_ofGroups_append_iff c d

/-- The first text ends in a comment, with the settings of a rule still open. -/
theorem read_joined_of_open_settings :
    let a := "group A:\n tools: T1\n rule X [Prod]:\n k = true # or"
    let b := "# more\ngroup B:\n tools: T1#E"
    ∃ gs hs, read a = .ok gs ∧ read b = .ok hs ∧ read (a ++ "\n" ++ b) = .ok (gs ++ hs) ∧
      ∃ c d, Catalog.ofText a = .ok c ∧ Catalog.ofText b = .ok d ∧
        ∃ e, Catalog.ofText (a ++ "\n" ++ b) = .ok e := by
  intro a b
  let g : Group := ⟨"A", [⟨"T1", ""⟩], [⟨"X", ["Prod"], some (Entries.ofList [("k", .bool true)])⟩]⟩
  let h : Group := ⟨"B", [⟨"T1", "E"⟩], []⟩
  have first : read "group A:\n tools: T1\n rule X [Prod]:\n k = true # or" = .ok [g] := by
    decide +kernel
  have second : read "# more\ngroup B:\n tools: T1#E" = .ok [h] := by decide +kernel
  obtain ⟨c, ofFirst, groups⟩ := Catalog.exists_ofText_of_read first (by simp) (by simp [g])
  obtain ⟨d, ofSecond, groups'⟩ := Catalog.exists_ofText_of_read second (by simp) (by simp [h])
  obtain ⟨joined, accepted⟩ := read_joined a b
  refine ⟨[g], [h], first, second, joined _ _ first second, c, d, ofFirst, ofSecond, ?_⟩
  refine (accepted c d ofFirst ofSecond).mpr ?_
  rw [groups, groups']
  simp [g, h]

end RuncardReview
