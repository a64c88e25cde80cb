import RuncardReview.Catalog.Basic
import RuncardReview.Proofs.ScanFront

/-!
# Accepted catalogs

A text is accepted as a catalog in two steps: its groups are read to the end of the text,
and then no name may repeat and no group may be without tools.  The groups of an accepted
catalog are those that were read, so what the grammar says of a group holds of them.

**Results.**
* `read_eq_ok_iff`, `groups_eq_found`: reading finds the groups and leaves nothing.
* `forall_of_read`: what holds of every group that is read.
* `exists_ofGroups_iff`, `exists_ofGroups_append_iff`: which groups are a catalog.
-/

namespace RuncardReview

namespace CatalogText

open Scanner

variable {text : String} {s : List Char} {gs : List Group}

theorem read_eq_ok_iff :
    read text = .ok gs ↔ groups text.toList = .found gs [] := by
  unfold read
  cases groups text.toList with
  | found hs rest => cases rest <;> simp
  | _ => simp

theorem groups_eq_found :
    groups s = .found gs [] ↔ ∃ rest, many group s = .found gs rest ∧ gap rest = .found () [] := by
  constructor
  · intro found
    obtain ⟨_, rest, all, found⟩ := bind_eq_found.mp found
    obtain ⟨_, _, closing, found⟩ := bind_eq_found.mp found
    cases found
    exact ⟨rest, all, closing⟩
  · rintro ⟨rest, all, closing⟩
    exact (bind_found all).trans (bind_found closing)

/-- What holds of every group that is found holds of the groups of a text. -/
theorem forall_of_read {P : Group → Prop} (reads : Reads group fun g _ => P g)
    (found : read text = .ok gs) :
    ∀ g ∈ gs, P g := by
  obtain ⟨rest, all, -⟩ := groups_eq_found.mp (read_eq_ok_iff.mp found)
  obtain ⟨_, -, holds⟩ := reads.each_many text.toList gs rest all
  exact holds

end CatalogText

namespace Catalog

theorem firstRepeat?_eq_none {ns seen : List String} (distinct : ns.Nodup)
    (fresh : ∀ n ∈ ns, n ∉ seen) :
    firstRepeat? seen ns = none := by
  induction ns generalizing seen with
  | nil => rfl
  | cons n ns ih =>
      obtain ⟨first, others⟩ := List.nodup_cons.mp distinct
      rw [firstRepeat?, if_neg (fresh n List.mem_cons_self)]
      refine ih others fun m hm => ?_
      rw [List.mem_cons, not_or]
      exact ⟨fun e => first (e ▸ hm), fresh m (List.mem_cons_of_mem n hm)⟩

theorem groups_of_ofGroups {gs : List Group} {c : Catalog} (accepted : ofGroups gs = .ok c) :
    c.groups = gs := by
  unfold ofGroups at accepted
  split at accepted
  · cases accepted
  · split at accepted
    · cases accepted
    · cases accepted
      rfl

/-- Groups are a catalog if no name repeats and every group lists a tool. -/
theorem exists_ofGroups_iff {gs : List Group} :
    (∃ c, ofGroups gs = .ok c) ↔ (gs.map Group.name).Nodup ∧ ∀ g ∈ gs, g.tools ≠ [] := by
  constructor
  · rintro ⟨c, accepted⟩
    rw [← groups_of_ofGroups accepted]
    exact ⟨c.distinct, c.equipped⟩
  · rintro ⟨distinct, equipped⟩
    have noRepeat : firstRepeat? [] (gs.map Group.name) = none :=
      firstRepeat?_eq_none distinct (by simp)
    have noEmpty : firstEmpty? gs = none := by
      refine List.find?_eq_none.mpr fun g hg => ?_
      simpa using equipped g hg
    unfold ofGroups
    split
    · rename_i n found
      rw [noRepeat] at found
      cases found
    · split
      · rename_i g found
        rw [noEmpty] at found
        cases found
      · exact ⟨_, rfl⟩

/-- Two catalogs are a catalog together if no name is in both. -/
theorem exists_ofGroups_append_iff (c d : Catalog) :
    (∃ e, ofGroups (c.groups ++ d.groups) = .ok e) ↔
      ∀ g ∈ c.groups, ∀ h ∈ d.groups, g.name ≠ h.name := by
  rw [exists_ofGroups_iff, List.map_append, List.nodup_append]
  constructor
  · rintro ⟨⟨-, -, apart⟩, -⟩ g hg h hh
    exact apart _ (List.mem_map_of_mem hg) _ (List.mem_map_of_mem hh)
  · intro apart
    refine ⟨⟨c.distinct, d.distinct, ?_⟩, ?_⟩
    · intro n hn m hm
      obtain ⟨g, hg, rfl⟩ := List.mem_map.mp hn
      obtain ⟨h, hh, rfl⟩ := List.mem_map.mp hm
      exact apart g hg h hh
    · intro g hg
      rcases List.mem_append.mp hg with hg | hg
      · exact c.equipped g hg
      · exact d.equipped g hg

theorem ofText_of_read {text : String} {gs : List Group}
    (found : CatalogText.read text = .ok gs) :
    ofText text = ofGroups gs := by
  rw [ofText, found]

/-- Groups that are read from a text are its catalog, unless a name repeats or tools are
missing. -/
theorem exists_ofText_of_read {text : String} {gs : List Group}
    (found : CatalogText.read text = .ok gs) (distinct : (gs.map Group.name).Nodup)
    (equipped : ∀ g ∈ gs, g.tools ≠ []) :
    ∃ c, ofText text = .ok c ∧ c.groups = gs := by
  obtain ⟨c, valid⟩ := exists_ofGroups_iff.mpr ⟨distinct, equipped⟩
  exact ⟨c, (ofText_of_read found).trans valid, groups_of_ofGroups valid⟩

/-- An accepted text is read as the groups of its catalog. -/
theorem read_of_ofText {text : String} {c : Catalog} (accepted : ofText text = .ok c) :
    CatalogText.read text = .ok c.groups := by
  unfold ofText at accepted
  split at accepted
  · rename_i gs found
    rw [found, groups_of_ofGroups accepted]
  · cases accepted

end Catalog
end RuncardReview
