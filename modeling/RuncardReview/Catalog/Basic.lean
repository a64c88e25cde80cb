import RuncardReview.Catalog.ParseError

/-!
# Catalogs

A catalog is a list of groups in which every name occurs once and every group
lists at least one tool.  A repeated name is reported before a group without
tools, wherever the two stand.
-/

namespace RuncardReview

/-- A validated list of groups. -/
structure Catalog where
  groups : List Group
  distinct : (groups.map Group.name).Nodup
  equipped : ∀ g ∈ groups, g.tools ≠ []

/-- Why groups, a text or a file are not a catalog. -/
inductive CatalogError
  | parse (e : ParseError)
  | duplicateGroup (name : String)
  | emptyGroup (name : String)
  | unreadable

namespace CatalogError

/-- The text of an error, if it has one of its own. -/
def message : CatalogError → String
  | parse e => e.message
  | duplicateGroup name => "duplicate group name '" ++ name ++ "'"
  | emptyGroup name => "group '" ++ name ++ "' lists no tools"
  | unreadable => ""

end CatalogError

namespace Catalog

/-- The first name that has occurred before, if there is one. -/
def firstRepeat? (seen : List String) : List String → Option String
  | [] => none
  | n :: ns => if n ∈ seen then some n else firstRepeat? (n :: seen) ns

theorem nodup_of_firstRepeat? :
    ∀ (ns seen : List String), firstRepeat? seen ns = none →
      ns.Nodup ∧ ∀ n, n ∈ ns → n ∉ seen
  | [], _, _ => ⟨List.nodup_nil, fun _ h => by cases h⟩
  | n :: ns, seen, h => by
      simp only [firstRepeat?] at h
      split at h
      · cases h
      · rename_i hn
        obtain ⟨distinct, fresh⟩ := nodup_of_firstRepeat? ns (n :: seen) h
        refine ⟨List.nodup_cons.mpr ⟨fun hm => fresh n hm List.mem_cons_self, distinct⟩, ?_⟩
        intro m hm
        rcases List.mem_cons.mp hm with e | hm
        · exact e ▸ hn
        · exact fun hs => fresh m hm (List.mem_cons_of_mem n hs)

/-- The first group that lists no tools, if there is one. -/
def firstEmpty? (groups : List Group) : Option Group :=
  groups.find? fun g => g.tools.isEmpty

theorem equipped_of_firstEmpty? {groups : List Group} (h : firstEmpty? groups = none) :
    ∀ g ∈ groups, g.tools ≠ [] := by
  intro g hg e
  have := List.find?_eq_none.mp h g hg
  simp [e] at this

def ofGroups (groups : List Group) : Except CatalogError Catalog :=
  match distinct : firstRepeat? [] (groups.map Group.name) with
  | some n => .error (.duplicateGroup n)
  | none =>
      match equipped : firstEmpty? groups with
      | some g => .error (.emptyGroup g.name)
      | none =>
          .ok ⟨groups, (nodup_of_firstRepeat? _ _ distinct).1, equipped_of_firstEmpty? equipped⟩

def ofText (text : String) : Except CatalogError Catalog :=
  match CatalogText.read text with
  | .ok groups => ofGroups groups
  | .error e => .error (.parse e)

/-- The catalog in a file of that content, if there is such a file. -/
def ofFile (content : Option ByteArray) : Except CatalogError Catalog :=
  match content.bind String.fromUTF8? with
  | some text => ofText text
  | none => .error .unreadable

def group? (c : Catalog) (name : String) : Option Group :=
  c.groups.find? fun g => g.name = name

def size (c : Catalog) : Nat :=
  c.groups.length

end Catalog
end RuncardReview
