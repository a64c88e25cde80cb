import Mathlib.Data.Finset.Card
import Mathlib.Data.List.Induction
import RuncardReview.Proofs.CacheKeys
import RuncardReview.Proofs.MemoTransparency

/-!
# What a memo asks its source

Two lookups are the same for a memo if they differ only in the order and the repeats of
their tools.  The first lookup that succeeds is the last of its kind to reach the source,
and one that fails reaches it each time.  So after any lookups the memo keeps one answer
for each kind that has succeeded.

A step of the memo is described once, by what it adds to the kept lookups and to those
that have reached the source; the counts follow by induction on the lookups.

**Results.**
* `kept_serve`, `reached_serve`: one step of a memo.
* `kept_serveAll`, `count_reached_serveAll`: a whole run.
* `serveAll_transparent`: answers, lookups of the source and size together.
-/

namespace RuncardReview

open scoped List
open Distinct (firsts)

/-! ## One lookup -/

namespace Query

/-- What a lookup asks, with its tools as a set. -/
inductive Kind
  | forward (runcard condition : String)
  | inhibition (tools : Finset String) (recipe : String)
  | wafer (runcard : String)
  | release (recipe : String) (tools : Finset String)
  | engineerSection (engineer : String)
  deriving DecidableEq

def kind : Query → Kind
  | forward runcard condition => .forward runcard condition
  | inhibition tools recipe => .inhibition tools.toFinset recipe
  | wafer runcard => .wafer runcard
  | release recipe tools => .release recipe tools.toFinset
  | engineerSection engineer => .engineerSection engineer

theorem toolKey_eq_iff_toFinset {tools others : List String} :
    toolKey tools = toolKey others ↔ tools.toFinset = others.toFinset := by
  rw [toolKey_eq_iff, Finset.ext_iff]
  simp

/-- The key of a lookup says which kind it is, and no more. -/
theorem asSet_eq_iff {p q : Query} :
    p.asSet = q.asSet ↔ p.kind = q.kind := by
  cases p <;> cases q <;> simp [asSet, kind, toolKey_eq_iff_toFinset]

theorem count_kind (qs : List Query) (q : Query) :
    (qs.map kind).count q.kind = (qs.map asSet).count q.asSet := by
  induction qs with
  | nil => rfl
  | cons p qs ih => simp [List.count_cons, ih, asSet_eq_iff]

theorem kind_asSet (q : Query) :
    q.asSet.kind = q.kind := by
  have same : ∀ tools : List String, (toolKey tools).toFinset = tools.toFinset := by
    intro tools
    ext t
    simp [mem_toolKey]
  cases q <;> simp [asSet, kind, same]

theorem card_kinds (qs : List Query) :
    (qs.map kind).toFinset.card = (firsts (qs.map asSet)).length := by
  have kinds : (qs.map kind).toFinset = ((firsts (qs.map asSet)).map kind).toFinset := by
    ext k
    simp [Distinct.mem_firsts, kind_asSet]
  have separate : ((firsts (qs.map asSet)).map kind).Nodup := by
    refine (Distinct.nodup_firsts _).map_on ?_
    intro a ha b hb same
    obtain ⟨p, -, rfl⟩ := List.mem_map.mp (Distinct.mem_firsts.mp ha)
    obtain ⟨q, -, rfl⟩ := List.mem_map.mp (Distinct.mem_firsts.mp hb)
    rw [kind_asSet, kind_asSet] at same
    exact asSet_eq_iff.mpr same
  rw [kinds, List.toFinset_card_of_nodup separate, List.length_map]

end Query

/-- Whether the source serves a lookup. -/
def Source.serves (source : Source) (q : Query) : Bool :=
  (source q).isOk

section Sets

variable {source : Source}

theorem Source.serves_asSet (sets : source.TakesSets) (q : Query) :
    source.serves q.asSet = source.serves q := by
  cases q with
  | inhibition tools recipe =>
      exact congrArg Outcome.isOk (sets.inhibition recipe fun _ => mem_toolKey)
  | release recipe tools =>
      exact congrArg Outcome.isOk (sets.release recipe fun _ => mem_toolKey)
  | _ => rfl

/-- A source that takes tools as a set serves all lookups of one kind or none. -/
theorem Source.serves_eq (sets : source.TakesSets) {p q : Query} (same : p.asSet = q.asSet) :
    source.serves p = source.serves q := by
  rw [← serves_asSet sets p, same, serves_asSet sets q]

end Sets

namespace Memo

/-- The lookups of which the memo keeps the answer, each with its tools as a set. -/
def kept (m : Memo) : List Query :=
  m.forward.filledKeys.map (fun k => Query.forward k.1 k.2) ++
    (m.inhibition.filledKeys.map (fun k => Query.inhibition k.2 k.1) ++
      (m.wafer.filledKeys.map Query.wafer ++
        (m.release.filledKeys.map (fun k => Query.release k.1 k.2) ++
          m.engineerSection.filledKeys.map Query.engineerSection)))

/-- In none of the caches a key has two slots. -/
structure Separate (m : Memo) : Prop where
  forward : m.forward.Separate
  inhibition : m.inhibition.Separate
  wafer : m.wafer.Separate
  release : m.release.Separate
  engineerSection : m.engineerSection.Separate

/-- Whether a lookup finds nothing under its key. -/
def misses (m : Memo) : Query → Bool
  | .forward runcard condition => (m.forward.get? (runcard, condition)).isNone
  | .inhibition tools recipe => (m.inhibition.get? (recipe, toolKey tools)).isNone
  | .wafer runcard => (m.wafer.get? runcard).isNone
  | .release recipe tools => (m.release.get? (recipe, toolKey tools)).isNone
  | .engineerSection engineer => (m.engineerSection.get? engineer).isNone

theorem size_eq (m : Memo) :
    m.size = m.kept.length := by
  simp [size, kept, Cache.size_eq, Nat.add_assoc]

theorem misses_iff {m : Memo} (separate : m.Separate) (q : Query) :
    m.misses q = true ↔ q.asSet ∉ m.kept := by
  cases q with
  | forward runcard condition =>
      simp [misses, kept, Query.asSet, Cache.mem_filledKeys separate.forward]
  | inhibition tools recipe =>
      simp [misses, kept, Query.asSet, Cache.mem_filledKeys separate.inhibition]
  | wafer runcard =>
      simp [misses, kept, Query.asSet, Cache.mem_filledKeys separate.wafer]
  | release recipe tools =>
      simp [misses, kept, Query.asSet, Cache.mem_filledKeys separate.release]
  | engineerSection engineer =>
      simp [misses, kept, Query.asSet, Cache.mem_filledKeys separate.engineerSection]

theorem reached_noteReached (m : Memo) (attempted : Bool) (q : Query) :
    (m.noteReached attempted q).reached = m.reached ++ (if attempted then [q] else []) := by
  cases attempted <;> simp [noteReached]

/-- A lookup reaches the source if it finds nothing. -/
theorem reached_serve (source : Source) (q : Query) (m : Memo) :
    (serve source q m).2.reached = m.reached ++ (if m.misses q then [q] else []) := by
  have attempted : ∀ {b : Bool} {n : Memo}, b = m.misses q → n.reached = m.reached →
      (n.noteReached b q).reached = m.reached ++ (if m.misses q then [q] else []) := by
    intro b n missed same
    rw [reached_noteReached, missed, same]
  cases q with
  | forward runcard condition => exact attempted (Cache.attempted_access _ _ _) rfl
  | inhibition tools recipe => exact attempted (Cache.attempted_access _ _ _) rfl
  | wafer runcard => exact attempted (Cache.attempted_access _ _ _) rfl
  | release recipe tools => exact attempted (Cache.attempted_access _ _ _) rfl
  | engineerSection engineer => exact attempted (Cache.attempted_access _ _ _) rfl

theorem Separate.noteReached {m : Memo} (separate : m.Separate) (attempted : Bool)
    (q : Query) :
    (m.noteReached attempted q).Separate := by
  cases attempted with
  | false => exact separate
  | true => exact ⟨separate.forward, separate.inhibition, separate.wafer, separate.release,
      separate.engineerSection⟩

theorem separate_empty : Separate empty :=
  ⟨.nil, .nil, .nil, .nil, .nil⟩

theorem Separate.serve {m : Memo} (h : m.Separate) (source : Source) (q : Query) :
    (Memo.serve source q m).2.Separate := by
  cases q with
  | forward runcard condition =>
      exact Separate.noteReached (m := { m with forward := (m.forward.access _ _).cache })
        ⟨h.forward.access _ _, h.inhibition, h.wafer, h.release, h.engineerSection⟩ _ _
  | inhibition tools recipe =>
      exact Separate.noteReached (m := { m with inhibition := (m.inhibition.access _ _).cache })
        ⟨h.forward, h.inhibition.access _ _, h.wafer, h.release, h.engineerSection⟩ _ _
  | wafer runcard =>
      exact Separate.noteReached (m := { m with wafer := (m.wafer.access _ _).cache })
        ⟨h.forward, h.inhibition, h.wafer.access _ _, h.release, h.engineerSection⟩ _ _
  | release recipe tools =>
      exact Separate.noteReached (m := { m with release := (m.release.access _ _).cache })
        ⟨h.forward, h.inhibition, h.wafer, h.release.access _ _, h.engineerSection⟩ _ _
  | engineerSection engineer =>
      exact Separate.noteReached
        (m := { m with engineerSection := (m.engineerSection.access _ _).cache })
        ⟨h.forward, h.inhibition, h.wafer, h.release, h.engineerSection.access _ _⟩ _ _

@[simp] theorem kept_noteReached (m : Memo) (attempted : Bool) (q : Query) :
    (m.noteReached attempted q).kept = m.kept := by
  cases attempted <;> rfl

section Blocks

variable {α : Type} {block grown gain : List α}

/-- What a block gains, the row gains that ends with it. -/
theorem append_gain (front : List α) (grows : grown ~ gain ++ block) :
    front ++ grown ~ gain ++ (front ++ block) :=
  (grows.append_left front).trans (List.perm_append_comm_assoc front gain block)

/-- What a block gains, the row gains that begins with it. -/
theorem gain_append (grows : grown ~ gain ++ block) (back : List α) :
    grown ++ back ~ gain ++ (block ++ back) := by
  rw [← List.append_assoc]
  exact grows.append_right back

end Blocks

/-- A lookup that finds nothing and is served is kept from then on. -/
theorem kept_serve (source : Source) (q : Query) (m : Memo) :
    (serve source q m).2.kept ~
      (if m.misses q && source.serves q then [q.asSet] else []) ++ m.kept := by
  cases q with
  | forward runcard condition =>
      rw [serve, kept_noteReached]
      exact gain_append (Cache.map_filledKeys_access _ _ _ _) _
  | inhibition tools recipe =>
      rw [serve, kept_noteReached]
      exact append_gain _ (gain_append (Cache.map_filledKeys_access _ _ _ _) _)
  | wafer runcard =>
      rw [serve, kept_noteReached]
      exact append_gain _ (append_gain _ (gain_append (Cache.map_filledKeys_access _ _ _ _) _))
  | release recipe tools =>
      rw [serve, kept_noteReached]
      exact append_gain _ (append_gain _ (append_gain _
        (gain_append (Cache.map_filledKeys_access _ _ _ _) _)))
  | engineerSection engineer =>
      rw [serve, kept_noteReached]
      exact append_gain _ (append_gain _ (append_gain _ (append_gain _
        (Cache.map_filledKeys_access _ _ _ _))))

/-! ## A run of lookups -/

section Runs

variable {source : Source}

theorem serveAll_concat (m : Memo) (qs : List Query) (q : Query) :
    serveAll source m (qs ++ [q]) = (serve source q (serveAll source m qs)).2 := by
  simp [serveAll]

theorem separate_serveAll (qs : List Query) :
    (serveAll source empty qs).Separate := by
  induction qs using List.reverseRecOn with
  | nil => exact separate_empty
  | append_singleton qs q ih =>
      rw [serveAll_concat]
      exact ih.serve source q

theorem faithful_serveAll (sets : source.TakesSets) (qs : List Query) :
    Faithful source (serveAll source empty qs) := by
  induction qs using List.reverseRecOn with
  | nil => exact faithful_empty source
  | append_singleton qs q ih =>
      rw [serveAll_concat]
      exact ih.serve sets q

/-- What is kept are the lookups that were served, each once. -/
theorem kept_serveAll (qs : List Query) :
    (serveAll source empty qs).kept ~ firsts ((qs.filter source.serves).map Query.asSet) := by
  induction qs using List.reverseRecOn with
  | nil => exact .nil
  | append_singleton qs q ih =>
      have separate : (serveAll source empty qs).Separate := separate_serveAll qs
      have known := misses_iff separate q
      rw [ih.mem_iff] at known
      rw [serveAll_concat, List.filter_append, List.map_append]
      refine (kept_serve source q _).trans ?_
      by_cases served : source.serves q = true
      · have asked : [q].filter source.serves = [q] := by simp [served]
        rw [served, Bool.and_true, asked, List.map_singleton, Distinct.firsts_concat,
          Distinct.addNew]
        split
        · rename_i missed
          rw [if_neg (known.mp missed)]
          exact (ih.cons q.asSet).trans (List.perm_append_singleton _ _).symm
        · rename_i found
          rw [if_pos (not_not.mp fun fresh => found (known.mpr fresh))]
          exact ih
      · simpa [served] using ih

theorem misses_serveAll_iff (sets : source.TakesSets) (qs : List Query) (q : Query) :
    (serveAll source empty qs).misses q = true ↔
      ¬(source.serves q = true ∧ q.asSet ∈ qs.map Query.asSet) := by
  rw [misses_iff (separate_serveAll qs), (kept_serveAll qs).mem_iff, Distinct.mem_firsts,
    not_iff_not]
  simp only [List.mem_map, List.mem_filter]
  constructor
  · rintro ⟨p, ⟨asked, served⟩, same⟩
    exact ⟨Source.serves_eq sets same ▸ served, p, asked, same⟩
  · rintro ⟨served, p, asked, same⟩
    exact ⟨p, ⟨asked, (Source.serves_eq sets same).trans served⟩, same⟩

theorem reached_serveAll_sublist (qs : List Query) :
    (serveAll source empty qs).reached <+ qs := by
  induction qs using List.reverseRecOn with
  | nil => exact .slnil
  | append_singleton qs q ih =>
      rw [serveAll_concat, reached_serve]
      refine ih.append ?_
      split <;> simp

/-- Of the lookups of one kind one reaches the source if they are served, and all do if
they are not. -/
theorem count_reached_serveAll (sets : source.TakesSets) (qs : List Query) (q : Query) :
    ((serveAll source empty qs).reached.map Query.asSet).count q.asSet =
      if source.serves q then min 1 ((qs.map Query.asSet).count q.asSet)
      else (qs.map Query.asSet).count q.asSet := by
  induction qs using List.reverseRecOn with
  | nil => simp [serveAll, empty]
  | append_singleton qs p ih =>
      have missed := misses_serveAll_iff sets qs p
      rw [serveAll_concat, reached_serve, List.map_append, List.count_append, ih,
        List.map_append, List.count_append, List.map_singleton]
      by_cases same : p.asSet = q.asSet
      · rw [Source.serves_eq sets same, same] at missed
        rw [same, List.count_singleton_self]
        by_cases served : source.serves q = true
        · by_cases asked : q.asSet ∈ qs.map Query.asSet
          · have once := List.count_pos_iff.mpr asked
            rw [if_neg fun fresh => missed.mp fresh ⟨served, asked⟩, if_pos served, if_pos served]
            rw [List.map_nil, List.count_nil]
            omega
          · rw [if_pos (missed.mpr fun known => asked known.2), if_pos served, if_pos served,
              List.count_eq_zero.mpr asked]
            simp [same]
        · rw [if_pos (missed.mpr fun known => served known.1), if_neg served, if_neg served]
          simp [same]
      · have other : [p.asSet].count q.asSet = 0 := by simp [same]
        have silent : ((if (serveAll source empty qs).misses p then [p] else []).map
            Query.asSet).count q.asSet = 0 := by
          split <;> simp [same]
        rw [other, silent, Nat.add_zero, Nat.add_zero]

/-- A memo of a source that takes tools as a set answers each lookup as the source does.
The source is asked once for each kind of lookup that it serves, and each time for one
that it does not; one entry is kept for each kind that was served. -/
theorem serveAll_transparent (sets : source.TakesSets) (qs : List Query) :
    (∀ before q after, qs = before ++ q :: after →
      (serve source q (serveAll source empty before)).1 = source q ∧
      (source.serves q = false →
        (serve source q (serveAll source empty before)).2.reached =
          (serveAll source empty before).reached ++ [q])) ∧
    (serveAll source empty qs).reached <+ qs ∧
    (∀ q ∈ qs, source.serves q = true →
      ((serveAll source empty qs).reached.map Query.kind).count q.kind = 1) ∧
    (serveAll source empty qs).size =
      ((qs.filter source.serves).map Query.kind).toFinset.card := by
  refine ⟨?answers, reached_serveAll_sublist qs, ?once, ?kept⟩
  case answers =>
    intro before q after split
    refine ⟨serve_answer (faithful_serveAll sets before) q, fun refused => ?_⟩
    have missed : (serveAll source empty before).misses q = true :=
      (misses_serveAll_iff sets before q).mpr fun known => by simp [refused] at known
    rw [reached_serve, if_pos missed]
  case once =>
    intro q asked served
    have some := List.count_pos_iff.mpr (List.mem_map_of_mem (f := Query.asSet) asked)
    rw [Query.count_kind, count_reached_serveAll sets, if_pos served]
    omega
  case kept =>
    rw [size_eq, (kept_serveAll qs).length_eq, Query.card_kinds]

/-- One kind of lookup is asked in two spellings, and the wafer counts are refused. -/
theorem reached_of_wafers_refused :
    let records : Records := { Records.empty with
      inhibitions := [⟨"T2", "B", "Y"⟩, ⟨"T3", "", "Y"⟩, ⟨"T1", "A", "N"⟩] }
    let refusal : Query → Option (SourceError ⊕ Payload)
      | .wafer _ => some (.inl ⟨"wafer", "offline"⟩)
      | _ => none
    let source := records.source.refusing refusal
    let first := Query.inhibition ["T1", "T2"] "R"
    let again := Query.inhibition ["T2", "T1", "T2"] "R"
    let refused := Query.wafer "L1"
    let m := serveAll source empty [first, refused, again, refused]
    (serve source again (serveAll source empty [first, refused])).1 =
        .ok [⟨"T2", "B", "Y"⟩, ⟨"T1", "A", "N"⟩] ∧
      (m.reached.map Query.kind).count again.kind = 1 ∧
      m.reached = [first, refused, refused] ∧
      m.size = 1 := by
  intro records refusal source first again refused m
  have refusals : Refusal.TakesSets refusal := by
    intro p q same
    cases p <;> cases q <;> simp_all [refusal, Query.asSet]
  have sets : source.TakesSets := Source.takesSets_refusing records.takesSets_source refusals
  obtain ⟨answers, -, once, kept⟩ := serveAll_transparent sets [first, refused, again, refused]
  refine ⟨(answers [first, refused] again [refused] rfl).1, ?_, by decide +kernel, ?_⟩
  · exact once again (by simp) rfl
  · exact kept.trans (by decide +kernel)

end Runs

end Memo
end RuncardReview
