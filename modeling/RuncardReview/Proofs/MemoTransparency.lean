import RuncardReview.Memo

/-!
# A memo answers as its source does

A memo keeps an answer under a key from which the order and the repeats of tools
are gone, so it can stand for its source only if the source does not look at them
either.  Then every answer it keeps is the source's answer to every query of that
key, and stays so whatever is asked: serving from the memo is asking the source.

**Results.**
* `Cache.Faithful.answer`, `Cache.Faithful.access`: a cache that keeps what the
  attempts give answers like the attempt and goes on keeping it.
* `Memo.serve_answer`, `Memo.Faithful.serve`: the same for a memo and its source.
* `Records.takesSets_source`, `Source.takesSets_refusing`: records in memory take
  tools as a set, also when some of their lookups fail or break off, as long as the
  choice of these lookups does so too.
* `Backend.source_withFaults`, `Faults.takesSets_refusal`: faults are such a choice.
-/

namespace RuncardReview

/-! ## Caches -/

namespace Cache

variable {ι κ ν ε : Type} [DecidableEq κ]

/-- Whatever is kept under the key of a question is the answer to the question. -/
def Faithful (c : Cache κ ν) (key : ι → κ) (answer : ι → Outcome ε ν) : Prop :=
  ∀ i v, c.get? (key i) = some v → answer i = .ok v

theorem faithful_empty (key : ι → κ) (answer : ι → Outcome ε ν) :
    (empty : Cache κ ν).Faithful key answer := by
  intro i v h
  cases h

theorem Faithful.answer {c : Cache κ ν} {key : ι → κ} {answer : ι → Outcome ε ν}
    (h : c.Faithful key answer) (i : ι) :
    (c.access (key i) (answer i)).answer = answer i := by
  unfold Cache.access
  split
  · rename_i v kept
    exact (h i v kept).symm
  · cases answer i <;> rfl

theorem Faithful.access {c : Cache κ ν} {key : ι → κ} {answer : ι → Outcome ε ν}
    (h : c.Faithful key answer) (alike : ∀ i j, key i = key j → answer i = answer j) (i : ι) :
    (c.access (key i) (answer i)).cache.Faithful key answer := by
  intro j v kept
  rw [get?_access] at kept
  cases before : c.get? (key j) with
  | some w =>
      simp only [before] at kept
      rw [h j w before, Option.some.inj kept]
  | none =>
      simp only [before] at kept
      split at kept
      · contradiction
      · rename_i w _ ok
        split at kept
        · rename_i same
          rw [← alike i j same, ok, Option.some.inj kept]
        · cases kept
      · cases kept

end Cache

/-! ## Keys of tools -/

theorem mem_insertName {a t : String} {l : List String} :
    t ∈ insertName a l ↔ t = a ∨ t ∈ l := by
  induction l with
  | nil => simp [insertName]
  | cons b l ih =>
      simp only [insertName]
      split
      · simp
      · split
        · rw [List.mem_cons, ih, List.mem_cons, or_left_comm]
        · rename_i h h'
          have same : a = b := Entries.eq_of_not_lt h h'
          simp [same]

theorem mem_toolKey {t : String} {tools : List String} :
    t ∈ toolKey tools ↔ t ∈ tools := by
  induction tools with
  | nil => simp [toolKey]
  | cons a tools ih =>
      rw [toolKey, List.foldr_cons, mem_insertName, List.mem_cons]
      exact or_congr_right ih

theorem pairwise_insertName (a : String) {l : List String} (h : l.Pairwise (· < ·)) :
    (insertName a l).Pairwise (· < ·) := by
  induction l with
  | nil => simp [insertName]
  | cons b l ih =>
      obtain ⟨hb, hl⟩ := List.pairwise_cons.mp h
      simp only [insertName]
      split
      · rename_i hab
        refine List.pairwise_cons.mpr ⟨fun t ht => ?_, h⟩
        rcases List.mem_cons.mp ht with rfl | ht
        · exact hab
        · exact String.lt_trans hab (hb t ht)
      · split
        · rename_i hba
          refine List.pairwise_cons.mpr ⟨fun t ht => ?_, ih hl⟩
          rcases mem_insertName.mp ht with rfl | ht
          · exact hba
          · exact hb t ht
        · exact h

theorem pairwise_toolKey (tools : List String) :
    (toolKey tools).Pairwise (· < ·) := by
  induction tools with
  | nil => exact List.Pairwise.nil
  | cons a tools ih => exact pairwise_insertName a ih

/-- Two lists of tools have one key exactly if they are one set. -/
theorem toolKey_eq_iff {tools others : List String} :
    toolKey tools = toolKey others ↔ ∀ t, t ∈ tools ↔ t ∈ others := by
  constructor
  · intro h t
    rw [← mem_toolKey, h, mem_toolKey]
  · intro h
    have distinct : ∀ l : List String, (toolKey l).Nodup := fun l =>
      (pairwise_toolKey l).imp Entries.ne_of_lt
    have same : (toolKey tools).Perm (toolKey others) :=
      (List.perm_ext_iff_of_nodup (distinct tools) (distinct others)).mpr fun t => by
        rw [mem_toolKey, mem_toolKey, h]
    exact same.eq_of_pairwise (fun a b _ _ hab hba => absurd hba (String.lt_asymm hab))
      (pairwise_toolKey tools) (pairwise_toolKey others)

/-- The source does not look at the order and the repeats of the tools it is asked
about. -/
structure Source.TakesSets (source : Source) : Prop where
  inhibition : ∀ {tools others : List String} (recipe : String),
    (∀ t, t ∈ tools ↔ t ∈ others) →
      source (.inhibition tools recipe) = source (.inhibition others recipe)
  release : ∀ {tools others : List String} (recipe : String),
    (∀ t, t ∈ tools ↔ t ∈ others) →
      source (.release recipe tools) = source (.release recipe others)

/-! ## Memos -/

namespace Memo

/-- Every answer that the memo keeps is the answer of the source. -/
structure Faithful (source : Source) (m : Memo) : Prop where
  forward : m.forward.Faithful (fun a : String × String => a)
    fun a => source (.forward a.1 a.2)
  inhibition : m.inhibition.Faithful (fun a : List String × String => (a.2, toolKey a.1))
    fun a => source (.inhibition a.1 a.2)
  wafer : m.wafer.Faithful (fun a : String => a) fun a => source (.wafer a)
  release : m.release.Faithful (fun a : String × List String => (a.1, toolKey a.2))
    fun a => source (.release a.1 a.2)
  engineerSection : m.engineerSection.Faithful (fun a : String => a)
    fun a => source (.engineerSection a)

theorem faithful_empty (source : Source) :
    Faithful source empty :=
  ⟨Cache.faithful_empty _ _, Cache.faithful_empty _ _, Cache.faithful_empty _ _,
    Cache.faithful_empty _ _, Cache.faithful_empty _ _⟩

theorem Faithful.noteReached {source : Source} {m : Memo} (h : Faithful source m)
    (attempted : Bool) (q : Query) :
    Faithful source (m.noteReached attempted q) := by
  cases attempted with
  | false => exact h
  | true => exact ⟨h.forward, h.inhibition, h.wafer, h.release, h.engineerSection⟩

theorem serve_answer {source : Source} {m : Memo} (h : Faithful source m) (q : Query) :
    (serve source q m).1 = source q := by
  cases q with
  | forward runcard condition => exact h.forward.answer (runcard, condition)
  | inhibition tools recipe => exact h.inhibition.answer (tools, recipe)
  | wafer runcard => exact h.wafer.answer runcard
  | release recipe tools => exact h.release.answer (recipe, tools)
  | engineerSection engineer => exact h.engineerSection.answer engineer

theorem Faithful.serve {source : Source} {m : Memo} (h : Faithful source m)
    (sets : source.TakesSets) (q : Query) :
    Faithful source (Memo.serve source q m).2 := by
  cases q with
  | forward runcard condition =>
      have kept := h.forward.access (fun i j same => by rw [same]) (runcard, condition)
      exact Faithful.noteReached
        (m := { m with forward := (m.forward.access _ _).cache })
        ⟨kept, h.inhibition, h.wafer, h.release, h.engineerSection⟩ _ _
  | inhibition tools recipe =>
      have kept := h.inhibition.access (fun i j same => ?_) (tools, recipe)
      · exact Faithful.noteReached
          (m := { m with inhibition := (m.inhibition.access _ _).cache })
          ⟨h.forward, kept, h.wafer, h.release, h.engineerSection⟩ _ _
      · obtain ⟨recipes, keys⟩ := Prod.mk.inj same
        rw [recipes]
        exact sets.inhibition j.2 (toolKey_eq_iff.mp keys)
  | wafer runcard =>
      have kept := h.wafer.access (fun i j same => by rw [same]) runcard
      exact Faithful.noteReached
        (m := { m with wafer := (m.wafer.access _ _).cache })
        ⟨h.forward, h.inhibition, kept, h.release, h.engineerSection⟩ _ _
  | release recipe tools =>
      have kept := h.release.access (fun i j same => ?_) (recipe, tools)
      · exact Faithful.noteReached
          (m := { m with release := (m.release.access _ _).cache })
          ⟨h.forward, h.inhibition, h.wafer, kept, h.engineerSection⟩ _ _
      · obtain ⟨recipes, keys⟩ := Prod.mk.inj same
        rw [recipes]
        exact sets.release j.1 (toolKey_eq_iff.mp keys)
  | engineerSection engineer =>
      have kept := h.engineerSection.access (fun i j same => by rw [same]) engineer
      exact Faithful.noteReached
        (m := { m with engineerSection := (m.engineerSection.access _ _).cache })
        ⟨h.forward, h.inhibition, h.wafer, h.release, kept⟩ _ _

end Memo

/-! ## Records in memory -/

namespace Records

theorem takesSets_source (s : Records) :
    s.source.TakesSets where
  inhibition := by
    intro tools others recipe same
    simp only [source, answer, same]
    rfl
  release := by
    intro tools others recipe same
    simp only [source, answer, same]
    rfl

end Records

/-! ## Lookups that fail or break off -/

/-- A query that names its tools as a set. -/
def Query.asSet : Query → Query
  | .inhibition tools recipe => .inhibition (toolKey tools) recipe
  | .release recipe tools => .release recipe (toolKey tools)
  | q => q

theorem Query.name_asSet (q : Query) :
    q.asSet.name = q.name := by
  cases q <;> rfl

theorem Query.subject_asSet (q : Query) :
    q.asSet.subject = q.subject := by
  cases q <;> rfl

/-- Which lookups fail and which break off.  The choice goes by all arguments of a lookup. -/
abbrev Refusal : Type :=
  Query → Option (SourceError ⊕ Payload)

/-- Two lookups that differ only in the order and the repeats of their tools are treated
alike. -/
def Refusal.TakesSets (refusal : Refusal) : Prop :=
  ∀ p q : Query, p.asSet = q.asSet → refusal p = refusal q

/-- A source of which chosen lookups always fail or always break off. -/
def Source.refusing (refusal : Refusal) (source : Source) : Source :=
  fun q =>
    match refusal q with
    | some (.inl e) => .error e
    | some (.inr p) => .panicked p
    | none => source q

theorem Source.takesSets_refusing {source : Source} {refusal : Refusal}
    (sets : source.TakesSets) (refusals : refusal.TakesSets) :
    (source.refusing refusal).TakesSets where
  inhibition := by
    intro tools others recipe same
    have alike : refusal (.inhibition tools recipe) = refusal (.inhibition others recipe) :=
      refusals _ _ (by simp only [Query.asSet, toolKey_eq_iff.mpr same])
    simp only [refusing, alike, sets.inhibition recipe same]
    rfl
  release := by
    intro tools others recipe same
    have alike : refusal (.release recipe tools) = refusal (.release recipe others) :=
      refusals _ _ (by simp only [Query.asSet, toolKey_eq_iff.mpr same])
    simp only [refusing, alike, sets.release recipe same]
    rfl

/-- The choice of the faults that go by the name and the subject of a lookup. -/
def Faults.refusal (fs : Faults) : Refusal :=
  fun q => (fs.for? q.name q.subject).map fun
    | .refuse reason => .inl ⟨q.name, reason⟩
    | .breakOff message => .inr (.text message)

/-- Tools are no part of the name and the subject. -/
theorem Faults.takesSets_refusal (fs : Faults) :
    fs.refusal.TakesSets := by
  intro p q same
  have name : p.name = q.name := by rw [← p.name_asSet, same, q.name_asSet]
  have subject : p.subject = q.subject := by rw [← p.subject_asSet, same, q.subject_asSet]
  rw [refusal, refusal, name, subject]

theorem Backend.source_withFaults (b : Backend) (fs : Faults) :
    (b.withFaults fs).source = b.source.refusing fs.refusal := by
  funext q
  simp only [withFaults, Faults.apply, Source.refusing, Faults.refusal]
  cases fs.for? q.name q.subject with
  | none => rfl
  | some f => cases f <;> rfl

end RuncardReview
