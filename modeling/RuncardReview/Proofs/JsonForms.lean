import RuncardReview.Json.Model

/-!
# Fields, lists and values read back from JSON

A value is written without a mark of its kind, so that the reader has to find out what it was.  It
tries the forms one after the other and takes the first that accepts what is there.  A double is
accepted where a whole number stands as well, so it matters that integers are tried before, and
that the reader of integers accepts nothing that is written with a fraction or an exponent.

Doubles that are not finite are written as `null`, which no form accepts.  All laws of this module
are therefore exact: what is written is read back if every double in it is finite, and it is not
read at all otherwise.

**Results.**
* `Json.fields?_zip`: the fields of a record are found under their names.
* `Json.ReadsBack`: the law, with `.list` and `.option` for what is built of other things.
* `Value.ofJson?_eq_first_form`: the reader of values takes the first form that accepts.
* `Value.readsBack`, `Entries.readsBack`: the law for values at every depth, and for entries.
-/

namespace RuncardReview

open Number

namespace Json

variable {α : Type}

/-! ## The fields of a record -/

theorem named_zip_of_not_mem {n : String} {names : List String} (absent : n ∉ names)
    (js : List Json) : named n (names.zip js) = [] := by
  have others : (names.zip js).filter (fun f => f.1 = n) = [] := by
    refine List.filter_eq_nil_iff.mpr fun f hf => ?_
    rw [decide_eq_true_iff]
    rintro rfl
    exact absent (List.of_mem_zip hf).1
  rw [named, others, List.map_nil]

theorem map_named_zip : ∀ {names : List String} {js : List Json}, names.Nodup →
    names.length = js.length → (names.map fun n => named n (names.zip js)) = js.map fun j => [j]
  | [], [], _, _ => rfl
  | n :: names, j :: js, distinct, lengths => by
      obtain ⟨fresh, distinct'⟩ := List.nodup_cons.mp distinct
      have here : named n ((n :: names).zip (j :: js)) = [j] := by
        have rest : named n (names.zip js) = [] := named_zip_of_not_mem fresh js
        rw [named] at rest ⊢
        rw [List.zip_cons_cons, List.filter_cons_of_pos (by simp), List.map_cons, rest]
      have there : ∀ m ∈ names, named m ((n :: names).zip (j :: js)) = named m (names.zip js) := by
        intro m hm
        have apart : n ≠ m := fun e => fresh (e ▸ hm)
        rw [named, List.zip_cons_cons, List.filter_cons_of_neg (by simp [apart]), named]
      rw [List.map_cons, here, List.map_cons, List.map_congr_left there,
        map_named_zip distinct' (Nat.succ.inj lengths)]

/-- Fields of different names are found in the order in which they are asked for. -/
theorem fields?_zip (names : List String) (js : List Json) (distinct : names.Nodup)
    (lengths : names.length = js.length) :
    fields? names (.object (names.zip js)) = some (js.map some) := by
  have found := map_named_zip distinct lengths
  have once : (names.all fun n => (named n (names.zip js)).length ≤ 1) = true := by
    refine List.all_eq_true.mpr fun n hn => ?_
    have : named n (names.zip js) ∈ js.map fun j => [j] := found ▸ List.mem_map_of_mem hn
    obtain ⟨j, -, only⟩ := List.mem_map.mp this
    rw [← only]
    rfl
  have heads := congrArg (List.map List.head?) found
  rw [List.map_map, List.map_map] at heads
  rw [fields?, if_pos once]
  exact congrArg some heads

/-! ## The law -/

/-- What is written of something is read as the same thing if the doubles in it are finite, and is
not read otherwise. -/
def ReadsBack (floats : α → List Float) (write : α → Json) (read : Json → Option α) : Prop :=
  ∀ a, read (write a) = if (floats a).all isFinite then some a else none

namespace ReadsBack

variable {floats : α → List Float} {write : α → Json} {read : Json → Option α}

theorem text : ReadsBack (fun _ => []) Json.text text? :=
  fun _ => rfl

theorem each (law : ReadsBack floats write read) :
    ∀ l, each? read (l.map write) = if (l.flatMap floats).all isFinite then some l else none
  | [] => rfl
  | a :: l => by
      simp only [List.map_cons, each?, law a, law.each l, List.flatMap_cons, List.all_append]
      cases (floats a).all isFinite <;> cases (l.flatMap floats).all isFinite <;> rfl

theorem list (law : ReadsBack floats write read) :
    ReadsBack (fun l => l.flatMap floats) (fun l => .array (l.map write)) (list? read) :=
  law.each

/-- A list in which there are no doubles. -/
theorem plainList (law : ReadsBack (fun _ => []) write read) (l : List α) :
    list? read (.array (l.map write)) = some l := by
  have none : l.flatMap (fun _ => ([] : List Float)) = [] := by simp
  exact (law.each l).trans (by rw [none]; rfl)

/-- What may be missing has to be written as something else than `null` where it is there. -/
theorem option (law : ReadsBack floats write read) (there : ∀ a, write a ≠ null) :
    ReadsBack (fun o => o.elim [] floats) (ofOption write) (nullable read) := by
  intro o
  cases o with
  | none => rfl
  | some a =>
      have reads : nullable read (write a) = (read (write a)).map some := by
        cases h : write a with
        | null => exact absurd h (there a)
        | _ => rfl
      rw [ofOption, reads, law a]
      show _ = if (floats a).all isFinite then some (some a) else none
      cases (floats a).all isFinite <;> rfl

theorem eq_some_iff (law : ReadsBack floats write read) (a : α) :
    read (write a) = some a ↔ ∀ x ∈ floats a, isFinite x = true := by
  rw [law a, ← List.all_eq_true]
  split <;> simp [*]

end ReadsBack
end Json

/-! ## Values -/

namespace Value

mutual

/-- The doubles of a value, at every depth. -/
def floats : Value → List Float
  | .int _ => []
  | .float x => [x]
  | .bool _ => []
  | .text _ => []
  | .list xs => floatsAll xs

def floatsAll : List Value → List Float
  | [] => []
  | x :: xs => floats x ++ floatsAll xs

end

/-- The integer form: a number without fraction and exponent that fits into 64 bits. -/
def asInt? : Json → Option Value
  | .int n => (int64? n).map .int
  | _ => none

/-- The double form: any number. -/
def asFloat? : Json → Option Value
  | .int n => some (.float (ofInteger n))
  | .float x => some (.float x)
  | _ => none

def asBool? (j : Json) : Option Value :=
  (Json.bool? j).map .bool

def asText? (j : Json) : Option Value :=
  (Json.text? j).map .text

/-- The list form, of which each member is a value of any form. -/
def asList? : Json → Option Value
  | .array xs => (ofJsonAll? xs).map .list
  | _ => none

/-- The forms of a value, in the order in which they are tried. -/
def forms : List (Json → Option Value) :=
  [asInt?, asFloat?, asBool?, asText?, asList?]

theorem ofJson?_eq_first_form (j : Json) : ofJson? j = forms.findSome? fun form => form j := by
  cases j with
  | int n =>
      rw [ofJson?, ofWhole, forms, List.findSome?_cons, asInt?]
      cases int64? n <;> rfl
  | array xs =>
      -- No form before that of the lists accepts an array.
      have refused : (forms.take 4).findSome? (fun form => form (.array xs)) = none := rfl
      rw [ofJson?, ← List.take_append_drop 4 forms, List.findSome?_append, refused, Option.none_or]
      show _ = [asList?].findSome? fun form => form (.array xs)
      rw [List.findSome?_cons, asList?]
      cases ofJsonAll? xs <;> rfl
  | _ => rfl

theorem int64?_toInt (n : Int64) : int64? n.toInt = some n := by
  have low : smallest ≤ n.toInt := Int64.le_toInt n
  have high : n.toInt ≤ largest := Int64.toInt_le n
  rw [int64?, if_pos ⟨low, high⟩, Int64.ofInt_toInt]

/-- An integer is taken by the first form, which comes before that of the doubles. -/
theorem ofJson?_toJson_int (n : Int64) : ofJson? (toJson (.int n)) = some (.int n) := by
  rw [ofJson?_eq_first_form, toJson]
  simp [forms, asInt?, int64?_toInt]

/-- A double, a whole one too, is refused by the form of the integers. -/
theorem ofJson?_toJson_float (x : Float) :
    ofJson? (toJson (.float x)) = if isFinite x then some (.float x) else none := by
  rw [ofJson?_eq_first_form, toJson]
  cases isFinite x <;> rfl

example : ofJsonAll? [.int 25, .float 25.0] = some [.int 25, .float 25.0] := by rfl

mutual

theorem readsBack : ∀ v : Value,
    ofJson? (toJson v) = if v.floats.all isFinite then some v else none
  | .int n => ofJson?_toJson_int n
  | .float x => by
      rw [ofJson?_toJson_float, floats, List.all_cons, List.all_nil, Bool.and_true]
  | .bool _ => rfl
  | .text _ => rfl
  | .list xs => by
      have members := readsBackAll xs
      rw [toJson, ofJson?, members, floats]
      cases (floatsAll xs).all isFinite <;> rfl

theorem readsBackAll : ∀ xs : List Value,
    ofJsonAll? (toJsonAll xs) = if (floatsAll xs).all isFinite then some xs else none
  | [] => rfl
  | x :: xs => by
      rw [toJsonAll, ofJsonAll?, readsBack x, readsBackAll xs, floatsAll, List.all_append]
      cases x.floats.all isFinite <;> cases (floatsAll xs).all isFinite <;> rfl

end
end Value

/-! ## Entries -/

namespace Entries

def floats (s : Entries Value) : List Float :=
  s.toList.flatMap fun e => e.2.floats

theorem fieldsOfJson?_map : ∀ l : List (String × Value),
    fieldsOfJson? (l.map fun e => (e.1, e.2.toJson)) =
      if (l.flatMap fun e => e.2.floats).all isFinite then some l else none
  | [] => rfl
  | e :: l => by
      simp only [List.map_cons, fieldsOfJson?, Value.readsBack e.2, fieldsOfJson?_map l,
        List.flatMap_cons, List.all_append]
      cases e.2.floats.all isFinite <;>
        cases (l.flatMap fun e => e.2.floats).all isFinite <;> rfl

/-- Entries are an object, an empty one if there are none, and so not taken for missing. -/
theorem toJson_ne_null (s : Entries Value) : toJson s ≠ .null :=
  Json.noConfusion

theorem readsBack : Json.ReadsBack floats toJson ofJson? := by
  intro s
  rw [toJson, ofJson?, fieldsOfJson?_map, floats]
  cases (s.toList.flatMap fun e => e.2.floats).all isFinite with
  | true => exact congrArg some (ofList_of_perm (.refl s.toList))
  | false => rfl

end Entries
end RuncardReview
