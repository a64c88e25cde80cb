import Mathlib.Data.List.Nodup
import RuncardReview.Proofs.TrimmedItems
import RuncardReview.Proofs.ValueReading

/-!
# Written rules are read back

The lot types lose the blanks around them, and the settings are collected by name, in
whatever order they stand.

**Results.**
* `lotTypes_found`, `settings_found`, `rule_found`: the parts of a rule, and a rule.
-/

namespace RuncardReview

namespace CatalogText

open Text Number Scanner

variable {t rest : List Char}

/-! ## Lot types -/

/-- A character of a lot type. -/
def isLotChar (c : Char) : Bool :=
  c ≠ ',' && c ≠ ']'

theorem isBlank_isLotChar {c : Char} (blank : isBlank c = true) :
    isLotChar c = true := by
  have : c ≠ ',' ∧ c ≠ ']' := by
    constructor <;> rintro rfl <;> exact absurd blank (by decide)
  simp [isLotChar, this]

/-- A lot type between its separators. -/
def LotPiece (piece t : List Char) : Prop :=
  piece = t ∧ t ≠ [] ∧ ∀ c ∈ t, isLotChar c = true

theorem pieces_found {pieces : List (List Char)}
    (written : Separated LotCommaText LotPiece pieces t) (rest : List Char) :
    separated1 (span1 isLotChar) (char ',') (t ++ ']' :: rest) = .found pieces (']' :: rest) := by
  refine separated1_found (Stops isLotChar) ?_ (fun _ piece => piece.2.1) ?_ ?_ ?_ written
    (stops_cons.mpr rfl) (char_absent (by simp))
  · rintro _ t rest - ⟨rfl, some, run⟩ next
    exact span1_found some run next
  · rintro _ _ t rfl - _ rest
    exact char_found ',' (t ++ rest)
  · rintro _ rfl
    simp
  · rintro _ rfl rest
    exact stops_cons.mpr rfl

theorem writesLot_piece {lot : String} (plain : PlainLot lot) (written : WritesLot lot t) :
    LotPiece t t ∧ trimChars t = lot.toList := by
  obtain ⟨some, trimmed, chars⟩ := plain
  obtain @⟨b, b', front, back⟩ := written
  refine ⟨⟨rfl, by simp [some], fun c hc => ?_⟩, ?_⟩
  · rcases List.mem_append.mp hc with hc | hc
    · exact isBlank_isLotChar (front c hc)
    · rcases List.mem_append.mp hc with hc | hc
      · simp [isLotChar, chars c hc]
      · exact isBlank_isLotChar (back c hc)
  · have text : (trim lot).toList = trimChars lot.toList := String.toList_ofList
    rw [trimChars_padded front back, ← text, trimmed]

theorem writesLots_pieces {lots : List String} (plain : ∀ lot ∈ lots, PlainLot lot)
    (written : Separated LotCommaText WritesLot lots t) :
    ∃ pieces, Separated LotCommaText LotPiece pieces t ∧
      pieces.map trimChars = lots.map String.toList := by
  induction written with
  | one only =>
      obtain ⟨piece, trimmed⟩ := writesLot_piece (plain _ List.mem_cons_self) only
      exact ⟨[_], .one piece, by simp [trimmed]⟩
  | cons first sep _ ih =>
      obtain ⟨piece, trimmed⟩ := writesLot_piece (plain _ List.mem_cons_self) first
      obtain ⟨pieces, others, eq⟩ := ih fun lot h => plain lot (List.mem_cons_of_mem _ h)
      exact ⟨_ :: pieces, .cons piece sep others, by simp [trimmed, eq]⟩

theorem lotTypes_of_pieces {pieces : List (List Char)} {s : List Char}
    (found : separated (span1 isLotChar) (char ',') s = .found pieces (']' :: rest)) :
    lotTypes ('[' :: s) =
      .found (((pieces.map trimChars).filter fun p => !p.isEmpty).map String.ofList) rest := by
  rw [lotTypes, bind_found (char_found '[' s)]
  exact (bind_found found).trans (bind_found (require_found (char_found ']' rest)))

theorem lotTypes_found {lots : List String} (plain : ∀ lot ∈ lots, PlainLot lot)
    (written : WritesLots lots t) (rest : List Char) :
    lotTypes ('[' :: (t ++ ']' :: rest)) = .found lots rest := by
  cases written with
  | none blank =>
      cases t with
      | nil =>
          rw [List.nil_append,
            lotTypes_of_pieces (separated_absent _ (span1_absent (stops_cons.mpr rfl)))]
          rfl
      | cons c t =>
          have piece : LotPiece (c :: t) (c :: t) :=
            ⟨rfl, by simp, fun d hd => isBlank_isLotChar (blank d hd)⟩
          have none : trimChars (c :: t) = [] := by
            have : trimChars ((c :: t) ++ ([] ++ [])) = trimChars [] :=
              trimChars_padded blank (by simp)
            simpa [trimChars] using this
          rw [lotTypes_of_pieces (separated_found (pieces_found (.one piece) rest))]
          simp [none]
  | some items =>
      obtain ⟨pieces, written, trimmed⟩ := writesLots_pieces plain items
      have all : (lots.map String.toList).filter (fun p => !p.isEmpty) =
          lots.map String.toList := by
        refine List.filter_eq_self.mpr fun p hp => ?_
        obtain ⟨lot, member, rfl⟩ := List.mem_map.mp hp
        simp [(plain lot member).1]
      rw [lotTypes_of_pieces (separated_found (pieces_found written rest)), trimmed, all,
        List.map_map]
      simp [Function.comp_def]

/-! ## Settings -/

theorem settings_found {given : Option Settings}
    (plain : ∀ s, given = some s → ∀ e ∈ s.toList, IsName e.1 ∧ PlainValue e.2)
    (written : WritesSettings given t) (next : Next afterRule rest) :
    settings (t ++ rest) = .found given rest := by
  cases written with
  | absent =>
      rw [List.nil_append, settings, bind_found (opt_absent next.noColon)]
      rfl
  | @given s order b t blanks perm items =>
      have plain' : ∀ e ∈ order, IsName e.1 ∧ PlainValue e.2 := fun e he =>
        plain s rfl e (perm.mem_iff.mp he)
      have colon : settingsColon (b ++ ':' :: (t ++ rest)) = .found () (t ++ rest) := by
        rw [settingsColon, bind_found (lineBlanks_found blanks (stops_cons.mpr rfl)), char_found]
      have entries : many setting (t ++ rest) = .found order rest :=
        many_found Apart
          (fun member item apart =>
            setting_found (plain' _ member).1 (plain' _ member).2 item apart)
          (fun _ item => setting_ne_nil item)
          (fun member item rest => setting_apart (plain' _ member).1 item rest)
          items next.apart next.noSetting
      rw [List.append_assoc, List.cons_append, settings, bind_found (opt_found colon)]
      refine (bind_found entries).trans ?_
      rw [Entries.ofList_of_perm perm]
      rfl

/-! ## Rules -/

theorem isNameStart_noBlank {c : Char} (start : isNameStart c = true) :
    isLineBlank c = false := by
  refine Bool.eq_false_iff.mpr fun blank => ?_
  have space := isLineBlank_space blank
  rw [(isNameStart_plain start).1.1] at space
  cases space

theorem rule_found {r : Rule} (plain : PlainRule r) (written : WritesRule r t)
    (next : Next afterRule rest) :
    rule (t ++ rest) = .found r rest := by
  obtain @⟨g, b, b', lots, given, gapped, blanks, wide, blanks', lotText, settingText⟩ := written
  have stop : Stops isNameChar (b' ++ '[' :: (lots ++ ']' :: (given ++ rest))) := by
    cases b' with
    | nil => exact stops_cons.mpr rfl
    | cons c b' => exact stops_cons.mpr (isLineBlank_noName (blanks' c List.mem_cons_self))
  have start : Stops isLineBlank
      (r.ruleType.toList ++ (b' ++ '[' :: (lots ++ ']' :: (given ++ rest)))) := by
    obtain ⟨c, s, eq, start⟩ := plain.type.front
      (b' ++ '[' :: (lots ++ ']' :: (given ++ rest)))
    rw [eq]
    exact stops_cons.mpr (isNameStart_noBlank start)
  have distinct : Distinct.addAllNew [] r.lotTypes = r.lotTypes :=
    Distinct.addAllNew_of_nodup (l := []) plain.distinct
  simp only [List.append_assoc, List.cons_append]
  rw [rule, bind_found (gap_found gapped ((isName_keyword (by simp)).solid _)),
    bind_found (word_found _ _), bind_found (span1_found wide blanks start),
    bind_found (expecting_found (require_found (name_found plain.type stop))),
    bind_found (lineBlanks_found blanks' (stops_cons.mpr rfl)),
    bind_found (expecting_found (require_found (lotTypes_found plain.lots lotText _))),
    bind_found (settings_found plain.settings settingText next)]
  obtain ⟨ruleType, lotTypes, settings⟩ := r
  cases settings with
  | none =>
      show Step.found (⟨ruleType, Distinct.addAllNew [] lotTypes, none⟩ : Rule) rest = _
      rw [distinct]
  | some s =>
      show Step.found (⟨ruleType, Distinct.addAllNew [] lotTypes, some s⟩ : Rule) rest = _
      rw [distinct]

end CatalogText
end RuncardReview
