import RuncardReview.Proofs.CatalogSoundness
import RuncardReview.Proofs.ScanProgress

/-!
# The grammars come to an end

Every repetition in the grammar of catalogs and in that of chamber brackets goes on only over text
that its rounds take up.  Where a round may begin with nothing, as with a gap before a rule, a part
that is always there follows: a keyword, a name, a comma.  So no text brings the reading of a
catalog or of a recipe id to a halt.

Lists nest, and a value is read with a bound on the depth.  The bound is never reached, since the
text is too short for that, and so the values in a list are read as values are anywhere.

**Results.**
* `valueWithin_steady`: a depth of more than the length of the text is enough.
* `value_eq`: the values in a list are read as values.
* `setting_progressive`, `rule_progressive`, `group_progressive`: the items of a catalog.
* `repetitions_end`: the repetitions of both grammars, and what is read with them.
-/

namespace RuncardReview

namespace Scanner

variable {α : Type} {p : Scanner α}

/-- Every round of the repetition takes up some of the text, and the rounds come to an end. -/
structure Repeats (p : Scanner α) : Prop where
  advances : Advances p
  rounds : ∀ s, Rounds p s (many p s)

/-- Behind its first item the list goes on in rounds of a separator, which takes up some of the
text, and an item, and the rounds come to an end. -/
structure RepeatsAfter (p : Scanner α) (separator : Scanner Unit) : Prop where
  advances : Advances separator
  rounds : ∀ s, Rounds (separator >>= fun _ => p) s (manyAfter p separator s)

theorem Progressive.repeats (progressive : Progressive p) :
    Repeats p where
  advances := progressive.advances
  rounds s := rounds_many progressive.advances (progressive.steady s.length).settles (Nat.le_refl _)

theorem Progressive.repeatsAfter {separator : Scanner Unit} (between : Progressive separator)
    (steady : ∀ n, Steady n p) :
    RepeatsAfter p separator where
  advances := between.advances
  rounds s := by
    rw [manyAfter_eq_many between.advances (steady 0).leaves]
    exact (between.bind fun _ => steady).repeats.rounds s

end Scanner

namespace CatalogText

open Number Scanner

variable {n : ℕ}

/-! ## Layout -/

theorem atLineEnd_steady :
    Steady n atLineEnd where
  leaves s u rest found := by
    refine ⟨[], ?_, trivial⟩
    rcases atLineEnd_cases s with rfl | ⟨t, rfl⟩ | ⟨t, rfl⟩ | absent
    · exact (Step.found.inj found).2
    · exact (Step.found.inj found).2
    · exact (Step.found.inj found).2
    · cases absent.symm.trans found
  settles s _ := by
    unfold atLineEnd
    split <;> simp

theorem comment_progressive :
    Progressive comment :=
  (Progressive.char '#').bind fun _ _ => (Steady.span _).bind fun _ => atLineEnd_steady

theorem gapPiece_progressive :
    Progressive gapPiece :=
  ((Progressive.span1 _).bind fun _ _ => .pure ()).orElse comment_progressive

theorem gap_steady :
    Steady n gap :=
  ((gapPiece_progressive.steady n).many gapPiece_progressive.advances).bind fun _ => .pure ()

theorem lineBlanks_steady :
    Steady n lineBlanks :=
  (Steady.span _).bind fun _ => .pure ()

theorem keyword_progressive {α : Type} {p : Scanner α} {w : List Char} (some : w ≠ [])
    (behind : ∀ n, Steady n p) :
    Progressive (do gap; word w; p) :=
  Steady.bind_progressive (fun _ => gap_steady) fun _ =>
    (Progressive.word some).bind fun _ => behind

/-! ## Values -/

theorem quoted_steady :
    Steady n quoted :=
  (Steady.char '"').bind fun _ => (Steady.span _).bind fun _ =>
    ((Steady.char '"').require.expecting _).bind fun _ => .pure _

theorem number_steady :
    Steady n number := by
  have decimals : Steady n decimals := (Steady.char '.').bind fun _ => .span1 _
  refine (Steady.char '-').opt.bind fun sign => (Steady.span1 _).bind fun whole =>
    decimals.opt.bind fun fraction => ?_
  cases fraction with
  | some ds => exact .pure _
  | none =>
      dsimp only
      cases int64? (signed sign.isSome (digits whole)) with
      | some m => exact .pure _
      | none => exact ⟨nofun, fun _ _ => nofun⟩

theorem listComma_progressive :
    Progressive listComma :=
  Steady.bind_progressive (fun _ => gap_steady) fun _ => .char ','

/-- The items of a list stand behind its bracket, so in a shorter text. -/
theorem bracketed_steady {item : Scanner Value} (items : Reads item fun v _ => PlainValue v)
    (inner : ∀ m, m < n → Steady m item) :
    Steady n (bracketed item) where
  leaves := (bracketed_reads items).leaves
  settles := (Progressive.char '[').settles_bind fun _ m shorter =>
    (((inner m shorter).separated listComma_progressive).bind fun _ =>
      gap_steady.bind fun _ => (Steady.char ']').require.bind fun _ => .pure _).settles

theorem form_steady {item : Scanner Value} (lists : Steady n (bracketed item)) :
    Steady n (form item) :=
  (quoted_steady.map _).orElse <| lists.orElse <|
    ((Steady.word _).map _).orElse <| ((Steady.word _).map _).orElse number_steady

/-- Every level of nesting takes a bracket, so a depth of more than the length of the text is
enough. -/
theorem valueWithin_steady {depth : ℕ} (deep : n < depth) :
    Steady n (valueWithin depth) := by
  induction depth generalizing n with
  | zero => omega
  | succ depth ih =>
      have lists : Steady n (bracketed (valueWithin depth)) :=
        bracketed_steady (valueWithin_reads depth) fun m shorter => ih (by omega)
      exact gap_steady.bind fun _ => (form_steady lists).expecting _

theorem value_steady :
    Steady n value where
  leaves s := (valueWithin_reads (s.length + 1)).leaves s
  settles s _ := (valueWithin_steady s.length.lt_succ_self).settles s (Nat.le_refl _)

theorem form_extends {item item' : Scanner Value} (further : Extends item item') :
    Extends (form item) (form item') := by
  have lists : Extends (bracketed item) (bracketed item') :=
    (Extends.refl _).bind fun _ => further.separated.bind fun _ => .refl _
  exact (Extends.refl _).orElse (lists.orElse (.refl _))

theorem valueWithin_extends {d d' : ℕ} (deeper : d ≤ d') :
    Extends (valueWithin d) (valueWithin d') := by
  induction d generalizing d' with
  | zero => exact fun s going => absurd rfl going
  | succ d ih =>
      obtain ⟨d', rfl⟩ : ∃ e, d' = e + 1 := ⟨d' - 1, by omega⟩
      exact (Extends.refl gap).bind fun _ => (form_extends (ih (by omega))).expecting _

/-- What is read at any depth is read as a value. -/
theorem valueWithin_extends_value (depth : ℕ) :
    Extends (valueWithin depth) value := by
  intro s going
  have settled : value s ≠ .stuck := value_steady.settles s (Nat.le_refl _)
  -- The depth may be more than a value is given or less; the scanner that does not halt decides.
  rcases Nat.le_total depth (s.length + 1) with shallow | deep
  · exact valueWithin_extends shallow s going
  · exact (valueWithin_extends deep s settled).symm

/-- The values in a list are read as values. -/
theorem value_eq :
    value = (do gap; expecting "value" (form value)) := by
  funext s
  have settled : value s ≠ .stuck := value_steady.settles s (Nat.le_refl _)
  have further : Extends (valueWithin (s.length + 1)) (do gap; expecting "value" (form value)) :=
    (Extends.refl gap).bind fun _ => (form_extends (valueWithin_extends_value _)).expecting _
  exact (further s settled).symm

theorem requiredValue_steady :
    Steady n requiredValue where
  leaves := requiredValue_reads.leaves
  settles s short := by
    have place : Steady n valuePlace :=
      gap_steady.bind fun _ => (Steady.char '-').opt.bind fun _ => .pure ()
    have here := value_steady.settles s short
    have there := place.settles s short
    unfold requiredValue
    cases found : value s with
    | absent => cases behind : valuePlace s <;> simp_all [Step.andThen]
    | _ => simp_all

/-! ## Tools -/

theorem tool_steady :
    Steady n tool :=
  (Steady.span1 _).bind fun _ => .pure _

theorem toolComma_progressive :
    Progressive toolComma :=
  Steady.bind_progressive (fun _ => lineBlanks_steady) fun _ =>
    (Progressive.char ',').bind fun _ _ => lineBlanks_steady

theorem toolsLine_steady :
    Steady n toolsLine := by
  refine (keyword_progressive (by decide) fun _ => ?_).steady n
  exact lineBlanks_steady.bind fun _ => (Steady.char ':').bind fun _ =>
    lineBlanks_steady.bind fun _ =>
      (tool_steady.separated1 toolComma_progressive).require.expecting _

/-! ## Rules -/

theorem name_progressive :
    Progressive name :=
  (Progressive.span1 _).bind fun _ _ => (Steady.span _).bind fun _ => .pure _

theorem lotTypes_steady :
    Steady n lotTypes :=
  (Steady.char '[').bind fun _ => ((Steady.span1 _).separated (.char ',')).bind fun _ =>
    (Steady.char ']').require.bind fun _ => .pure _

theorem setting_progressive :
    Progressive setting :=
  Steady.bind_progressive (fun _ => gap_steady) fun _ => name_progressive.bind fun _ _ =>
    lineBlanks_steady.bind fun _ => (Steady.char '=').bind fun _ =>
      requiredValue_steady.bind fun _ => .pure _

theorem settings_steady :
    Steady n settings := by
  have colon : Steady n settingsColon := lineBlanks_steady.bind fun _ => .char ':'
  refine colon.opt.bind fun opened => ?_
  cases opened with
  | none => exact .pure none
  | some _ =>
      exact ((setting_progressive.steady n).many setting_progressive.advances).bind fun _ => .pure _

theorem rule_progressive :
    Progressive rule := by
  refine keyword_progressive (by decide) fun n => ?_
  have ruleType := (name_progressive.steady n).require.expecting "rule type"
  refine (Steady.span1 _).bind fun _ => ruleType.bind fun _ => lineBlanks_steady.bind fun _ =>
    (lotTypes_steady.require.expecting _).bind fun _ => settings_steady.bind fun given => ?_
  cases given <;> exact .pure _

/-! ## Groups -/

theorem group_progressive :
    Progressive group := by
  refine keyword_progressive (by decide) fun n => ?_
  have label : Steady n groupName := (Steady.span1 _).bind fun _ => .pure _
  have rules : Steady n (many rule) := (rule_progressive.steady n).many rule_progressive.advances
  exact (Steady.span1 _).bind fun _ => (label.require.expecting _).bind fun _ =>
    lineBlanks_steady.bind fun _ => (Steady.char ':').require.bind fun _ =>
      toolsLine_steady.opt.bind fun _ => rules.bind fun _ => .pure _

theorem groups_steady :
    Steady n groups :=
  ((group_progressive.steady n).many group_progressive.advances).bind fun _ =>
    gap_steady.bind fun _ => .pure _

theorem read_ne_stuck (text : String) :
    read text ≠ .error .stuck := by
  have settled := groups_steady.settles text.toList (Nat.le_refl _)
  unfold read
  split <;> simp_all

end CatalogText

namespace Recipe

open Scanner

variable {n : ℕ}

theorem piece_progressive :
    Progressive piece := by
  have bracketed : Progressive bracket := (Progressive.char '\x7b').bind fun _ _ =>
    (Steady.span _).bind fun _ => (Steady.char '\x7d').bind fun _ => .pure _
  exact (bracketed.bind fun _ _ => .pure _).orElse (Progressive.anyChar.bind fun _ _ => .pure _)

theorem bracketContents_steady :
    Steady n bracketContents :=
  ((piece_progressive.steady n).many piece_progressive.advances).bind fun _ => .pure _

theorem orSet_steady :
    Steady n orSet := by
  have all : Steady n (do atEnd; return [wildcard]) := Steady.atEnd.bind fun _ => .pure _
  have named : Steady n namedChambers :=
    (Steady.char '(').bind fun _ => (Steady.span _).bind fun _ => (Steady.char ')').bind fun _ =>
      (Steady.span _).bind fun _ => Steady.atEnd.bind fun _ => .pure _
  have letters : Steady n letterChambers := Steady.remainder.bind fun _ => .pure _
  exact (Steady.span _).bind fun _ => (Steady.char 'c').opt.bind fun _ =>
    (Steady.span _).bind fun _ => all.orElse (named.orElse letters)

end Recipe

open Scanner CatalogText

/-- Every repetition of the two grammars comes to an end on every text, and so do a catalog and the
brackets of a recipe id. -/
theorem repetitions_end :
    (Repeats gapPiece ∧ Repeats setting ∧ Repeats rule ∧ Repeats group ∧ Repeats Recipe.piece) ∧
    (RepeatsAfter value listComma ∧ RepeatsAfter tool toolComma ∧
      RepeatsAfter (span1 fun c => c ≠ ',' && c ≠ ']') (char ',')) ∧
    value = (do gap; expecting "value" (form value)) ∧
    (∀ text, read text ≠ .error .stuck) ∧
    (∀ s, Recipe.bracketContents s ≠ .stuck) ∧
    ∀ s, Recipe.orSet s ≠ .stuck := by
  refine ⟨⟨?_, ?_, ?_, ?_, ?_⟩, ⟨?_, ?_, ?_⟩, value_eq, read_ne_stuck, fun s => ?_, fun s => ?_⟩
  · exact gapPiece_progressive.repeats
  · exact setting_progressive.repeats
  · exact rule_progressive.repeats
  · exact group_progressive.repeats
  · exact Recipe.piece_progressive.repeats
  · exact listComma_progressive.repeatsAfter fun _ => value_steady
  · exact toolComma_progressive.repeatsAfter fun _ => tool_steady
  · exact (Progressive.char ',').repeatsAfter fun _ => .span1 _
  · exact Recipe.bracketContents_steady.settles s (Nat.le_refl _)
  · exact Recipe.orSet_steady.settles s (Nat.le_refl _)

end RuncardReview
