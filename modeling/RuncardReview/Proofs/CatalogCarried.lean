import RuncardReview.Proofs.RuleReading
import RuncardReview.Proofs.ScanCarried

/-!
# Catalog texts that go on

A line feed and the text of further groups are added to a text.  A gap that ends with the
text now goes on into the added one, and a comment at the end of the text is ended by the
line feed.  So a scanner that begins with a gap may be led to the first group of the added
text, and has to see nothing there.

**Results.**
* `gap_append`: where a gap ends when text is added.
* `Continues`: a text that begins as the rest of a catalog does.
* `valueWithin_carries`, `setting_carries`, `rule_carries`: the items of a group.
* `group_append`: a group is found as before.
-/

namespace RuncardReview
namespace CatalogText

open Text Number Scanner

/-! ## Gaps -/

/-- The text goes on, and not with a comment. -/
def GoesOn (s : List Char) : Prop :=
  ∃ c r, s = c :: r ∧ c ≠ '#'

variable {b s r : List Char}

theorem not_goesOn_nil :
    ¬GoesOn [] := by
  rintro ⟨c, r, e, -⟩
  cases e

theorem not_goesOn_comment :
    ¬GoesOn ('#' :: s) := by
  rintro ⟨c, r, e, other⟩
  exact other (List.cons.inj e).1.symm

/-- A line that has ended has ended with an added line feed as well.  One that has not may
end now, if a carriage return is all that is left of it. -/
theorem atLineEnd_append (s b : List Char) :
    (atLineEnd s = .found () s ∧ atLineEnd (s ++ '\n' :: b) = .found () (s ++ '\n' :: b)) ∨
      atLineEnd s = .absent ∧ (s = ['\r'] ∨ atLineEnd (s ++ '\n' :: b) = .absent) := by
  cases s with
  | nil => exact Or.inl ⟨rfl, rfl⟩
  | cons c s =>
      by_cases lineFeed : c = '\n'
      · subst lineFeed
        exact Or.inl ⟨rfl, rfl⟩
      · by_cases carriage : c = '\r'
        · subst carriage
          cases s with
          | nil => exact Or.inr ⟨rfl, Or.inl rfl⟩
          | cons d s =>
              by_cases lineFeed : d = '\n'
              · subst lineFeed
                exact Or.inl ⟨rfl, rfl⟩
              · simp [atLineEnd, lineFeed]
        · simp [atLineEnd, carriage]

/-- Where a gap ends the text goes on as before, unless the text has ended there: then the
gap goes on into the added text. -/
theorem gap_append (b : List Char) : ∀ {s r : List Char}, gap s = .found () r →
    gap (s ++ '\n' :: b) = .found () (r ++ '\n' :: b) ∧ r ≠ [] ∨
      gap (s ++ '\n' :: b) = gap b ∧ ¬GoesOn r
  | [], r, found => by
      rw [gap_solid solid_nil] at found
      cases found
      exact Or.inr ⟨gap_space rfl b, not_goesOn_nil⟩
  | c :: s, r, found => by
      by_cases space : isSpaceChar c = true
      · rw [gap_space space] at found
        rw [List.cons_append, gap_space space]
        exact gap_append b found
      by_cases mark : c = '#'
      · subst mark
        obtain ⟨body, rest, split, run, stop⟩ := exists_run (fun c => c ≠ '\n' && c ≠ '\r') s
        have shorter : rest.length ≤ s.length := by simp [split]
        have line : ∀ c ∈ body, c ≠ '\n' ∧ c ≠ '\r' := fun c hc => by simpa using run c hc
        have stop' := stop.append (t := '\n' :: b) (stops_cons.mpr rfl)
        rw [split] at found
        rw [split, List.cons_append, List.append_assoc]
        -- the comment ends, or is ended by the added line feed, or cannot end
        rcases atLineEnd_append rest b with ⟨ended, ended'⟩ | ⟨broken, ended' | broken'⟩
        · rw [gap_comment line stop ended] at found
          rw [gap_comment line stop' ended']
          exact gap_append b found
        · rw [gap_of_absent ((gapPiece_comment line stop).trans broken)] at found
          cases found
          subst ended'
          refine Or.inr ⟨?_, not_goesOn_comment⟩
          rw [gap_comment line stop' rfl]
          exact (gap_space rfl _).trans (gap_space rfl b)
        · rw [gap_of_absent ((gapPiece_comment line stop).trans broken)] at found
          cases found
          refine Or.inl ⟨?_, by simp⟩
          rw [gap_of_absent ((gapPiece_comment line stop').trans broken'), List.cons_append,
            List.append_assoc]
      · have solid : ∀ s, Solid (c :: s) := fun s => solid_cons.mpr ⟨by simpa using space, mark⟩
        rw [gap_solid (solid _)] at found
        cases found
        exact Or.inl ⟨gap_solid (solid _), by simp⟩
termination_by s => s.length
decreasing_by
  all_goals
    simp only [List.length_cons]
    omega

theorem gap_ne_absent (s : List Char) :
    gap s ≠ .absent := by
  intro ends
  rcases bind_eq_absent.mp ends with none | ⟨_, _, _, none⟩
  · exact many_ne_absent _ _ none
  · cases none

/-! ## Scanners that begin with a gap -/

/-- What the scanner finds takes text that goes on. -/
def TakesText {α : Type} (p : Scanner α) : Prop :=
  ∀ s a rest, p s = .found a rest → GoesOn s

/-- Behind its first gap the text is at its end, or has a group. -/
def Continues (b : List Char) : Prop :=
  ∃ k, gap b = gap k ∧ Opening afterGroup k

/-- If anything comes next, it is a comment or a group. -/
def Quiet (s : List Char) : Prop :=
  ∀ c ∈ s.head?, c = '#' ∨ c = 'g'

theorem quiet_of_not_goesOn (ended : ¬GoesOn s) :
    Quiet s := by
  cases s with
  | nil => simp [Quiet]
  | cons c s =>
      have mark : c = '#' := by
        by_contra other
        exact ended ⟨c, s, rfl, other⟩
      simp [Quiet, mark]

theorem quiet_of_opening (opening : Opening afterGroup s) :
    Quiet s := by
  cases opening with
  | nil => simp [Quiet]
  | word keyword _ _ _ =>
      obtain rfl := List.mem_singleton.mp keyword
      simp [Quiet]

theorem Quiet.other (quiet : Quiet s) {c : Char} (other : c ≠ '#' ∧ c ≠ 'g') :
    s.head? ≠ some c := by
  intro e
  rcases quiet c e with rfl | rfl
  · exact other.1 rfl
  · exact other.2 rfl

section Gapped

variable {α β : Type} {p : Scanner α} {f g : Unit → Scanner α}

/-- A scanner that begins with a gap sees only what is behind it. -/
theorem gap_then_congr {s' : List Char} (same : gap s = gap s') :
    (gap >>= f) s = (gap >>= f) s' :=
  congrArg (fun x => Step.andThen x f) same

theorem TakesText.bind {h : α → Scanner β} (first : TakesText p) :
    TakesText (p >>= h) := by
  intro s _ _ found
  obtain ⟨_, _, here, -⟩ := bind_eq_found.mp found
  exact first _ _ _ here

theorem TakesText.require (takes : TakesText p) :
    TakesText (require p) :=
  fun _ _ _ found => takes _ _ _ (require_eq_found.mp found)

theorem takesText_char {c : Char} (plain : c ≠ '#') :
    TakesText (char c) :=
  fun _ _ rest found => ⟨c, rest, char_eq_found.mp found, plain⟩

theorem takesText_span1 {c : Char → Bool} (plain : c '#' = false) :
    TakesText (span1 c) := by
  intro s w rest found
  obtain ⟨some, run, -, rfl⟩ := span1_eq_found.mp found
  cases w with
  | nil => exact absurd rfl some
  | cons x w =>
      refine ⟨x, w ++ rest, rfl, ?_⟩
      rintro rfl
      rw [run _ List.mem_cons_self] at plain
      cases plain

theorem takesText_of_quiet (quiet : ∀ s, Quiet s → p s = .absent) :
    TakesText p := by
  intro s _ _ found
  by_contra ended
  rw [quiet s (quiet_of_not_goesOn ended)] at found
  cases found

/-- A construct behind a gap is found as before. -/
theorem gap_then_append (carries : Carries ('\n' :: b) (f ()) (g ())) (takes : TakesText (f ()))
    {a : α} (found : (gap >>= f) s = .found a r) :
    (gap >>= g) (s ++ '\n' :: b) = .found a (r ++ '\n' :: b) := by
  obtain ⟨_, middle, here, there⟩ := bind_eq_found.mp found
  rcases gap_append b here with ⟨led, -⟩ | ⟨-, ended⟩
  · rw [bind_found led]
    exact carries.found there
  · exact absurd (takes _ _ _ there) ended

/-- After the gap the scanner goes on as before, or is in the added text. -/
theorem carries_gap (carries : Carries ('\n' :: b) (f ()) (g ())) (takes : TakesText (f ()))
    (next : ∀ s, f () s = .absent → (gap >>= g) b = .absent) :
    Carries ('\n' :: b) (gap >>= f) (gap >>= g) where
  found := gap_then_append carries takes
  absent {s} ends := by
    rcases bind_eq_absent.mp ends with none | ⟨_, r, here, ends⟩
    · exact absurd none (gap_ne_absent s)
    · rcases gap_append b here with ⟨led, -⟩ | ⟨into, -⟩
      · rw [bind_found led]
        exact carries.absent ends
      · rw [gap_then_congr into]
        exact next r ends

/-- What begins no group does not begin where the text continues. -/
theorem Continues.absent (continues : Continues b)
    (ends : ∀ k, Opening afterGroup k → f () k = .absent) :
    (gap >>= f) b = .absent := by
  obtain ⟨k, same, opening⟩ := continues
  rw [gap_then_congr same, bind_found (gap_solid opening.wider.solid)]
  exact ends k opening

theorem carries_gap_of_quiet (continues : Continues b)
    (carries : Carries ('\n' :: b) (f ()) (g ())) (quiet : ∀ s, Quiet s → f () s = .absent)
    (quiet' : ∀ s, Quiet s → g () s = .absent) :
    Carries ('\n' :: b) (gap >>= f) (gap >>= g) :=
  carries_gap carries (takesText_of_quiet quiet) fun _ _ =>
    continues.absent fun k opening => quiet' k (quiet_of_opening opening)

end Gapped

/-! ## Blanks, names and values -/

section Values

theorem lineBlanks_carries :
    Carries ('\n' :: b) lineBlanks lineBlanks :=
  (Carries.span (stops_cons.mpr rfl)).bind fun _ => .pure ()

theorem name_carries :
    Carries ('\n' :: b) name name :=
  (Carries.span1 (stops_cons.mpr rfl)).bind fun _ =>
    (Carries.span (stops_cons.mpr rfl)).bind fun _ => .pure _

theorem quoted_carries :
    Carries ('\n' :: b) quoted quoted :=
  (Carries.char (by simp)).bind fun _ => (Carries.span (stops_cons.mpr rfl)).bind fun _ =>
    ((Carries.char (by simp)).require.expecting _).bind fun _ => .pure _

theorem decimals_carries :
    Carries ('\n' :: b) decimals decimals :=
  (Carries.char (by simp)).bind fun _ => .span1 (stops_cons.mpr rfl)

theorem number_carries :
    Carries ('\n' :: b) number number := by
  refine (Carries.char (by simp)).opt.bind fun sign =>
    (Carries.span1 (stops_cons.mpr rfl)).bind fun whole =>
      decimals_carries.opt.bind fun fraction => ?_
  cases fraction with
  | some ds => exact .pure _
  | none =>
      dsimp only
      -- an integer that does not fit ends the scan
      cases int64? (signed sign.isSome (digits whole)) with
      | some n => exact .pure _
      | none => exact ⟨nofun, nofun⟩

theorem form_quiet {item : Scanner Value} (quiet : Quiet s) :
    form item s = .absent := by
  have noDigit : Stops isDigit s := by
    intro c hc
    rcases quiet c hc with rfl | rfl <;> rfl
  have noTrue : word "true".toList s = .absent :=
    word_absent (x := 't') rfl (quiet.other (by decide))
  have noFalse : word "false".toList s = .absent :=
    word_absent (x := 'f') rfl (quiet.other (by decide))
  rw [form_plain (quiet.other (by decide)) (quiet.other (by decide)),
    orElse_absent (map_absent _ noTrue), orElse_absent (map_absent _ noFalse), number,
    bind_found (opt_absent (char_absent (quiet.other (by decide)))),
    bind_absent (span1_absent noDigit)]

theorem listComma_carries (continues : Continues b) :
    Carries ('\n' :: b) listComma listComma :=
  have quiet : ∀ s, Quiet s → char ',' s = .absent := fun _ quiet =>
    char_absent (quiet.other (by decide))
  carries_gap_of_quiet continues (.char (by simp)) quiet quiet

theorem bracketed_carries (continues : Continues b) {item item' : Scanner Value}
    (carries : Carries ('\n' :: b) item item') :
    Carries ('\n' :: b) (bracketed item) (bracketed item') := by
  refine (Carries.char (by simp)).bind fun _ =>
    (carries.separated (listComma_carries continues)).bind fun items => carries_gap ?_ ?_ ?_
  · exact (Carries.char (by simp)).require.bind fun _ => .pure _
  · exact (takesText_char (by decide)).require.bind
  · intro s ends
    rcases bind_eq_absent.mp ends with none | ⟨_, _, _, none⟩
    · exact absurd none (require_ne_absent _ s)
    · cases none

theorem form_carries (continues : Continues b) {item item' : Scanner Value}
    (carries : Carries ('\n' :: b) item item') :
    Carries ('\n' :: b) (form item) (form item') :=
  (quoted_carries.map _).orElse <| (bracketed_carries continues carries).orElse <|
    ((Carries.word (by simp)).map _).orElse <|
      ((Carries.word (by simp)).map _).orElse number_carries

theorem valueWithin_carries (continues : Continues b) {d d' : Nat} (deeper : d ≤ d') :
    Carries ('\n' :: b) (valueWithin d) (valueWithin d') := by
  induction d generalizing d' with
  | zero => exact ⟨nofun, nofun⟩
  | succ d ih =>
      obtain ⟨d', rfl⟩ : ∃ e, d' = e + 1 := ⟨d' - 1, by omega⟩
      have quiet : ∀ d s, Quiet s → expecting "value" (form (valueWithin d)) s = .absent :=
        fun _ _ quiet => expecting_absent (form_quiet quiet)
      exact carries_gap_of_quiet continues
        ((form_carries continues (ih (by omega))).expecting _) (quiet d) (quiet d')

theorem value_carries (continues : Continues b) :
    Carries ('\n' :: b) value value where
  found there := (valueWithin_carries continues (by simp)).found there
  absent ends := (valueWithin_carries continues (by simp)).absent ends

theorem valuePlace_ne_absent (s : List Char) :
    valuePlace s ≠ .absent := by
  intro ends
  rcases bind_eq_absent.mp ends with none | ⟨_, r, _, none⟩
  · exact gap_ne_absent s none
  · rcases bind_eq_absent.mp none with none | ⟨_, _, _, none⟩
    · exact opt_ne_absent _ r none
    · cases none

theorem requiredValue_eq_found {v : Value} :
    requiredValue s = .found v r ↔ value s = .found v r := by
  unfold requiredValue
  cases value s with
  | absent => cases valuePlace s <;> simp [Step.andThen]
  | _ => simp

theorem requiredValue_ne_absent (s : List Char) :
    requiredValue s ≠ .absent := by
  unfold requiredValue
  cases value s with
  | absent =>
      cases place : valuePlace s with
      | absent => exact absurd place (valuePlace_ne_absent s)
      | _ => simp [Step.andThen]
  | _ => simp

theorem requiredValue_carries (continues : Continues b) :
    Carries ('\n' :: b) requiredValue requiredValue where
  found there :=
    requiredValue_eq_found.mpr
      ((value_carries continues).found (requiredValue_eq_found.mp there))
  absent ends := absurd ends (requiredValue_ne_absent _)

end Values

/-! ## Settings, rules and tools -/

section Items

theorem setting_carries (continues : Continues b) :
    Carries ('\n' :: b) setting setting := by
  refine carries_gap ?_ ?_ ?_
  · exact name_carries.bind fun _ => lineBlanks_carries.bind fun _ =>
      (Carries.char (by simp)).bind fun _ =>
        (requiredValue_carries continues).bind fun _ => .pure _
  · exact (takesText_span1 rfl).bind.bind
  · -- the keyword of a group could be the key of a setting, but no equals sign follows it
    obtain ⟨k, same, opening⟩ := continues
    exact fun _ _ => (gap_then_congr same).trans (Next.noSetting (.mk .nil opening.wider))

theorem settings_carries (continues : Continues b) :
    Carries ('\n' :: b) settings settings := by
  have colon : Carries ('\n' :: b) settingsColon settingsColon :=
    lineBlanks_carries.bind fun _ => .char (by simp)
  refine colon.opt.bind fun colon => ?_
  cases colon with
  | none => exact .pure _
  | some _ => exact (setting_carries continues).many.bind fun _ => .pure _

/-! Lot types may stand over several lines, so a run of their characters does not stop at the
line feed.  It stops at the bracket that closes the list. -/

section Lots

variable {pieces : List (List Char)}

theorem lots_stop (found : manyAfter (span1 isLotChar) (char ',') s = .found pieces (']' :: r))
    (t : List Char) :
    Stops isLotChar (s ++ t) := by
  by_cases comma : s.head? = some ','
  · obtain ⟨s, rfl⟩ := List.head?_eq_some_iff.mp comma
    exact stops_cons.mpr rfl
  · rw [manyAfter_of_absent (char_absent comma)] at found
    cases found
    exact stops_cons.mpr rfl

theorem lots_rounds_append (t : List Char)
    (found : manyAfter (span1 isLotChar) (char ',') s = .found pieces (']' :: r)) :
    manyAfter (span1 isLotChar) (char ',') (s ++ t) = .found pieces (']' :: (r ++ t)) := by
  fun_induction manyAfter (span1 isLotChar) (char ',') s generalizing pieces with
  | case1 s _ middle comma shorter w rest piece shorter' ih =>
      obtain ⟨others, more, rfl⟩ := Step.map_eq_found.mp found
      have comma' : char ',' (s ++ t) = .found () (middle ++ t) := by
        rw [char_eq_found] at comma ⊢
        rw [comma, List.cons_append]
      rw [manyAfter_of_round comma' (by simpa using shorter)
        (span1_append piece (lots_stop more t)) (by simpa using shorter'), ih more]
      rfl
  | case3 s _ middle comma _ _ =>
      cases found
      cases char_eq_found.mp comma
  | case7 s _ =>
      cases found
      exact manyAfter_of_absent (char_absent (by simp))
  | _ => cases found

theorem lots_append (t : List Char)
    (found : separated (span1 isLotChar) (char ',') s = .found pieces (']' :: r)) :
    separated (span1 isLotChar) (char ',') (s ++ t) = .found pieces (']' :: (r ++ t)) := by
  rcases separated_eq_found.mp found with some | ⟨-, rfl, none⟩
  · obtain ⟨w, middle, piece, there⟩ := bind_eq_found.mp some
    obtain ⟨others, more, rfl⟩ := Step.map_eq_found.mp there
    refine separated_found ?_
    rw [separated1, span1_append piece (lots_stop more t)]
    show (manyAfter _ _ _).map _ = _
    rw [lots_rounds_append t more]
    rfl
  · rw [← none]
    exact separated_absent _ (span1_absent (stops_cons.mpr rfl))

end Lots

theorem lotTypes_carries :
    Carries ('\n' :: b) lotTypes lotTypes := by
  refine (Carries.char (by simp)).bind fun _ => ⟨fun {s lots rest} there => ?_, fun {s} ends => ?_⟩
  · obtain ⟨pieces, r, found, there⟩ := bind_eq_found.mp there
    obtain ⟨_, r', closed, there⟩ := bind_eq_found.mp there
    obtain rfl := char_eq_found.mp (require_eq_found.mp closed)
    cases there
    exact (bind_found (lots_append _ found)).trans (bind_found (require_found (char_found ']' _)))
  · rcases bind_eq_absent.mp ends with none | ⟨_, r, _, none⟩
    · exact absurd none (separated_ne_absent _ _ s)
    · rcases bind_eq_absent.mp none with none | ⟨_, _, _, none⟩
      · exact absurd none (require_ne_absent _ r)
      · cases none

theorem rule_carries (continues : Continues b) :
    Carries ('\n' :: b) rule rule := by
  have quiet : ∀ s, Quiet s → word "rule".toList s = .absent := fun _ quiet =>
    word_absent (x := 'r') rfl (quiet.other (by decide))
  refine carries_gap_of_quiet continues ?_ (fun s h => bind_absent (quiet s h))
    fun s h => bind_absent (quiet s h)
  refine (Carries.word (by simp)).bind fun _ => (Carries.span1 (stops_cons.mpr rfl)).bind fun _ =>
    (name_carries.require.expecting _).bind fun _ => lineBlanks_carries.bind fun _ =>
      (lotTypes_carries.require.expecting _).bind fun _ =>
        (settings_carries continues).bind fun found => ?_
  cases found with
  | none => exact .pure _
  | some s => exact .pure _

theorem tool_carries :
    Carries ('\n' :: b) tool tool :=
  (Carries.span1 (stops_cons.mpr rfl)).bind fun _ => .pure _

theorem toolComma_carries :
    Carries ('\n' :: b) toolComma toolComma :=
  lineBlanks_carries.bind fun _ => (Carries.char (by simp)).bind fun _ => lineBlanks_carries

theorem toolsLine_carries (continues : Continues b) :
    Carries ('\n' :: b) toolsLine toolsLine := by
  have quiet : ∀ s, Quiet s → word "tools".toList s = .absent := fun _ quiet =>
    word_absent (x := 't') rfl (quiet.other (by decide))
  refine carries_gap_of_quiet continues ?_ (fun s h => bind_absent (quiet s h))
    fun s h => bind_absent (quiet s h)
  exact (Carries.word (by simp)).bind fun _ => lineBlanks_carries.bind fun _ =>
    (Carries.char (by simp)).bind fun _ => lineBlanks_carries.bind fun _ =>
      (tool_carries.separated1 toolComma_carries).require.expecting _

end Items

/-! ## Groups -/

theorem groupName_carries :
    Carries ('\n' :: b) groupName groupName :=
  (Carries.span1 (stops_cons.mpr rfl)).bind fun _ => .pure _

/-- A group is found as before.  One that was not there may be there now. -/
theorem group_append (continues : Continues b) {g : Group} (found : group s = .found g r) :
    group (s ++ '\n' :: b) = .found g (r ++ '\n' :: b) := by
  refine gap_then_append ?_ (takesText_char (by decide)).bind.bind found
  exact (Carries.word (by simp)).bind fun _ => (Carries.span1 (stops_cons.mpr rfl)).bind fun _ =>
    (groupName_carries.require.expecting _).bind fun _ => lineBlanks_carries.bind fun _ =>
      (Carries.char (by simp)).require.bind fun _ => (toolsLine_carries continues).opt.bind fun _ =>
        (rule_carries continues).many.bind fun _ => .pure _

end CatalogText
end RuncardReview
