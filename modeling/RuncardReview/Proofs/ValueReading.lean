import RuncardReview.Proofs.CatalogLayout

/-!
# Written values are read back

The texts of numbers are read by the scanner as they are read on their own, and by
induction on the depth to which lists may nest every written value is found.

**Results.**
* `number_integer`, `number_decimal`: the scanner of numbers agrees with the readers
  of integers and doubles.
* `valueWithin_found`: a written value is found if there is depth enough.
* `setting_found`: so is a setting.
-/

namespace RuncardReview
namespace CatalogText

open Text Number Scanner

section Numbers

variable {neg : Bool} {ds s rest : List Char}

/-- A digit is next. -/
def Numeric (s : List Char) : Prop :=
  ∃ d s', s = d :: s' ∧ isDigit d = true

theorem IsDigits.numeric (some : IsDigits ds) (s : List Char) :
    Numeric (ds ++ s) := by
  obtain ⟨ne, all⟩ := some
  cases ds with
  | nil => exact absurd rfl ne
  | cons d ds => exact ⟨d, ds ++ s, rfl, all d List.mem_cons_self⟩

theorem sign_found (numeric : Numeric s) :
    opt (char '-') (minus neg ++ s) = .found (if neg then some () else none) s := by
  cases neg with
  | true => exact opt_found (char_found '-' s)
  | false =>
      obtain ⟨d, s', rfl, digit⟩ := numeric
      refine opt_absent (char_absent ?_)
      rintro ⟨⟩
      cases digit

theorem takeSign_minus (neg : Bool) (numeric : Numeric s) :
    takeSign (minus neg ++ s) = (neg, s) := by
  cases neg with
  | true => rfl
  | false =>
      obtain ⟨d, s', rfl, digit⟩ := numeric
      show takeSign (d :: s') = _
      unfold takeSign
      split
      · rename_i e
        cases e
        cases digit
      · rename_i e
        cases e
        cases digit
      · rfl

theorem readInt64_integer (some : IsDigits ds) :
    readInt64 (minus neg ++ ds) = int64? (signed neg (digits ds)) := by
  have sign := takeSign_minus neg (some.numeric [])
  rw [List.append_nil] at sign
  have all : ds.all isDigit = true := List.all_eq_true.mpr some.2
  simp [readInt64, sign, some.1, all]

theorem toLower_digit {c : Char} (digit : isDigit c = true) :
    c.toLower = c := by
  simp only [isDigit, Bool.and_eq_true, decide_eq_true_eq] at digit
  have bound : c.toNat ≤ 57 := digit.2
  unfold Char.toLower
  split
  · rename_i upper
    have : 65 ≤ c.toNat := by simpa [UInt32.le_iff_toNat_le] using upper.1
    omega
  · rfl

/-- Behind the sign, a text that begins with a digit is none of the words. -/
theorem readFloat_numeric (numeric : Numeric s) :
    readFloat (minus neg ++ s) = (readDecimal s).map (withSign neg) := by
  have noWord : ∀ {w : List Char}, Stops isDigit w → s.map Char.toLower ≠ w := by
    rintro w plain rfl
    obtain ⟨d, s', rfl, digit⟩ := numeric
    rw [List.map_cons, stops_cons, toLower_digit digit, digit] at plain
    cases plain
  have noInf := noWord (w := "inf".toList) (stops_cons.mpr rfl)
  have noInfinity := noWord (w := "infinity".toList) (stops_cons.mpr rfl)
  have noNan := noWord (w := "nan".toList) (stops_cons.mpr rfl)
  rw [readFloat, takeSign_minus neg numeric]
  simp only [noInf, noInfinity, noNan, or_self, if_false]

theorem takeDigits_append (digits : ∀ d ∈ ds, isDigit d = true) (stops : Stops isDigit rest) :
    takeDigits (ds ++ rest) = (ds, rest) := by
  rw [takeDigits, takeWhile_of_stops digits stops, dropWhile_of_stops digits stops]

theorem takeDigits_all (digits : ∀ d ∈ ds, isDigit d = true) :
    takeDigits ds = (ds, []) := by
  simpa using takeDigits_append digits (stops_nil (c := isDigit))

theorem readFloat_decimal {whole fraction : List Char} (front : IsDigits whole)
    (back : IsDigits fraction) :
    readFloat (minus neg ++ (whole ++ '.' :: fraction)) =
      some (withSign neg (ofDecimal (digits (whole ++ fraction)) (-(fraction.length : Int)))) := by
  have first : takeDigits (whole ++ '.' :: fraction) = (whole, '.' :: fraction) :=
    takeDigits_append front.2 (stops_cons.mpr rfl)
  have body : readDecimal (whole ++ '.' :: fraction) =
      some (ofDecimal (digits (whole ++ fraction)) (-(fraction.length : Int))) := by
    simp [readDecimal, first, takeFraction, takeDigits_all back.2, front.1, readExponent]
  rw [readFloat_numeric (front.numeric _), body, Option.map_some]

/-- Digits without a point are a double as well. -/
theorem readFloat_digits (some : IsDigits ds) :
    readFloat ds = Option.some (ofDecimal (digits ds) 0) := by
  have body : readDecimal ds = Option.some (ofDecimal (digits ds) 0) := by
    simp [readDecimal, takeDigits_all some.2, takeFraction, some.1, readExponent]
  have read : readFloat (minus false ++ (ds ++ [])) = _ := readFloat_numeric (some.numeric [])
  rw [List.append_nil, body] at read
  exact read

theorem decimals_absent (apart : Apart rest) :
    decimals rest = .absent := by
  refine bind_absent (char_absent fun e => ?_)
  exact (apart '.' e).2 rfl

theorem Apart.stops (apart : Apart rest) :
    Stops isDigit rest :=
  fun c hc => (apart c hc).1

theorem isSome_sign (neg : Bool) :
    (if neg then some () else none : Option Unit).isSome = neg := by
  cases neg <;> rfl

theorem number_integer {n : Int64} (some : IsDigits ds)
    (reads : readInt64 (minus neg ++ ds) = Option.some n) (apart : Apart rest) :
    number (minus neg ++ (ds ++ rest)) = .found (.int n) rest := by
  rw [readInt64_integer some] at reads
  rw [number, bind_found (sign_found (some.numeric rest)),
    bind_found (span1_found some.1 some.2 apart.stops),
    bind_found (opt_absent (decimals_absent apart)), isSome_sign, reads]
  rfl

theorem number_decimal {x : Float} {whole fraction : List Char} (front : IsDigits whole)
    (back : IsDigits fraction)
    (reads : readFloat (minus neg ++ (whole ++ '.' :: fraction)) = some x)
    (apart : Apart rest) :
    number (minus neg ++ (whole ++ '.' :: (fraction ++ rest))) = .found (.float x) rest := by
  rw [readFloat_decimal front back, Option.some.injEq] at reads
  have point : decimals ('.' :: (fraction ++ rest)) = .found fraction rest := by
    rw [decimals, bind_found (char_found '.' _), span1_found back.1 back.2 apart.stops]
  rw [number, bind_found (sign_found (front.numeric _)),
    bind_found (span1_found front.1 front.2 (stops_cons.mpr rfl)),
    bind_found (opt_found point), isSome_sign, ← reads]
  rfl

end Numbers

section Values

variable {v : Value} {s g t rest : List Char}

theorem quoted_found {x : String} (plain : ∀ c ∈ x.toList, c ≠ '"' ∧ c ≠ '\n')
    (rest : List Char) :
    quoted ('"' :: (x.toList ++ '"' :: rest)) = .found x rest := by
  have run : ∀ c ∈ x.toList, (decide (c ≠ '"') && decide (c ≠ '\n')) = true := by
    intro c hc
    simp [plain c hc]
  rw [quoted, bind_found (char_found '"' _), bind_found (span_found run (stops_cons.mpr rfl)),
    bind_found (expecting_found (require_found (char_found '"' _))), String.ofList_toList]
  rfl

/-- The forms of a value, behind the gap. -/
def form (item : Scanner Value) : Scanner Value :=
  orElse (.text <$> quoted)
    (orElse (bracketed item)
      (orElse ((fun _ => .bool true) <$> word "true".toList)
        (orElse ((fun _ => .bool false) <$> word "false".toList) number)))

theorem valueWithin_solid (written : Gap g) (solid : Solid s) (depth : Nat) :
    valueWithin (depth + 1) (g ++ s) = expecting "value" (form (valueWithin depth)) s := by
  rw [valueWithin, bind_found (gap_found written solid)]
  rfl

theorem quoted_absent (other : s.head? ≠ some '"') :
    quoted s = .absent :=
  bind_absent (char_absent other)

theorem bracketed_absent (item : Scanner Value) (other : s.head? ≠ some '[') :
    bracketed item s = .absent :=
  bind_absent (char_absent other)

/-- What is no text and no list. -/
theorem form_plain {item : Scanner Value} (quote : s.head? ≠ some '"')
    (bracket : s.head? ≠ some '[') :
    form item s = orElse ((fun _ => .bool true) <$> word "true".toList)
      (orElse ((fun _ => .bool false) <$> word "false".toList) number) s := by
  rw [form, orElse_absent (map_absent _ (quoted_absent quote)),
    orElse_absent (bracketed_absent item bracket)]

theorem form_number {item : Scanner Value} (number : ∀ c ∈ s.head?, c = '-' ∨ isDigit c = true) :
    form item s = CatalogText.number s := by
  have other : ∀ {d : Char}, d ≠ '-' → isDigit d = false → s.head? ≠ some d := by
    intro d sign plain e
    rcases number d e with rfl | digit
    · exact sign rfl
    · rw [plain] at digit
      cases digit
  have noTrue : word "true".toList s = .absent :=
    word_absent (x := 't') rfl (other (by decide) rfl)
  have noFalse : word "false".toList s = .absent :=
    word_absent (x := 'f') rfl (other (by decide) rfl)
  rw [form_plain (other (by decide) rfl) (other (by decide) rfl),
    orElse_absent (map_absent _ noTrue), orElse_absent (map_absent _ noFalse)]

theorem head_minus {neg : Bool} (numeric : Numeric s) :
    ∀ c ∈ (minus neg ++ s).head?, c = '-' ∨ isDigit c = true := by
  obtain ⟨d, s', rfl, digit⟩ := numeric
  cases neg with
  | true => simp [minus]
  | false => simp [minus, digit]

theorem form_literal {item : Scanner Value} (plain : PlainValue v) (written : WritesLiteral v t)
    (apart : Apart rest) :
    form item (t ++ rest) = .found v rest := by
  cases written with
  | text x =>
      cases plain with
      | text plain =>
          rw [List.cons_append, List.append_assoc]
          exact orElse_found (map_found Value.text (quoted_found plain rest))
  | int text reads =>
      obtain ⟨neg, some⟩ := text
      rw [List.append_assoc, form_number (head_minus (some.numeric rest)),
        number_integer some reads apart]
  | float text reads =>
      obtain ⟨neg, front, back⟩ := text
      rw [List.append_assoc, List.append_assoc, List.cons_append,
        form_number (head_minus (front.numeric _)), number_decimal front back reads apart]
  | true =>
      rw [form_plain (by simp) (by simp)]
      exact orElse_found (map_found _ (word_found _ rest))
  | false =>
      have noTrue : word "true".toList ("false".toList ++ rest) = .absent :=
        word_absent (x := 't') rfl (by simp)
      rw [form_plain (by simp) (by simp), orElse_absent (map_absent _ noTrue)]
      exact orElse_found (map_found _ (word_found _ rest))

theorem literal_solid (written : WritesLiteral v t) (rest : List Char) :
    Solid (t ++ rest) := by
  have numeric : ∀ {s : List Char}, (∀ c ∈ s.head?, c = '-' ∨ isDigit c = true) → Solid s := by
    intro s number c hc
    rcases number c hc with rfl | digit
    · decide
    · constructor
      · refine Bool.eq_false_iff.mpr fun space => ?_
        rw [(isSpaceChar_apart space).1] at digit
        cases digit
      · rintro rfl
        cases digit
  cases written with
  | text x => exact solid_cons.mpr (by decide)
  | int text _ =>
      obtain ⟨neg, some⟩ := text
      rw [List.append_assoc]
      exact numeric (head_minus (some.numeric rest))
  | float text _ =>
      obtain ⟨neg, front, _⟩ := text
      rw [List.append_assoc, List.append_assoc]
      exact numeric (head_minus (front.numeric _))
  | true => exact solid_cons.mpr (by decide)
  | false => exact solid_cons.mpr (by decide)

theorem listComma_found (comma : ListCommaText s) (rest : List Char) :
    listComma (s ++ rest) = .found () rest := by
  obtain ⟨g, written, rfl⟩ := comma
  rw [List.append_assoc, List.singleton_append, listComma,
    bind_found (gap_found written (solid_cons.mpr (by decide))), char_found]

theorem listComma_apart (comma : ListCommaText s) (rest : List Char) :
    Apart (s ++ rest) := by
  obtain ⟨g, written, rfl⟩ := comma
  rw [List.append_assoc]
  exact gap_apart written (apart_cons.mpr (by decide))

section Closing

variable {e : List Char} (written : Gap e) (rest : List Char)
include written

theorem listComma_absent :
    listComma (e ++ ']' :: rest) = .absent := by
  rw [listComma, bind_found (gap_found written (solid_cons.mpr (by decide))),
    char_absent (by simp)]

theorem valueWithin_absent (depth : Nat) :
    valueWithin (depth + 1) (e ++ ']' :: rest) = .absent := by
  rw [valueWithin_solid written (solid_cons.mpr (by decide))]
  refine expecting_absent ?_
  rw [form_plain (by simp) (by simp)]
  rfl

/-- The end of a list whose items are found. -/
theorem bracketed_found {item : Scanner Value} {vs : List Value}
    (items : separated item listComma s = .found vs (e ++ ']' :: rest)) :
    bracketed item ('[' :: s) = .found (.list vs) rest := by
  rw [bracketed, bind_found (char_found '[' s), bind_found items,
    bind_found (gap_found written (solid_cons.mpr (by decide))),
    bind_found (require_found (char_found ']' rest))]
  rfl

end Closing

theorem writesValue_ne_nil (written : WritesValue v t) :
    t ≠ [] := by
  cases written with
  | literal _ form =>
      cases form with
      | text => simp
      | int text _ =>
          obtain ⟨neg, some⟩ := text
          simp [some.1]
      | float text _ =>
          obtain ⟨neg, _, _⟩ := text
          simp
      | true => simp
      | false => simp
  | empty => simp
  | list => simp

/-- A list is found behind the gap, once its items are. -/
theorem valueWithin_list {vs : List Value} {e : List Char} {depth : Nat} (gapped : Gap g)
    (closing : Gap e)
    (items : separated (valueWithin depth) listComma s = .found vs (e ++ ']' :: rest)) :
    valueWithin (depth + 1) (g ++ '[' :: s) = .found (.list vs) rest := by
  rw [valueWithin_solid gapped (solid_cons.mpr (by decide))]
  refine expecting_found ?_
  rw [form, orElse_absent (map_absent _ (quoted_absent (by simp)))]
  exact orElse_found (bracketed_found closing rest items)

/-- A written value is found.  Every level of lists takes brackets, so a depth that is
no less than the length of the text is enough. -/
theorem valueWithin_found {depth : Nat} (plain : PlainValue v) (written : WritesValue v t)
    (fits : t.length ≤ depth) (apart : Apart rest) :
    valueWithin depth (t ++ rest) = .found v rest := by
  induction depth generalizing v t rest with
  | zero => exact absurd (List.length_eq_zero_iff.mp (by omega)) (writesValue_ne_nil written)
  | succ depth ih =>
      cases written with
      | @literal g t _ gapped literal =>
          rw [List.append_assoc, valueWithin_solid gapped (literal_solid literal rest)]
          exact expecting_found (form_literal plain literal apart)
      | @empty g e gapped closing =>
          simp only [List.length_append, List.length_cons] at fits
          -- a level is left to see that no item begins
          obtain ⟨depth, rfl⟩ : ∃ d, depth = d + 1 := ⟨depth - 1, by omega⟩
          have none := separated_absent listComma
            (valueWithin_absent closing rest depth)
          simpa only [List.append_assoc, List.cons_append, List.nil_append] using
            valueWithin_list gapped closing none
      | @list g t e vs gapped items closing =>
          cases plain with
          | list plain =>
              simp only [List.length_append, List.length_cons] at fits
              have bounded := items.bounded (n := depth) (by omega)
              have next : Apart (e ++ ']' :: rest) :=
                gap_apart closing (apart_cons.mpr (by decide))
              have found : separated1 (valueWithin depth) listComma (t ++ (e ++ ']' :: rest)) =
                  .found vs (e ++ ']' :: rest) :=
                separated1_found Apart
                  (fun member item apart => ih (plain _ member) item.1 item.2 apart)
                  (fun _ item => writesValue_ne_nil item.1)
                  (fun comma _ _ rest => listComma_found comma _)
                  (fun ⟨g, _, eq⟩ => by simp [eq])
                  (fun comma rest => listComma_apart comma rest)
                  bounded next (listComma_absent closing rest)
              simpa only [List.append_assoc, List.cons_append, List.nil_append] using
                valueWithin_list gapped closing (separated_found found)

/-! ## Settings -/

theorem requiredValue_found (plain : PlainValue v) (written : WritesValue v t)
    (apart : Apart rest) :
    requiredValue (t ++ rest) = .found v rest := by
  have fits : t.length ≤ (t ++ rest).length + 1 := by
    simp only [List.length_append]
    omega
  have found : value (t ++ rest) = .found v rest :=
    valueWithin_found plain written fits apart
  simp [requiredValue, found]

theorem setting_found {e : String × Value} (named : IsName e.1) (plain : PlainValue e.2)
    (written : WritesSetting e t) (apart : Apart rest) :
    setting (t ++ rest) = .found e rest := by
  obtain @⟨key, v, g, b, t, gapped, blanks, value⟩ := written
  have stop : Stops isNameChar (b ++ '=' :: (t ++ rest)) := by
    cases b with
    | nil => exact stops_cons.mpr rfl
    | cons c b => exact stops_cons.mpr (isLineBlank_noName (blanks c List.mem_cons_self))
  simp only [List.append_assoc, List.cons_append]
  rw [setting, bind_found (gap_found gapped (IsName.solid named _)),
    bind_found (name_found named stop), bind_found (lineBlanks_found blanks (stops_cons.mpr rfl)),
    bind_found (char_found '=' _), bind_found (requiredValue_found plain value apart)]
  rfl

theorem setting_apart {e : String × Value} (named : IsName e.1) (written : WritesSetting e t)
    (rest : List Char) :
    Apart (t ++ rest) := by
  obtain ⟨gapped, _, _⟩ := written
  simp only [List.append_assoc]
  exact gap_apart gapped (IsName.apart named _)

theorem setting_ne_nil {e : String × Value} (written : WritesSetting e t) :
    t ≠ [] := by
  obtain ⟨_, _, _⟩ := written
  simp

end Values

end CatalogText
end RuncardReview
