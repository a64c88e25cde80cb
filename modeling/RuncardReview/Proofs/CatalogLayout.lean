import RuncardReview.Proofs.CatalogWriting

/-!
# The layout of a catalog text

The scanner of gaps takes white space by the run and comments one by one.  It passes
over every written gap, as long as what comes next is solid.

What follows a rule or the line of tools is either the end of the text or a keyword
after a gap.  Seen from there no setting, no colon, no comma and no other keyword
begins.

**Results.**
* `gap_found`, `lineBlanks_found`, `name_found`: white space, comments and names.
* `Next.noSetting`, `Next.noColon`, `Next.noTools`, `Next.noComma`, `Next.noRule`,
  `noGroup`: what does not begin after an item.
-/

namespace RuncardReview
namespace CatalogText

open Text Number Scanner

/-- Neither white space nor a comment is next. -/
def Solid (s : List Char) : Prop :=
  ∀ c ∈ s.head?, isSpaceChar c = false ∧ c ≠ '#'

@[simp] theorem solid_nil :
    Solid [] := by
  simp [Solid]

@[simp] theorem solid_cons {c : Char} {s : List Char} :
    Solid (c :: s) ↔ isSpaceChar c = false ∧ c ≠ '#' := by
  simp [Solid]

/-- The text carries on no number. -/
def Apart (s : List Char) : Prop :=
  ∀ c ∈ s.head?, isDigit c = false ∧ c ≠ '.'

@[simp] theorem apart_cons {c : Char} {s : List Char} :
    Apart (c :: s) ↔ isDigit c = false ∧ c ≠ '.' := by
  simp [Apart]

section Gaps

variable {s g rest : List Char}

theorem gap_of_piece (piece : gapPiece s = .found () rest) (shorter : rest.length < s.length) :
    gap s = gap rest := by
  show (many gapPiece s).andThen _ = (many gapPiece rest).andThen _
  rw [many_of_found piece shorter]
  cases many gapPiece rest <;> rfl

theorem gap_of_absent (absent : gapPiece s = .absent) :
    gap s = .found () s :=
  bind_found (many_of_absent absent)

theorem gapPiece_space {c : Char} (space : isSpaceChar c = true) (s : List Char) :
    gapPiece (c :: s) = .found () (s.dropWhile isSpaceChar) := by
  refine orElse_found (bind_found (a := (c :: s).takeWhile isSpaceChar) ?_)
  simp [span1, space]

theorem gap_dropWhile (s : List Char) :
    gap (s.dropWhile isSpaceChar) = gap s := by
  cases s with
  | nil => rfl
  | cons c s =>
      by_cases space : isSpaceChar c = true
      · have shorter : (s.dropWhile isSpaceChar).length < (c :: s).length :=
          Nat.lt_succ_of_le (List.dropWhile_suffix _).length_le
        rw [gap_of_piece (gapPiece_space space s) shorter]
        simp [space]
      · simp [space]

/-- White space is passed over by the run, which is the same as one by one. -/
theorem gap_space {c : Char} (space : isSpaceChar c = true) (s : List Char) :
    gap (c :: s) = gap s := by
  rw [← gap_dropWhile (c :: s), ← gap_dropWhile s]
  simp [space]

/-- A comment goes as far as the line, and has to end there. -/
theorem gapPiece_comment {body : List Char} (line : ∀ c ∈ body, c ≠ '\n' ∧ c ≠ '\r')
    (stop : Stops (fun c => c ≠ '\n' && c ≠ '\r') s) :
    gapPiece ('#' :: (body ++ s)) = atLineEnd s := by
  have noSpace : span1 isSpaceChar ('#' :: (body ++ s)) = .absent :=
    span1_absent (stops_cons.mpr rfl)
  have run : ∀ c ∈ body, (decide (c ≠ '\n') && decide (c ≠ '\r')) = true := by
    intro c hc
    simp [line c hc]
  rw [gapPiece, orElse_absent (bind_absent noSpace), comment, bind_found (char_found _ _),
    bind_found (span_found run stop)]

theorem gap_comment {body : List Char} (line : ∀ c ∈ body, c ≠ '\n' ∧ c ≠ '\r')
    (stop : Stops (fun c => c ≠ '\n' && c ≠ '\r') s) (ended : atLineEnd s = .found () s) :
    gap ('#' :: (body ++ s)) = gap s := by
  refine gap_of_piece ((gapPiece_comment line stop).trans ended) ?_
  simp only [List.length_cons, List.length_append]
  omega

theorem gap_solid (solid : Solid s) :
    gap s = .found () s := by
  refine gap_of_absent ?_
  have noSpace : span1 isSpaceChar s = .absent :=
    span1_absent fun c hc => (solid c hc).1
  have noComment : char '#' s = .absent :=
    char_absent fun e => (solid '#' e).2 rfl
  rw [gapPiece, orElse_absent (bind_absent noSpace), comment, bind_absent noComment]

theorem gap_found (written : Gap g) (solid : Solid rest) :
    gap (g ++ rest) = .found () rest := by
  induction written with
  | nil => exact gap_solid solid
  | space space _ ih =>
      rw [List.cons_append, gap_space space, ih]
  | comment line _ ih =>
      rw [List.cons_append, List.append_assoc, List.cons_append,
        gap_comment line (by simp) rfl, gap_space rfl, ih]
  | commentReturn line _ ih =>
      rw [List.cons_append, List.append_assoc, List.cons_append, List.cons_append,
        gap_comment line (by simp) rfl, gap_space rfl, gap_space rfl, ih]

end Gaps

theorem isSpaceChar_apart {c : Char} (space : isSpaceChar c = true) :
    isDigit c = false ∧ c ≠ '.' := by
  simp only [isSpaceChar, Bool.or_eq_true, decide_eq_true_eq] at space
  rcases space with (((rfl | rfl) | rfl) | rfl) | rfl <;> decide

theorem gap_apart {g s : List Char} (written : Gap g) (apart : Apart s) :
    Apart (g ++ s) := by
  cases written with
  | nil => exact apart
  | space space _ => exact apart_cons.mpr (isSpaceChar_apart space)
  | comment _ _ => exact apart_cons.mpr (by decide)
  | commentReturn _ _ => exact apart_cons.mpr (by decide)

/-! ## Blanks and names -/

section Names

variable {b s rest : List Char}

theorem lineBlanks_apply (s : List Char) :
    lineBlanks s = .found () (s.dropWhile isLineBlank) := by
  rfl

theorem lineBlanks_found (blanks : Blanks b) (stop : Stops isLineBlank rest) :
    lineBlanks (b ++ rest) = .found () rest :=
  bind_found (span_found blanks stop)

theorem isLineBlank_noName {c : Char} (blank : isLineBlank c = true) :
    isNameChar c = false := by
  simp only [isLineBlank, Bool.or_eq_true, decide_eq_true_eq] at blank
  rcases blank with rfl | rfl <;> rfl

theorem isNameChar_of_isNameStart (c : Char) (h : isNameStart c = true) :
    isNameChar c = true := by
  simp only [isNameStart, isNameChar, Char.isAlphanum, Bool.or_eq_true] at h ⊢
  rcases h with h | h
  · exact Or.inl (Or.inl h)
  · exact Or.inr h

theorem name_found {n : String} (named : IsName n) (stop : Stops isNameChar rest) :
    name (n.toList ++ rest) = .found n rest := by
  obtain ⟨c, cs, text, first, others⟩ := named
  have run : ∀ d ∈ n.toList, isNameChar d = true := by
    intro d hd
    rw [text] at hd
    rcases List.mem_cons.mp hd with rfl | hd
    · exact isNameChar_of_isNameStart d first
    · exact others d hd
  have some : ((n.toList ++ rest).takeWhile isNameStart).isEmpty = false := by
    simp [text, first]
  have front : span1 isNameStart (n.toList ++ rest) =
      .found ((n.toList ++ rest).takeWhile isNameStart)
        ((n.toList ++ rest).dropWhile isNameStart) := by
    simp [span1, some]
  rw [name, bind_found front, bind_found (span_apply _ _),
    dropWhile_wider isNameChar_of_isNameStart, takeWhile_wider isNameChar_of_isNameStart,
    takeWhile_of_stops run stop, dropWhile_of_stops run stop, String.ofList_toList]
  rfl

/-- Letters come after the digits. -/
theorem isDigit_isAlpha {c : Char} (letter : c.isAlpha = true) :
    isDigit c = false := by
  refine Bool.eq_false_iff.mpr fun digit => ?_
  have bound : c.toNat ≤ 57 := of_decide_eq_true (Bool.and_eq_true_iff.mp digit).2
  rcases Bool.or_eq_true_iff.mp letter with upper | lower
  · have : 65 ≤ c.toNat := (of_decide_eq_true upper).1
    omega
  · have : 97 ≤ c.toNat := of_decide_eq_true (Bool.and_eq_true_iff.mp lower).1
    omega

/-- A name is neither layout nor a number. -/
theorem isNameStart_plain {c : Char} (start : isNameStart c = true) :
    (isSpaceChar c = false ∧ c ≠ '#') ∧ isDigit c = false ∧ c ≠ '.' := by
  have noDigit : isDigit c = false := by
    rcases Bool.or_eq_true_iff.mp start with letter | mark
    · exact isDigit_isAlpha letter
    · obtain rfl : c = '_' := of_decide_eq_true mark
      rfl
  have noSpace : isSpaceChar c = false := by
    refine Bool.eq_false_iff.mpr fun space => ?_
    simp only [isSpaceChar, Bool.or_eq_true, decide_eq_true_eq] at space
    rcases space with (((rfl | rfl) | rfl) | rfl) | rfl <;> cases start
  refine ⟨⟨noSpace, ?_⟩, noDigit, ?_⟩
  · rintro rfl
    cases start
  · rintro rfl
    cases start

theorem IsName.front {n : String} (named : IsName n) (s : List Char) :
    ∃ c s', n.toList ++ s = c :: s' ∧ isNameStart c = true := by
  obtain ⟨c, cs, text, first, _⟩ := named
  exact ⟨c, cs ++ s, by rw [text]; rfl, first⟩

theorem IsName.solid {n : String} (named : IsName n) (s : List Char) :
    Solid (n.toList ++ s) := by
  obtain ⟨c, s', eq, start⟩ := named.front s
  rw [eq]
  exact solid_cons.mpr (isNameStart_plain start).1

theorem IsName.apart {n : String} (named : IsName n) (s : List Char) :
    Apart (n.toList ++ s) := by
  obtain ⟨c, s', eq, start⟩ := named.front s
  rw [eq]
  exact apart_cons.mpr (isNameStart_plain start).2

end Names

/-! ## What follows an item -/

/-- The end of the text, or a keyword with blanks and a name after it. -/
inductive Opening (keywords : List String) : List Char → Prop
  | nil : Opening keywords []
  | word {w : String} {b s : List Char} {c : Char} : w ∈ keywords → Blanks b → b ≠ [] →
      isGroupChar c = true → Opening keywords (w.toList ++ (b ++ c :: s))

/-- A gap, and after it the end of the text or a keyword. -/
inductive Next (keywords : List String) : List Char → Prop
  | mk {g k : List Char} : Gap g → Opening keywords k → Next keywords (g ++ k)

/-- The keywords that may follow a rule. -/
abbrev afterRule : List String :=
  ["rule", "group"]

/-- The keyword that may follow a group. -/
abbrev afterGroup : List String :=
  ["group"]

theorem isName_keyword {w : String} (keyword : w ∈ afterRule) :
    IsName w := by
  rcases List.mem_cons.mp keyword with rfl | keyword
  · exact ⟨'r', ['u', 'l', 'e'], rfl, rfl, List.all_eq_true.mp rfl⟩
  · obtain rfl := List.mem_singleton.mp keyword
    exact ⟨'g', ['r', 'o', 'u', 'p'], rfl, rfl, List.all_eq_true.mp rfl⟩

theorem Opening.wider {k : List Char} (opening : Opening afterGroup k) :
    Opening afterRule k := by
  cases opening with
  | nil => exact .nil
  | word keyword blanks some first =>
      exact .word (List.mem_cons_of_mem _ keyword) blanks some first

theorem Next.wider {s : List Char} (next : Next afterGroup s) :
    Next afterRule s := by
  obtain ⟨written, opening⟩ := next
  exact ⟨written, opening.wider⟩

theorem isLineBlank_space {c : Char} (blank : isLineBlank c = true) :
    isSpaceChar c = true := by
  simp only [isLineBlank, Bool.or_eq_true, decide_eq_true_eq] at blank
  rcases blank with rfl | rfl <;> decide

/-- A character that is no layout is not found behind the blanks of a gap either. -/
theorem blanks_absent {g s : List Char} {d : Char} (written : Gap g) (solid : Solid s)
    (other : s.head? ≠ some d) (plain : isSpaceChar d = false) (mark : d ≠ '#') :
    char d ((g ++ s).dropWhile isLineBlank) = .absent := by
  induction written with
  | nil =>
      refine char_absent ?_
      cases s with
      | nil => simp
      | cons c s =>
          have solid := (solid_cons.mp solid).1
          have noBlank : isLineBlank c ≠ true := fun blank => by
            rw [isLineBlank_space blank] at solid
            cases solid
          simpa [noBlank] using other
  | @space c g space _ ih =>
      by_cases blank : isLineBlank c = true
      · simpa [blank] using ih
      · refine char_absent ?_
        have : c ≠ d := by
          rintro rfl
          rw [plain] at space
          cases space
        simpa [blank] using this
  | comment _ _ =>
      refine char_absent ?_
      simpa [isLineBlank] using mark.symm
  | commentReturn _ _ =>
      refine char_absent ?_
      simpa [isLineBlank] using mark.symm

theorem isGroupChar_plain {c : Char} (h : isGroupChar c = true) :
    isLineBlank c = false ∧ c ≠ '=' := by
  constructor
  · refine Bool.eq_false_iff.mpr fun blank => ?_
    simp only [isLineBlank, Bool.or_eq_true, decide_eq_true_eq] at blank
    rcases blank with rfl | rfl <;> cases h
  · rintro rfl
    cases h

section Openings

variable {s k : List Char}

theorem Opening.head (opening : Opening afterRule k) :
    ∀ c ∈ k.head?, c = 'r' ∨ c = 'g' := by
  cases opening with
  | nil => simp
  | word keyword _ _ _ =>
      rcases List.mem_cons.mp keyword with rfl | keyword
      · simp
      · obtain rfl := List.mem_singleton.mp keyword
        simp

theorem Opening.solid (opening : Opening afterRule k) :
    Solid k := by
  intro c hc
  rcases opening.head c hc with rfl | rfl <;> decide

theorem Opening.other {d : Char} (opening : Opening afterRule k) (h : d ≠ 'r' ∧ d ≠ 'g') :
    k.head? ≠ some d := by
  intro e
  rcases opening.head d e with rfl | rfl
  · exact h.1 rfl
  · exact h.2 rfl

theorem Next.apart (next : Next afterRule s) :
    Apart s := by
  obtain ⟨written, opening⟩ := next
  refine gap_apart written fun c hc => ?_
  rcases opening.head c hc with rfl | rfl <;> decide

theorem Next.noColon (next : Next afterRule s) :
    settingsColon s = .absent := by
  obtain ⟨written, opening⟩ := next
  rw [settingsColon, bind_found (lineBlanks_apply _)]
  exact blanks_absent written opening.solid (opening.other (by decide)) rfl (by decide)

theorem Next.noComma (next : Next afterRule s) :
    toolComma s = .absent := by
  obtain ⟨written, opening⟩ := next
  rw [toolComma, bind_found (lineBlanks_apply _)]
  exact bind_absent
    (blanks_absent written opening.solid (opening.other (by decide)) rfl (by decide))

theorem Next.noSetting (next : Next afterRule s) :
    setting s = .absent := by
  obtain ⟨written, opening⟩ := next
  rw [setting, bind_found (gap_found written opening.solid)]
  cases opening with
  | nil => rfl
  | @word w b s c keyword blanks some first =>
      have named := isName_keyword keyword
      have stop : Stops isNameChar (b ++ c :: s) := by
        cases b with
        | nil => exact absurd rfl some
        | cons x b =>
            exact stops_cons.mpr (isLineBlank_noName (blanks x List.mem_cons_self))
      obtain ⟨noBlank, noEquals⟩ := isGroupChar_plain first
      rw [bind_found (name_found named stop),
        bind_found (lineBlanks_found blanks (stops_cons.mpr noBlank)),
        bind_absent (char_absent (by simpa using noEquals))]

theorem Next.noTools (next : Next afterRule s) :
    toolsLine s = .absent := by
  obtain ⟨written, opening⟩ := next
  have other := opening.other (d := 't') (by decide)
  rw [toolsLine, bind_found (gap_found written opening.solid),
    bind_absent (word_absent (by decide) other)]

theorem Next.noRule (next : Next afterGroup s) :
    rule s = .absent := by
  cases next with
  | @mk g k written opening =>
      have other : k.head? ≠ some 'r' := by
        cases opening with
        | nil => simp
        | word keyword _ _ _ =>
            obtain rfl := List.mem_singleton.mp keyword
            simp
      rw [rule, bind_found (gap_found written opening.wider.solid),
        bind_absent (word_absent (by decide) other)]

theorem noGroup {g : List Char} (written : Gap g) :
    group g = .absent := by
  have gapped := gap_found written solid_nil
  rw [List.append_nil] at gapped
  have noWord : word "group".toList [] = .absent :=
    word_absent (x := 'g') (by decide) (by simp)
  rw [group, bind_found gapped, bind_absent noWord]

end Openings

end CatalogText
end RuncardReview
