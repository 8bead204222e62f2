import CubeQuery.Plan.Filter
import CubeQuery.Proofs.Text.Pattern
import CubeQuery.Proofs.Text.Trim

/-!
# The grammar of filter clauses

A clause is a measure, an operator and a number with white space around it, and a text is so divided in at
most one way (`Filter.IsClause.unique`). The scanner finds the parts (`Filter.Clause.ofText?_eq_some_iff`),
and the pattern of clauses, however it reads a text, gives the same comparison
(`Filter.comparison_recognises_clauses`).
-/

namespace CubeQuery.Plan.Filter

open Mdx Text

/-! ## Clauses -/

def chars (op : CompareOp) : List Char := op.token.text.toList

/-- An optional minus sign, digits, and possibly a point that digits may follow. -/
def IsNumber (cs : List Char) : Prop :=
  ∃ minus digits decimals, cs = minus ++ digits ++ decimals ∧ (minus = [] ∨ minus = ['-']) ∧
    digits ≠ [] ∧ (∀ c ∈ digits, isDecimalDigit c = true) ∧
    (decimals = [] ∨ ∃ more, decimals = '.' :: more ∧ ∀ c ∈ more, isDecimalDigit c = true)

def Surrounds (value number : List Char) : Prop :=
  ∃ before after, value = before ++ number ++ after ∧ (∀ c ∈ before, isBlank c = true) ∧
    ∀ c ∈ after, isBlank c = true

/-- A text divided into a measure, an operator and the value that holds a number. -/
structure IsClause (cs measure : List Char) (op : CompareOp) (value number : List Char) : Prop where
  parts : cs = measure ++ chars op ++ value
  nonempty : measure ≠ []
  measureChars : ∀ c ∈ measure, isMeasureChar c = true
  surrounds : Surrounds value number
  isNumber : IsNumber number

/-! ## Characters -/

theorem isDecimalDigit_of_isBlank {c : Char} (h : isBlank c = true) : isDecimalDigit c = false := by
  apply class_eq_false_of_isBlank _ _ h
  · decide
  · decide +kernel

theorem isBlank_of_isDecimalDigit {c : Char} (h : isDecimalDigit c = true) : isBlank c = false := by
  by_contra hblank
  rw [Bool.not_eq_false] at hblank
  rw [isDecimalDigit_of_isBlank hblank] at h
  exact Bool.false_ne_true h

/-- No operator begins with a character of measures. -/
theorem exists_chars_cons (op : CompareOp) :
    ∃ c rest, chars op = c :: rest ∧ isMeasureChar c = false := by
  cases op <;> exact ⟨_, _, rfl, by decide⟩

/-! ## Numbers -/

theorem IsNumber.exists_cons {cs : List Char} (h : IsNumber cs) :
    ∃ c rest, cs = c :: rest ∧ isBlank c = false ∧ c ≠ '=' ∧ c ≠ '>' := by
  obtain ⟨minus, digits, decimals, rfl, hminus, hne, hdigits, -⟩ := h
  rcases hminus with rfl | rfl
  · obtain ⟨c, rest, rfl⟩ := List.exists_cons_of_ne_nil hne
    have hdigit : isDecimalDigit c = true := hdigits c List.mem_cons_self
    refine ⟨c, rest ++ decimals, by simp, isBlank_of_isDecimalDigit hdigit, ?_, ?_⟩
    · rintro rfl
      exact absurd hdigit (by decide)
    · rintro rfl
      exact absurd hdigit (by decide)
  · exact ⟨'-', digits ++ decimals, by simp, by decide, by decide, by decide⟩

theorem sign_append {minus digits rest : List Char} (hminus : minus = [] ∨ minus = ['-'])
    (hne : digits ≠ []) (hdigits : ∀ c ∈ digits, isDecimalDigit c = true) :
    sign (minus ++ (digits ++ rest)) = (minus, digits ++ rest) := by
  rcases hminus with rfl | rfl
  · obtain ⟨c, others, rfl⟩ := List.exists_cons_of_ne_nil hne
    have hc : c ≠ '-' := by
      rintro rfl
      exact absurd (hdigits '-' List.mem_cons_self) (by decide)
    unfold sign
    split
    · rename_i heq
      exact absurd (List.cons.inj heq).1 hc
    · rfl
  · rfl

theorem fraction_append {decimals rest : List Char}
    (hdecimals : decimals = [] ∨ ∃ more, decimals = '.' :: more ∧ ∀ c ∈ more, isDecimalDigit c = true)
    (hrest : ∀ c ∈ rest.head?, isBlank c = true) : fraction (decimals ++ rest) = (decimals, rest) := by
  rcases hdecimals with rfl | ⟨more, rfl, hmore⟩
  · unfold fraction
    split
    · rename_i heq
      have hpoint : isBlank '.' = true := hrest '.' (by rw [← List.nil_append rest, heq]; rfl)
      exact absurd hpoint (by decide)
    · rfl
  · have hscan := takeWhile_append hmore fun c hc => isDecimalDigit_of_isBlank (hrest c hc)
    rw [List.cons_append, fraction, hscan.1, hscan.2]

/-- A number is read up to white space. -/
theorem number?_append {cs rest : List Char} (h : IsNumber cs)
    (hrest : ∀ c ∈ rest.head?, isBlank c = true) : number? (cs ++ rest) = some (cs, rest) := by
  obtain ⟨minus, digits, decimals, rfl, hminus, hne, hdigits, hdecimals⟩ := h
  have hstop : ∀ c ∈ (decimals ++ rest).head?, isDecimalDigit c = false := by
    intro c hc
    rcases hdecimals with rfl | ⟨more, rfl, -⟩
    · exact isDecimalDigit_of_isBlank (hrest c hc)
    · obtain rfl := Option.some.inj hc
      decide
  have hscan := takeWhile_append hdigits hstop
  have hnonempty : digits.isEmpty = false := List.isEmpty_eq_false_iff.2 hne
  rw [number?, List.append_assoc, List.append_assoc, sign_append hminus hne hdigits]
  simp only [hscan, hnonempty, fraction_append hdecimals hrest, List.append_assoc, Bool.false_eq_true,
    if_false]

theorem sign_spec (cs : List Char) :
    cs = (sign cs).1 ++ (sign cs).2 ∧ ((sign cs).1 = [] ∨ (sign cs).1 = ['-']) := by
  unfold sign
  split
  · exact ⟨rfl, .inr rfl⟩
  · exact ⟨rfl, .inl rfl⟩

theorem fraction_spec (cs : List Char) :
    cs = (fraction cs).1 ++ (fraction cs).2 ∧ ((fraction cs).1 = [] ∨
      ∃ more, (fraction cs).1 = '.' :: more ∧ ∀ c ∈ more, isDecimalDigit c = true) := by
  unfold fraction
  split
  · rename_i rest
    refine ⟨?_, .inr ⟨_, rfl, fun c => List.mem_takeWhile_imp⟩⟩
    rw [List.cons_append, List.takeWhile_append_dropWhile]
  · exact ⟨rfl, .inl rfl⟩

theorem isNumber_of_number? {cs number rest : List Char} (h : number? cs = some (number, rest)) :
    IsNumber number ∧ cs = number ++ rest := by
  obtain ⟨hsign, hminus⟩ := sign_spec cs
  obtain ⟨hfraction, hdecimals⟩ := fraction_spec ((sign cs).2.dropWhile isDecimalDigit)
  unfold number? at h
  dsimp only at h
  split at h
  · cases h
  · rename_i hnonempty
    obtain ⟨rfl, rfl⟩ := Prod.mk.inj (Option.some.inj h)
    refine ⟨⟨_, _, _, rfl, hminus, ?_, fun c => List.mem_takeWhile_imp, hdecimals⟩, ?_⟩
    · intro hnil
      rw [hnil] at hnonempty
      exact hnonempty rfl
    · rw [List.append_assoc, ← hfraction, List.append_assoc, List.takeWhile_append_dropWhile, ← hsign]

/-! ## Operators -/

theorem operator?_append {op : CompareOp} {rest : List Char}
    (hrest : ∀ c ∈ rest.head?, c ≠ '=' ∧ c ≠ '>') : operator? (chars op ++ rest) = some (op, rest) := by
  cases rest with
  | nil => cases op <;> rfl
  | cons c rest =>
      obtain ⟨heq, hgt⟩ := hrest c rfl
      -- Only these two begin a longer operator.
      cases op with
      | lt =>
          show operator? ('<' :: c :: rest) = _
          unfold operator?
          split <;> simp_all
      | gt =>
          show operator? ('>' :: c :: rest) = _
          unfold operator?
          split <;> simp_all
      | _ => rfl

theorem eq_append_of_operator? {cs rest : List Char} {op : CompareOp}
    (h : operator? cs = some (op, rest)) : cs = chars op ++ rest := by
  unfold operator? at h
  split at h <;> cases h <;> rfl

/-! ## Scanning a clause -/

theorem Surrounds.skipBlanks_eq {value number : List Char} (h : Surrounds value number)
    (hnumber : IsNumber number) :
    ∃ after, (∀ c ∈ after, isBlank c = true) ∧ skipBlanks value = number ++ after := by
  obtain ⟨before, after, rfl, hbefore, hafter⟩ := h
  obtain ⟨c, rest, rfl, hc, -, -⟩ := hnumber.exists_cons
  refine ⟨after, hafter, ?_⟩
  rw [List.append_assoc, skipBlanks_append hbefore]
  exact skipBlanks_cons_of_not_blank hc _

theorem Surrounds.head? {value number : List Char} (h : Surrounds value number)
    (hnumber : IsNumber number) : ∀ c ∈ value.head?, c ≠ '=' ∧ c ≠ '>' := by
  obtain ⟨before, after, rfl, hbefore, -⟩ := h
  intro c hc
  cases before with
  | nil =>
      obtain ⟨d, rest, rfl, -, heq, hgt⟩ := hnumber.exists_cons
      obtain rfl := Option.some.inj hc
      exact ⟨heq, hgt⟩
  | cons d before =>
      obtain rfl := Option.some.inj hc
      have hblank : isBlank d = true := hbefore d List.mem_cons_self
      constructor
      · rintro rfl
        exact absurd hblank (by decide)
      · rintro rfl
        exact absurd hblank (by decide)

section Scan

variable {cs measure value number : List Char} {op : CompareOp}

/-- The measure ends at the operator, the operator is the longest one there, and the number ends at the
white space behind it. -/
theorem IsClause.scan (h : IsClause cs measure op value number) :
    cs.takeWhile isMeasureChar = measure ∧ operator? (cs.dropWhile isMeasureChar) = some (op, value) ∧
      ∃ after, (∀ c ∈ after, isBlank c = true) ∧ number? (skipBlanks value) = some (number, after) := by
  have hparts := h.parts
  obtain ⟨c, rest, hchars, hc⟩ := exists_chars_cons op
  have hstop : ∀ d ∈ (chars op ++ value).head?, isMeasureChar d = false := by
    intro d hd
    rw [hchars] at hd
    obtain rfl := Option.some.inj hd
    exact hc
  have hscan := takeWhile_append h.measureChars hstop
  rw [← List.append_assoc, ← hparts] at hscan
  obtain ⟨after, hafter, hskip⟩ := h.surrounds.skipBlanks_eq h.isNumber
  have hblank : ∀ d ∈ after.head?, isBlank d = true := fun d hd => hafter d (List.mem_of_mem_head? hd)
  -- A number begins with a digit or a minus sign, neither of which would make the operator longer.
  refine ⟨hscan.1, ?_, after, hafter, ?_⟩
  · rw [hscan.2, operator?_append (h.surrounds.head? h.isNumber)]
  · rw [hskip, number?_append h.isNumber hblank]

/-- A text is a clause in one way at most. -/
theorem IsClause.unique (h : IsClause cs measure op value number) {measure' value' number' : List Char}
    {op' : CompareOp} (h' : IsClause cs measure' op' value' number') :
    measure' = measure ∧ op' = op ∧ value' = value ∧ number' = number := by
  obtain ⟨hmeasure, hop, after, -, hnumber⟩ := h.scan
  obtain ⟨hmeasure', hop', after', -, hnumber'⟩ := h'.scan
  obtain ⟨rfl, rfl⟩ := Prod.mk.inj (Option.some.inj (hop'.symm.trans hop))
  obtain ⟨rfl, -⟩ := Prod.mk.inj (Option.some.inj (hnumber'.symm.trans hnumber))
  exact ⟨hmeasure'.symm.trans hmeasure, rfl, rfl, rfl⟩

/-- The scanner finds the parts of clauses and nothing else. -/
theorem Clause.ofText?_eq_some_iff {text : String} {clause : Clause} :
    Clause.ofText? text = some clause ↔
      ∃ measure value number, IsClause text.toList measure clause.op value number ∧
        clause.measure = String.ofList (trim measure) ∧ clause.number = String.ofList number := by
  constructor
  · intro h
    simp only [Clause.ofText?, Option.bind_eq_bind] at h
    split at h
    · cases h
    · rename_i hnonempty
      obtain ⟨⟨op, value⟩, hop, h⟩ := Option.bind_eq_some_iff.1 h
      obtain ⟨⟨number, after⟩, hnumber, h⟩ := Option.bind_eq_some_iff.1 h
      dsimp only at h
      split at h
      · rename_i hafter
        obtain rfl := Option.some.inj h
        obtain ⟨hisNumber, hskip⟩ := isNumber_of_number? hnumber
        obtain ⟨before, hbefore, hvalue⟩ := exists_blanks_append value
        refine ⟨_, value, number, ⟨?_, ?_, fun c => List.mem_takeWhile_imp, ?_, hisNumber⟩, rfl, rfl⟩
        · rw [List.append_assoc, ← eq_append_of_operator? hop, List.takeWhile_append_dropWhile]
        · intro hnil
          rw [hnil] at hnonempty
          exact hnonempty rfl
        · refine ⟨before, after, ?_, hbefore, ?_⟩
          · rw [List.append_assoc, ← hskip]
            exact hvalue
          · exact skipBlanks_eq_nil_iff.1 (List.isEmpty_iff.1 hafter)
      · cases h
  · intro h
    obtain ⟨measure, value, number, hclause, hmeasure, hnumberText⟩ := h
    obtain ⟨htake, hop, after, hafter, hnumber⟩ := hclause.scan
    have hnonempty : measure.isEmpty = false := List.isEmpty_eq_false_iff.2 hclause.nonempty
    obtain ⟨shown, op, shownNumber⟩ := clause
    simp only at hmeasure hnumberText hop
    simp [Clause.ofText?, htake, hnonempty, hop, hnumber, skipBlanks_eq_nil_iff.2 hafter, hmeasure, hnumberText]

end Scan

/-! ## The pattern of clauses -/

def operatorPattern : Pattern :=
  .either (.literal ">=") (.either (.literal "<=") (.either (.literal "<>")
    (.either (.literal "=") (.either (.literal "<") (.literal ">")))))

def numberPattern : Pattern :=
  .optional (.literal "-") ++ .some isDecimalDigit ++
    .optional (.literal "." ++ .many isDecimalDigit)

def padded (name : String) (x : Pattern) : Pattern :=
  .many isBlank ++ .group name x ++ .many isBlank

/-- A measure, an operator and a number, each a group, with white space anywhere around them. -/
def clausePattern : Pattern :=
  padded "measure" (.some isMeasureChar) ++ .group "op" operatorPattern ++ padded "value" numberPattern

def groupsOf (name : List Char) (op : CompareOp) (number : List Char) : Pattern.Groups :=
  [("measure", name), ("op", chars op), ("value", number)]

def comparisonOfGroups (cube : Cube) (text : String) (groups : Pattern.Groups) :
    Except QueryError Comparison :=
  let read name := String.ofList (((groups.find? (·.1 == name)).map (·.2)).getD [])
  let measure := trimmed (read "measure")
  match cube.measure? measure with
  | none => .error (.unknownMeasure cube.name measure)
  | some m =>
    match CompareOp.ofText? (read "op") with
    | none => .error (.invalidFilter text)
    | some op => .ok ⟨.measure m.fullName, op, read "value"⟩

section Patterns

variable {cs measure value number : List Char} {op : CompareOp} {groups : Pattern.Groups}

theorem operatorPattern_reads_iff :
    operatorPattern.Reads cs groups ↔ (∃ op, cs = chars op) ∧ groups = [] := by
  simp only [operatorPattern, Pattern.reads_either_iff, Pattern.reads_literal_iff]
  constructor
  · intro h
    rcases h with ⟨rfl, rfl⟩ | ⟨rfl, rfl⟩ | ⟨rfl, rfl⟩ | ⟨rfl, rfl⟩ | ⟨rfl, rfl⟩ | ⟨rfl, rfl⟩
    · exact ⟨⟨.ge, rfl⟩, rfl⟩
    · exact ⟨⟨.le, rfl⟩, rfl⟩
    · exact ⟨⟨.ne, rfl⟩, rfl⟩
    · exact ⟨⟨.eq, rfl⟩, rfl⟩
    · exact ⟨⟨.lt, rfl⟩, rfl⟩
    · exact ⟨⟨.gt, rfl⟩, rfl⟩
  · intro h
    obtain ⟨⟨op, rfl⟩, rfl⟩ := h
    cases op <;> simp [chars, CompareOp.token, Token.text]

theorem minus_reads_iff :
    (Pattern.optional (.literal "-")).Reads cs groups ↔ (cs = [] ∨ cs = ['-']) ∧ groups = [] := by
  rw [Pattern.reads_optional_iff, Pattern.reads_literal_iff, or_and_right]
  rfl

theorem decimals_reads_iff :
    (Pattern.optional (.literal "." ++ .many isDecimalDigit)).Reads cs groups ↔
      (cs = [] ∨ ∃ more, cs = '.' :: more ∧ ∀ c ∈ more, isDecimalDigit c = true) ∧ groups = [] := by
  simp only [Pattern.reads_optional_iff, Pattern.reads_append_iff, Pattern.reads_literal_iff,
    Pattern.reads_many_iff]
  constructor
  · intro h
    rcases h with ⟨rfl, rfl⟩ | ⟨_, more, _, _, rfl, rfl, ⟨rfl, rfl⟩, hmore, rfl⟩
    · exact ⟨.inl rfl, rfl⟩
    · exact ⟨.inr ⟨more, rfl, hmore⟩, rfl⟩
  · intro h
    obtain ⟨hcs, rfl⟩ := h
    rcases hcs with rfl | ⟨more, rfl, hmore⟩
    · exact .inl ⟨rfl, rfl⟩
    · exact .inr ⟨['.'], more, [], [], rfl, rfl, ⟨rfl, rfl⟩, hmore, rfl⟩

theorem numberPattern_reads_iff : numberPattern.Reads cs groups ↔ IsNumber cs ∧ groups = [] := by
  rw [numberPattern]
  simp only [Pattern.reads_append_iff (x := _ ++ _), Pattern.reads_append_iff (y := .some _),
    minus_reads_iff, Pattern.reads_some_iff, decimals_reads_iff]
  constructor
  · intro h
    obtain ⟨_, decimals, _, _, rfl, rfl, hfront, hdecimals, rfl⟩ := h
    obtain ⟨minus, digits, _, _, rfl, rfl, ⟨hminus, rfl⟩, hne, hdigits, rfl⟩ := hfront
    exact ⟨⟨minus, digits, decimals, rfl, hminus, hne, hdigits, hdecimals⟩, rfl⟩
  · intro h
    obtain ⟨⟨minus, digits, decimals, rfl, hminus, hne, hdigits, hdecimals⟩, rfl⟩ := h
    exact ⟨minus ++ digits, decimals, [], [], rfl, rfl,
      ⟨minus, digits, [], [], rfl, rfl, ⟨hminus, rfl⟩, hne, hdigits, rfl⟩, hdecimals, rfl⟩

theorem isMeasureChar_of_isBlank {c : Char} (h : isBlank c = true) : isMeasureChar c = true := by
  rw [isMeasureChar, h, Bool.or_true]

theorem padded_reads_iff {name : String} {x : Pattern} :
    (padded name x).Reads cs groups ↔ ∃ before inner after nested, cs = before ++ inner ++ after ∧
      groups = (name, inner) :: nested ∧ (∀ c ∈ before, isBlank c = true) ∧
      (∀ c ∈ after, isBlank c = true) ∧ x.Reads inner nested := by
  simp only [padded, Pattern.reads_append_iff, Pattern.reads_group_iff, Pattern.reads_many_iff]
  constructor
  · intro h
    obtain ⟨_, after, _, _, rfl, rfl, hfront, hafter, rfl⟩ := h
    obtain ⟨before, inner, _, _, rfl, rfl, ⟨hbefore, rfl⟩, nested, rfl, hinner⟩ := hfront
    exact ⟨before, inner, after, nested, rfl, by simp, hbefore, hafter, hinner⟩
  · intro h
    obtain ⟨before, inner, after, nested, rfl, rfl, hbefore, hafter, hinner⟩ := h
    refine ⟨before ++ inner, after, (name, inner) :: nested, [], rfl, by simp, ?_, hafter, rfl⟩
    exact ⟨before, inner, [], (name, inner) :: nested, rfl, rfl, ⟨hbefore, rfl⟩, nested, rfl, hinner⟩

/-- However the pattern reads a text, the text is a clause. White space around the measure may have gone
to the measure's group or to its neighbours. -/
theorem IsClause.of_reads (h : clausePattern.Reads cs groups) :
    ∃ measure name op value number, IsClause cs measure op value number ∧ trim name = trim measure ∧
      groups = groupsOf name op number := by
  simp only [clausePattern, Pattern.reads_append_iff, Pattern.reads_group_iff] at h
  obtain ⟨_, value, _, _, rfl, rfl, ⟨measure, _, _, _, rfl, rfl, hmeasure, _, rfl, hop⟩, hvalue⟩ := h
  obtain ⟨before, name, after, _, rfl, rfl, hbefore, hafter, hread⟩ := padded_reads_iff.1 hmeasure
  obtain ⟨hne, hname, rfl⟩ := Pattern.reads_some_iff.1 hread
  obtain ⟨⟨op, rfl⟩, rfl⟩ := operatorPattern_reads_iff.1 hop
  obtain ⟨left, number, right, _, rfl, rfl, hleft, hright, hread⟩ := padded_reads_iff.1 hvalue
  obtain ⟨hnumber, rfl⟩ := numberPattern_reads_iff.1 hread
  have hchars : ∀ c ∈ before ++ name ++ after, isMeasureChar c = true := by
    simp only [List.forall_mem_append]
    exact ⟨⟨fun c hc => isMeasureChar_of_isBlank (hbefore c hc), hname⟩,
      fun c hc => isMeasureChar_of_isBlank (hafter c hc)⟩
  exact ⟨before ++ name ++ after, name, op, left ++ number ++ right, number,
    ⟨rfl, by simp [hne], hchars, ⟨left, right, rfl, hleft, hright⟩, hnumber⟩,
    (trim_between_blanks hbefore hafter).symm, rfl⟩

/-- A clause is read with all that stands before the operator in the measure's group. -/
theorem IsClause.reads (h : IsClause cs measure op value number) :
    clausePattern.Reads cs (groupsOf measure op number) := by
  obtain ⟨rfl, hne, hmeasure, ⟨left, right, rfl, hleft, hright⟩, hnumber⟩ := h
  have hnone : ∀ c ∈ ([] : List Char), isBlank c = true := List.forall_mem_nil _
  have hname : (padded "measure" (.some isMeasureChar)).Reads measure [("measure", measure)] :=
    padded_reads_iff.2 ⟨[], measure, [], [], by simp, rfl, hnone, hnone,
      Pattern.reads_some_iff.2 ⟨hne, hmeasure, rfl⟩⟩
  have hop : (Pattern.group "op" operatorPattern).Reads (chars op) [("op", chars op)] :=
    .group (operatorPattern_reads_iff.2 ⟨⟨op, rfl⟩, rfl⟩)
  have hvalue : (padded "value" numberPattern).Reads (left ++ number ++ right) [("value", number)] :=
    padded_reads_iff.2 ⟨left, number, right, [], rfl, rfl, hleft, hright,
      numberPattern_reads_iff.2 ⟨hnumber, rfl⟩⟩
  exact (hname.sequence hop).sequence hvalue

theorem comparisonOfGroups_groupsOf {cube : Cube} {text : String} {name : List Char} :
    comparisonOfGroups cube text (groupsOf name op number) =
      match cube.measure? (String.ofList (trim name)) with
      | none => .error (.unknownMeasure cube.name (String.ofList (trim name)))
      | some m => .ok ⟨.measure m.fullName, op, String.ofList number⟩ := by
  have hop : CompareOp.ofText? (String.ofList (chars op)) = some op := by
    rw [chars, String.ofList_toList, CompareOp.ofText?_text]
  simp [comparisonOfGroups, groupsOf, trimmed, hop]

end Patterns

/-! ## The comparison of a clause -/

section Comparison

variable {cube : Cube} {text : String} {measure value number : List Char} {op : CompareOp}

theorem IsClause.comparison_eq (h : IsClause text.toList measure op value number) :
    comparison cube text =
      match cube.measure? (String.ofList (trim measure)) with
      | none => .error (.unknownMeasure cube.name (String.ofList (trim measure)))
      | some m => .ok ⟨.measure m.fullName, op, String.ofList number⟩ := by
  have hclause : Clause.ofText? text = some ⟨String.ofList (trim measure), op, String.ofList number⟩ :=
    Clause.ofText?_eq_some_iff.2 ⟨measure, value, number, h, rfl, rfl⟩
  cases hfound : cube.measure? (String.ofList (trim measure)) with
  | none => simp only [comparison, hclause, hfound]
  | some m => simp only [comparison, hclause, hfound]

theorem IsClause.comparison_ne_invalidFilter (h : IsClause text.toList measure op value number)
    (shown : String) : comparison cube text ≠ .error (.invalidFilter shown) := by
  rw [h.comparison_eq]
  cases cube.measure? (String.ofList (trim measure)) with
  | none => simp
  | some m => simp

theorem comparison_eq_invalidFilter
    (h : ¬ ∃ measure op value number, IsClause text.toList measure op value number) :
    comparison cube text = .error (.invalidFilter text) := by
  have hnone : Clause.ofText? text = none := by
    rw [Option.eq_none_iff_forall_ne_some]
    intro clause hclause
    obtain ⟨measure, value, number, hparts, -⟩ := Clause.ofText?_eq_some_iff.1 hclause
    exact h ⟨measure, clause.op, value, number, hparts⟩
  rw [comparison, hnone]

theorem comparison_eq_of_reads {groups : Pattern.Groups}
    (h : clausePattern.Reads text.toList groups) :
    comparison cube text = comparisonOfGroups cube text groups := by
  obtain ⟨measure, name, op, value, number, hclause, htrim, rfl⟩ := IsClause.of_reads h
  rw [hclause.comparison_eq, comparisonOfGroups_groupsOf, htrim]

/-- The measure of a name, if the cube has one, is the first. -/
theorem measure?_cases (cube : Cube) (name : String) :
    (∃ before m after, cube.measures = before ++ m :: after ∧ m.name = name ∧
      (∀ other ∈ before, other.name ≠ name) ∧ cube.measure? name = some m) ∨
    (∀ m ∈ cube.measures, m.name ≠ name) ∧ cube.measure? name = none := by
  cases hfound : cube.measure? name with
  | none =>
      right
      rw [Cube.measure?, List.find?_eq_none] at hfound
      exact ⟨by simpa using hfound, rfl⟩
  | some m =>
      left
      rw [Cube.measure?, List.find?_eq_some_iff_append] at hfound
      obtain ⟨hname, before, after, hsplit, hbefore⟩ := hfound
      exact ⟨before, m, after, hsplit, by simpa using hname, by simpa using hbefore, rfl⟩

end Comparison

/-- A text is refused as a filter exactly when it is no clause. A clause has one division into parts, and
stands for the comparison of the measure it names, unless the cube lacks that measure. However the pattern
of clauses reads a text, what it reads stands for the same comparison. -/
theorem comparison_recognises_clauses (cube : Cube) (text : String) :
    ((∀ shown, comparison cube text ≠ .error (.invalidFilter shown)) ↔
      ∃ measure op value number, IsClause text.toList measure op value number) ∧
    (∀ measure op value number, IsClause text.toList measure op value number →
      (∀ measure' op' value' number', IsClause text.toList measure' op' value' number' →
        measure' = measure ∧ op' = op ∧ value' = value ∧ number' = number) ∧
      ((∃ before m after, cube.measures = before ++ m :: after ∧
          m.name = String.ofList (trim measure) ∧
          (∀ other ∈ before, other.name ≠ String.ofList (trim measure)) ∧
          comparison cube text = .ok ⟨.measure m.fullName, op, String.ofList number⟩) ∨
        (∀ m ∈ cube.measures, m.name ≠ String.ofList (trim measure)) ∧
          comparison cube text =
            .error (.unknownMeasure cube.name (String.ofList (trim measure))))) ∧
    (∀ groups, clausePattern.Reads text.toList groups →
      comparison cube text = comparisonOfGroups cube text groups) ∧
    ((¬ ∃ groups, clausePattern.Reads text.toList groups) →
      comparison cube text = .error (.invalidFilter text)) := by
  refine ⟨⟨?_, ?_⟩, ?_, fun groups => comparison_eq_of_reads, ?_⟩
  · intro h
    by_contra hnone
    exact h text (comparison_eq_invalidFilter hnone)
  · intro h
    obtain ⟨measure, op, value, number, hclause⟩ := h
    exact hclause.comparison_ne_invalidFilter
  · intro measure op value number hclause
    refine ⟨fun _ _ _ _ => hclause.unique, ?_⟩
    rw [hclause.comparison_eq]
    rcases measure?_cases cube (String.ofList (trim measure)) with
      ⟨before, m, after, hsplit, hname, hbefore, hfound⟩ | ⟨hnone, hfound⟩
    · left
      exact ⟨before, m, after, hsplit, hname, hbefore, by rw [hfound]⟩
    · right
      exact ⟨hnone, by rw [hfound]⟩
  · intro h
    apply comparison_eq_invalidFilter
    rintro ⟨measure, op, value, number, hclause⟩
    exact h ⟨_, hclause.reads⟩

/-- White space around the measure and the number is no part of the comparison. -/
theorem comparison_recognises_clauses_unit_sales :
    let cube : Cube :=
      ⟨"Sales", .empty, [], [⟨"Unit Sales", "Unit Sales", "[Measures].[Unit Sales]", true, .empty⟩], []⟩
    IsClause " Unit Sales >= -2.5 ".toList " Unit Sales ".toList .ge " -2.5 ".toList "-2.5".toList ∧
      comparison cube " Unit Sales >= -2.5 " =
        .ok ⟨.measure "[Measures].[Unit Sales]", .ge, "-2.5"⟩ := by
  intro cube
  have hnumber : IsNumber "-2.5".toList :=
    ⟨['-'], ['2'], ['.', '5'], rfl, .inr rfl, by decide, List.all_eq_true.1 (by decide),
      .inr ⟨['5'], rfl, List.all_eq_true.1 (by decide)⟩⟩
  have hclause : IsClause " Unit Sales >= -2.5 ".toList " Unit Sales ".toList .ge " -2.5 ".toList
      "-2.5".toList :=
    ⟨by decide, by decide, List.all_eq_true.1 (by decide),
      ⟨[' '], [' '], by decide, List.all_eq_true.1 (by decide), List.all_eq_true.1 (by decide)⟩, hnumber⟩
  obtain ⟨-, hparts, -⟩ := comparison_recognises_clauses cube " Unit Sales >= -2.5 "
  obtain ⟨-, hcomparison⟩ := hparts _ _ _ _ hclause
  refine ⟨hclause, ?_⟩
  rcases hcomparison with ⟨before, m, after, hsplit, -, -, heq⟩ | ⟨hnone, -⟩
  · cases before with
    | nil =>
        obtain rfl := (List.cons.inj hsplit).1
        exact heq
    | cons other before => simp [cube] at hsplit
  · exact absurd rfl (hnone _ List.mem_cons_self)

end CubeQuery.Plan.Filter
