import CubeQuery.Proofs.Outcome
import CubeQuery.Proofs.Plan.FilterClauses

/-!
# Numbers of filter clauses

The number of a clause is kept as it is written and goes into the query as it is. It may be written in
the digits of any script, so the query holds numbers in the digits from 0 to 9 alone exactly if the
clauses have no other digits behind their operators (`Filter.numbers_plain_iff`).
-/

namespace CubeQuery.Plan.Filter

open Mdx Text

/-- An optional minus sign, digits from 0 to 9, and possibly a point that more of them may follow. -/
def IsPlainNumber (cs : List Char) : Prop :=
  ∃ minus digits decimals, cs = minus ++ digits ++ decimals ∧ (minus = [] ∨ minus = ['-']) ∧
    digits ≠ [] ∧ (∀ c ∈ digits, c.isDigit = true) ∧
    (decimals = [] ∨ ∃ more, decimals = '.' :: more ∧ ∀ c ∈ more, c.isDigit = true)

/-- All decimal digits of a text are among those from 0 to 9. -/
def PlainDigits (cs : List Char) : Prop := ∀ c ∈ cs, isDecimalDigit c = true → c.isDigit = true

instance (cs : List Char) : Decidable (PlainDigits cs) :=
  List.decidableBAll (fun c => isDecimalDigit c = true → c.isDigit = true) cs

theorem isDecimalDigit_of_isDigit {c : Char} (h : c.isDigit = true) : isDecimalDigit c = true := by
  have hcode : c.toNat < 128 := by
    simp only [Char.isDigit, Bool.and_eq_true, decide_eq_true_eq] at h
    have hle : c.val.toNat ≤ '9'.val.toNat := h.2
    have hnine : '9'.val.toNat = 57 := rfl
    show c.val.toNat < 128
    omega
  rw [isDecimalDigit, if_pos hcode, h]

theorem plainDigits_append {xs ys : List Char} :
    PlainDigits (xs ++ ys) ↔ PlainDigits xs ∧ PlainDigits ys := List.forall_mem_append

theorem plainDigits_of_isBlank {cs : List Char} (h : ∀ c ∈ cs, isBlank c = true) :
    PlainDigits cs := by
  intro c hc hdigit
  have hblank : isBlank c = false := isBlank_of_isDecimalDigit hdigit
  rw [h c hc] at hblank
  cases hblank

/-- A number is plain if its digits are. -/
theorem isPlainNumber_iff {cs : List Char} : IsPlainNumber cs ↔ IsNumber cs ∧ PlainDigits cs := by
  constructor
  · intro h
    obtain ⟨minus, digits, decimals, rfl, hminus, hne, hdigits, hdecimals⟩ := h
    have hminusPlain : PlainDigits minus := by
      rcases hminus with rfl | rfl
      · exact List.forall_mem_nil _
      · exact List.forall_mem_singleton.2 fun hdigit => absurd hdigit (by decide)
    have hdigitsPlain : PlainDigits digits := fun c hc _ => hdigits c hc
    have hwide : ∀ c ∈ digits, isDecimalDigit c = true := fun c hc =>
      isDecimalDigit_of_isDigit (hdigits c hc)
    rcases hdecimals with rfl | ⟨more, rfl, hmore⟩
    · refine ⟨⟨minus, digits, [], rfl, hminus, hne, hwide, .inl rfl⟩, ?_⟩
      rw [List.append_nil]
      exact plainDigits_append.2 ⟨hminusPlain, hdigitsPlain⟩
    · have hpoint : PlainDigits ('.' :: more) :=
        List.forall_mem_cons.2 ⟨fun hdigit => absurd hdigit (by decide), fun c hc _ => hmore c hc⟩
      have hmoreWide : ∀ c ∈ more, isDecimalDigit c = true := fun c hc =>
        isDecimalDigit_of_isDigit (hmore c hc)
      refine ⟨⟨minus, digits, '.' :: more, rfl, hminus, hne, hwide, .inr ⟨more, rfl, hmoreWide⟩⟩, ?_⟩
      exact plainDigits_append.2 ⟨plainDigits_append.2 ⟨hminusPlain, hdigitsPlain⟩, hpoint⟩
  · intro h
    obtain ⟨⟨minus, digits, decimals, rfl, hminus, hne, hdigits, hdecimals⟩, hplain⟩ := h
    have hparts := plainDigits_append.1 hplain
    have hfront := plainDigits_append.1 hparts.1
    refine ⟨minus, digits, decimals, rfl, hminus, hne, fun c hc => hfront.2 c hc (hdigits c hc), ?_⟩
    rcases hdecimals with rfl | ⟨more, rfl, hmore⟩
    · exact .inl rfl
    · have htail := (List.forall_mem_cons.1 hparts.2).2
      exact .inr ⟨more, rfl, fun c hc => htail c hc (hmore c hc)⟩

section Clauses

variable {cs measure value number : List Char} {op : CompareOp}

/-- White space has no digits, so the digits behind the operator are those of the number. -/
theorem IsClause.isPlainNumber_iff (h : IsClause cs measure op value number) :
    IsPlainNumber number ↔ PlainDigits value := by
  obtain ⟨before, after, hvalue, hbefore, hafter⟩ := h.surrounds
  have hdigits : PlainDigits value ↔ PlainDigits number := by
    rw [hvalue, plainDigits_append, plainDigits_append]
    have hleft := plainDigits_of_isBlank hbefore
    have hright := plainDigits_of_isBlank hafter
    exact ⟨fun hall => hall.1.2, fun hnumber => ⟨⟨hleft, hnumber⟩, hright⟩⟩
  rw [hdigits, Filter.isPlainNumber_iff]
  exact and_iff_right h.isNumber

/-- A comparison has the operator and the number of the clause that it stands for. -/
theorem exists_isClause_of_comparison {cube : Cube} {text : String} {x : Comparison}
    (h : comparison cube text = .ok x) :
    ∃ measure value number, IsClause text.toList measure x.op value number ∧
      x.number = String.ofList number := by
  unfold comparison at h
  cases hclause : Clause.ofText? text with
  | none =>
      rw [hclause] at h
      cases h
  | some clause =>
      rw [hclause] at h
      cases hmeasure : cube.measure? clause.measure with
      | none =>
          simp only [hmeasure] at h
          cases h
      | some m =>
          simp only [hmeasure] at h
          cases h
          obtain ⟨measure, value, number, hparts, -, hnumber⟩ := Clause.ofText?_eq_some_iff.1 hclause
          exact ⟨measure, value, number, hparts, hnumber⟩

end Clauses

theorem condition_eq_ok {cube : Cube} {clauses : List String} {c : Condition} :
    condition cube clauses = .ok c ↔ clauses.mapM (comparison cube) = .ok c.comparisons := by
  unfold condition
  cases clauses.mapM (comparison cube) with
  | error e => simp [Except.map]
  | ok comparisons =>
      obtain ⟨shown⟩ := c
      simp [Except.map]

/-- Every comparison has the number of its clause, letter for letter. All numbers are plain exactly if
no clause has a digit other than 0 to 9 behind its operator. -/
theorem numbers_plain_iff (cube : Cube) (clauses : List String) (c : Condition)
    (h : condition cube clauses = .ok c) :
    List.Forall₂ (fun text x => ∃ measure value number,
        IsClause text.toList measure x.op value number ∧ x.number = String.ofList number)
      clauses c.comparisons ∧
    ((∀ x ∈ c.comparisons, IsPlainNumber x.number.toList) ↔
      ∀ text ∈ clauses, ∀ measure op value number, IsClause text.toList measure op value number →
        PlainDigits value) := by
  have hrun := condition_eq_ok.1 h
  refine ⟨(mapM_eq_ok.1 hrun).imp fun _ _ => exists_isClause_of_comparison, ?_, ?_⟩
  · intro hplain text htext measure op value number hclause
    have hplace := List.mem_iff_getElem?.1 htext
    obtain ⟨i, hi⟩ := hplace
    obtain ⟨x, hx, hcomparison⟩ := exists_of_getElem?_mapM hrun hi
    obtain ⟨_, _, _, hparts, hnumber⟩ := exists_isClause_of_comparison hcomparison
    -- The text is a clause in one way only, so this is the number of the comparison.
    obtain ⟨-, -, rfl, rfl⟩ := hparts.unique hclause
    have hx := hplain x (List.mem_of_getElem? hx)
    rw [hnumber, String.toList_ofList] at hx
    exact hclause.isPlainNumber_iff.1 hx
  · intro hplain x hx
    obtain ⟨text, htext, hcomparison⟩ := exists_of_mem_mapM hrun hx
    obtain ⟨measure, value, number, hparts, hnumber⟩ := exists_isClause_of_comparison hcomparison
    rw [hnumber, String.toList_ofList]
    exact hparts.isPlainNumber_iff.2 (hplain text htext measure x.op value number hparts)

/-- A negative number with a fraction, in plain digits. -/
theorem numbers_plain_iff_negative :
    let cube : Cube :=
      ⟨"Sales", .empty, [], [⟨"Units", "Units", "[Measures].[Units]", true, .empty⟩], []⟩
    let c : Condition := ⟨[⟨.measure "[Measures].[Units]", .gt, "-2.5"⟩]⟩
    condition cube ["Units > -2.5"] = .ok c ∧
      ∀ x ∈ c.comparisons, IsPlainNumber x.number.toList := by
  intro cube c
  have hrun : (condition cube ["Units > -2.5"]).toOption = some c := by decide +kernel
  have hcondition := toOption_eq_some_iff.1 hrun
  have htext : PlainDigits "Units > -2.5".toList := by decide
  refine ⟨hcondition, (numbers_plain_iff cube ["Units > -2.5"] c hcondition).2.2 ?_⟩
  intro text hmem measure op value number hclause
  obtain rfl := List.mem_singleton.1 hmem
  rw [hclause.parts] at htext
  exact (plainDigits_append.1 htext).2

/-- A number in Arabic digits goes into the query as it is, and is not plain. -/
theorem not_plain_of_arabic_digit :
    let cube : Cube :=
      ⟨"Sales", .empty, [], [⟨"Units", "Units", "[Measures].[Units]", true, .empty⟩], []⟩
    ∃ c, condition cube ["Units > \u0663"] = .ok c ∧ c.text = "[Measures].[Units] > \u0663" ∧
      ∃ x ∈ c.comparisons, ¬ IsPlainNumber x.number.toList := by
  intro cube
  let c : Condition := ⟨[⟨.measure "[Measures].[Units]", .gt, "\u0663"⟩]⟩
  have hrun : (condition cube ["Units > \u0663"]).toOption = some c := by decide +kernel
  refine ⟨c, toOption_eq_some_iff.1 hrun, by decide +kernel, _, List.mem_cons_self, ?_⟩
  intro hplain
  have hdigits := (isPlainNumber_iff.1 hplain).2
  exact absurd (hdigits '\u0663' (by decide) (by decide +kernel)) (by decide)

end CubeQuery.Plan.Filter
