import CubeQuery.Mdx.Fragment
import CubeQuery.Proofs.Outcome
import CubeQuery.Proofs.Text.Capital
import CubeQuery.Proofs.Text.Trim

/-!
# Well-formed expressions

What the values that readers return have in common: a bare name is not empty, is trimmed and holds no
delimiter, a key is not empty, a function name is capital, a parenthesized list is not empty, and a
range stands only where a whole expression may stand. Every reader keeps these rules
(`isExpression_of_parse`).
-/

namespace CubeQuery.Mdx

open Text

structure IsBareName (name : List Char) : Prop where
  ne_nil : name ≠ []
  trimmed : trim name = name
  not_delimiter : ∀ c ∈ name, isDelimiter c = false

def Segment.WellFormed (s : Segment) : Prop :=
  match s.quoting with
  | .unquoted => IsBareName s.name.toList
  | .quoted => True
  | .key => s.name.toList ≠ []

structure Identifier.WellFormed (i : Identifier) : Prop where
  ne_nil : i.segments ≠ []
  segments : ∀ s ∈ i.segments, s.WellFormed

/-- A name of a function, in its capital form. -/
structure IsFunctionName (name : List Char) : Prop where
  bare : IsBareName name
  capital : capitals name = name

namespace Fragment

mutual

/-- Fragments that may be an end of a range. -/
inductive IsPrimary : Fragment → Prop where
  | identifier {name : Identifier} (h : name.WellFormed) : IsPrimary (.identifier name)
  | braces {items : List Fragment} (h : ∀ f ∈ items, IsExpression f) : IsPrimary (.braces items)
  | parens {items : List Fragment} (ne_nil : items ≠ []) (h : ∀ f ∈ items, IsExpression f) :
      IsPrimary (.parens items)
  | call {function : String} {arguments : List Fragment} (name : IsFunctionName function.toList)
      (h : ∀ f ∈ arguments, IsExpression f) : IsPrimary (.call function arguments)

inductive IsExpression : Fragment → Prop where
  | primary {f : Fragment} (h : IsPrimary f) : IsExpression f
  | range {low high : Fragment} (hlow : IsPrimary low) (hhigh : IsPrimary high) :
      IsExpression (.range low high)

end

end Fragment

/-! ## Names -/

theorem isBareName_bareName {cs : List Char} (h : (bareName cs).1 ≠ []) :
    IsBareName (bareName cs).1 where
  ne_nil := h
  trimmed := trim_trim _
  not_delimiter c hc := by
    have hrun := List.mem_takeWhile_imp (mem_of_mem_trim hc)
    simpa using hrun

theorem capitals_ne_nil {cs : List Char} (h : cs ≠ []) : capitals cs ≠ [] := by
  cases cs with
  | nil => exact absurd rfl h
  | cons c cs => simp [capitals, capital_ne_nil]

theorem head?_capitals (cs : List Char) :
    (capitals cs).head? = cs.head?.bind fun c => (capital c).head? := by
  cases cs with
  | nil => rfl
  | cons c cs => simp [capitals, List.head?_append_of_ne_nil _ (capital_ne_nil c)]

theorem getLast?_capitals (cs : List Char) :
    (capitals cs).getLast? = cs.getLast?.bind fun c => (capital c).getLast? := by
  rcases List.eq_nil_or_concat cs with rfl | ⟨init, c, rfl⟩
  · rfl
  · have hlast : capitals [c] = capital c := by simp [capitals]
    rw [List.concat_eq_append, capitals_append, hlast,
      List.getLast?_append_of_ne_nil _ (capital_ne_nil c)]
    simp

theorem trim_capitals {cs : List Char} (h : trim cs = cs) : trim (capitals cs) = capitals cs := by
  obtain ⟨hhead, hlast⟩ := (trim_eq_self_iff cs).1 h
  rw [trim_eq_self_iff, head?_capitals, getLast?_capitals]
  constructor
  · intro d hd
    obtain ⟨c, hc, hform⟩ := Option.mem_bind_iff.1 hd
    exact isBlank_of_mem_capital (List.mem_of_mem_head? hform) (hhead c hc)
  · intro d hd
    obtain ⟨c, hc, hform⟩ := Option.mem_bind_iff.1 hd
    exact isBlank_of_mem_capital (List.mem_of_mem_getLast? hform) (hlast c hc)

theorem isFunctionName_capitals {name : List Char} (h : IsBareName name) :
    IsFunctionName (capitals name) where
  bare := {
    ne_nil := capitals_ne_nil h.ne_nil
    trimmed := trim_capitals h.trimmed
    not_delimiter := by
      intro d hd
      obtain ⟨c, hc, hmem⟩ := List.mem_flatMap.1 hd
      exact isDelimiter_of_mem_capital hmem (h.not_delimiter c hc) }
  capital := capitals_capitals name

/-! ## What readers return -/

theorem wellFormed_bareSegment {quoting : Quoting} {start cs rest : List Char} {s : Segment}
    (h : bareSegment quoting start cs = .ok (s, rest)) : s.WellFormed := by
  unfold bareSegment at h
  split at h
  · cases h
  · rename_i name after hne hname
    cases h
    have hbare : IsBareName name := by
      have hcs : (bareName cs).1 = name := by rw [hname]
      rw [← hcs]
      exact isBareName_bareName (by rw [hcs]; exact hne)
    cases quoting <;> simp [Segment.WellFormed, hbare, hbare.ne_nil]

theorem wellFormed_segment {cs rest : List Char} {s : Segment} (h : segment cs = .ok (s, rest)) :
    s.WellFormed := by
  unfold segment at h
  split at h
  · cases h
  · split at h <;> cases h
    trivial
  · split at h <;> cases h
    rename_i hne _
    simpa [Segment.WellFormed] using hne
  · exact wellFormed_bareSegment h
  · exact wellFormed_bareSegment h

theorem wellFormed_segments {fuel : Nat} {cs rest : List Char} {ss : List Segment}
    (h : segments fuel cs = .ok (ss, rest)) : ss ≠ [] ∧ ∀ s ∈ ss, s.WellFormed := by
  induction fuel generalizing cs rest ss with
  | zero => cases h
  | succ fuel ih =>
      rw [segments, bind_eq_ok] at h
      obtain ⟨⟨s, after⟩, hs, h⟩ := h
      have hwell := wellFormed_segment hs
      dsimp only at h
      split at h
      · obtain ⟨⟨more, last⟩, hmore, h⟩ := bind_eq_ok.1 h
        cases h
        exact ⟨List.cons_ne_nil _ _, List.forall_mem_cons.2 ⟨hwell, (ih hmore).2⟩⟩
      · cases h
        exact ⟨List.cons_ne_nil _ _, by simpa using hwell⟩

theorem wellFormed_identifier {cs rest : List Char} {i : Identifier}
    (h : identifier cs = .ok (i, rest)) : i.WellFormed := by
  obtain ⟨⟨ss, after⟩, hss, h⟩ := bind_eq_ok.1 h
  cases h
  obtain ⟨hne, hall⟩ := wellFormed_segments hss
  exact ⟨hne, hall⟩

/-- The values of a reader keep a rule. -/
def Yields {α : Type} (reader : Reader α) (P : α → Prop) : Prop :=
  ∀ cs a rest, reader cs = .ok (a, rest) → P a

theorem Yields.listItems {element : Reader Fragment} {P : Fragment → Prop} (h : Yields element P)
    (close : Char) (fuel : Nat) : Yields (listItems element close fuel) (∀ f ∈ ·, P f) := by
  intro cs items rest hitems
  induction fuel generalizing cs items rest with
  | zero => cases hitems
  | succ fuel ih =>
      rw [Mdx.listItems, bind_eq_ok] at hitems
      obtain ⟨⟨f, after⟩, hf, hitems⟩ := hitems
      have hP := h _ _ _ hf
      dsimp only at hitems
      split at hitems
      · cases hitems
      · split at hitems
        · obtain ⟨⟨more, last⟩, hmore, hitems⟩ := bind_eq_ok.1 hitems
          cases hitems
          exact List.forall_mem_cons.2 ⟨hP, ih _ _ _ hmore⟩
        · split at hitems <;> cases hitems
          simpa using hP

theorem Yields.listUpTo {element : Reader Fragment} {P : Fragment → Prop} (h : Yields element P)
    (close : Char) : Yields (listUpTo element close) (∀ f ∈ ·, P f) := by
  intro cs items rest hitems
  unfold Mdx.listUpTo at hitems
  split at hitems
  · cases hitems
  · split at hitems
    · cases hitems
      simp
    · exact h.listItems close _ _ _ _ hitems

theorem Yields.expressionOf {primary : Reader Fragment} (h : Yields primary Fragment.IsPrimary) :
    Yields (expressionOf primary) Fragment.IsExpression := by
  intro cs f rest hf
  obtain ⟨⟨low, after⟩, hlow, hf⟩ := bind_eq_ok.1 hf
  dsimp only at hf
  split at hf
  · obtain ⟨⟨high, last⟩, hhigh, hf⟩ := bind_eq_ok.1 hf
    cases hf
    exact .range (h _ _ _ hlow) (h _ _ _ hhigh)
  · cases hf
    exact .primary (h _ _ _ hlow)

theorem isFunctionName_of_function? {i : Identifier} {function : String} (hi : i.WellFormed)
    (h : i.function? = some function) : IsFunctionName function.toList := by
  unfold Identifier.function? at h
  split at h
  · rename_i name hsegments
    cases h
    have hname := hi.segments ⟨.unquoted, name⟩ (by simp [hsegments])
    simpa using isFunctionName_capitals hname
  · cases h

theorem Yields.primaryOf {inner : Reader Fragment} (h : Yields inner Fragment.IsExpression) :
    Yields (primaryOf inner) Fragment.IsPrimary := by
  intro cs f rest hf
  unfold Mdx.primaryOf at hf
  split at hf
  · cases hf
  · obtain ⟨⟨items, after⟩, hitems, hf⟩ := bind_eq_ok.1 hf
    cases hf
    exact .braces (h.listUpTo _ _ _ _ hitems)
  · obtain ⟨⟨items, after⟩, hitems, hf⟩ := bind_eq_ok.1 hf
    dsimp only at hf
    split at hf
    · cases hf
    · rename_i hne
      cases hf
      exact .parens (by simpa using hne) (h.listUpTo _ _ _ _ hitems)
  · obtain ⟨⟨name, after⟩, hname, hf⟩ := bind_eq_ok.1 hf
    have hwell := wellFormed_identifier hname
    dsimp only at hf
    split at hf
    · rename_i hfunction _
      obtain ⟨⟨arguments, last⟩, harguments, hf⟩ := bind_eq_ok.1 hf
      cases hf
      exact .call (isFunctionName_of_function? hwell hfunction) (h.listUpTo _ _ _ _ harguments)
    · cases hf
      exact .identifier hwell

theorem isPrimary_primary (depth : Nat) : Yields (primary depth) Fragment.IsPrimary := by
  induction depth with
  | zero => exact Yields.primaryOf fun _ _ _ h => by cases h
  | succ depth ih => exact Yields.primaryOf ih.expressionOf

theorem readWhole_eq_ok {α : Type} {reader : Reader α} {text : String} {a : α}
    (h : readWhole reader text = .ok a) :
    ∃ rest, reader text.toList = .ok (a, rest) ∧ skipBlanks rest = [] := by
  simp only [readWhole] at h
  split at h
  · cases h
  · split at h <;> cases h
    rename_i rest _ hrest hreader
    exact ⟨rest, hreader, hrest⟩

theorem wellFormed_of_parse {text : String} {i : Identifier} (h : Identifier.parse text = .ok i) :
    i.WellFormed := by
  obtain ⟨rest, hreader, _⟩ := readWhole_eq_ok h
  exact wellFormed_identifier hreader

/-- Whatever is read is well-formed. -/
theorem isExpression_of_parse {text : String} {f : Fragment} (h : Fragment.parse text = .ok f) :
    f.IsExpression := by
  obtain ⟨rest, hreader, _⟩ := readWhole_eq_ok h
  exact (isPrimary_primary _).expressionOf _ _ _ hreader

end CubeQuery.Mdx
