import Mathlib
import CubeQuery.Proofs.Text.Trim
import CubeQuery.Settings.Expansion

/-!
# How references are expanded

A text falls into plain characters, references and dollar signs that stand alone in one way only, and it
is expanded piece by piece. So texts are expanded apart wherever a text is cut between two of its pieces
(`expand_pieces_apart`).
-/

namespace CubeQuery.Settings

open Text

/-! ## The split of a text -/

/-- The piece may stand in front of a text: a dollar sign alone and a name without braces must not go on
there, and only the end of a text leaves braces open. -/
def Piece.Fits : Piece → List Char → Prop
  | .plain c, _ => c ≠ '$'
  | .dollar, rest => ∀ c ∈ rest.head?, c ≠ '\x7b' ∧ isNameChar c = false
  | .named name, rest =>
    name ≠ [] ∧ (∀ c ∈ name, isNameChar c = true) ∧ ∀ c ∈ rest.head?, isNameChar c = false
  | .braced name closed, rest => '\x7d' ∉ name ∧ (closed = false → rest = [])

/-- The pieces of a text from left to right. -/
inductive Splits : List Char → List Piece → Prop where
  | done : Splits [] []
  | piece {p : Piece} {rest : List Char} {ps : List Piece} (hfits : p.Fits rest) (h : Splits rest ps) :
      Splits (p.chars ++ rest) (p :: ps)

theorem isNameChar_brace : isNameChar '\x7b' = false := by decide

theorem mem_takeWhile_notClosing (cs : List Char) : '\x7d' ∉ cs.takeWhile notClosing := by
  intro h
  have hnot := List.mem_takeWhile_imp h
  simp [notClosing] at hnot

theorem afterDollar_of_not_brace {cs : List Char} (h : ∀ c ∈ cs.head?, c ≠ '\x7b') :
    afterDollar cs = if (cs.takeWhile isNameChar).isEmpty then (.dollar, cs)
      else (.named (cs.takeWhile isNameChar), cs.dropWhile isNameChar) := by
  unfold afterDollar
  split
  · exact absurd rfl (h '\x7b' rfl)
  · rfl

theorem fits_afterDollar (cs : List Char) : (afterDollar cs).1.Fits (afterDollar cs).2 := by
  unfold afterDollar
  split
  · rename_i cs
    split
    · exact ⟨mem_takeWhile_notClosing cs, nofun⟩
    · exact ⟨mem_takeWhile_notClosing cs, fun _ => rfl⟩
  · rename_i hbrace
    split
    · rename_i hempty
      intro c hc
      obtain ⟨rest, rfl⟩ := List.head?_eq_some_iff.1 hc
      constructor
      · rintro rfl
        exact hbrace rest rfl
      · simpa [List.takeWhile_cons] using hempty
    · rename_i hne
      refine ⟨by simpa using hne, fun c hc => List.mem_takeWhile_imp hc, fun c hc => ?_⟩
      have hstop := List.head?_dropWhile_not isNameChar cs
      rw [Option.mem_def.1 hc] at hstop
      simpa using hstop

theorem splits_pieces (cs : List Char) : Splits cs (pieces cs) := by
  fun_induction pieces cs with
  | case1 => exact .done
  | case2 cs ih =>
      rw [← chars_afterDollar cs]
      exact .piece (fits_afterDollar cs) ih
  | case3 c cs hc ih =>
      exact .piece (p := .plain c) hc ih

/-- A piece that may stand in front of a text is the first one read there. -/
theorem pieces_append {p : Piece} {rest : List Char} (h : p.Fits rest) :
    pieces (p.chars ++ rest) = p :: pieces rest := by
  cases p with
  | plain c =>
      rw [Piece.chars, List.singleton_append, pieces, if_neg h]
  | dollar =>
      have hname : ∀ c ∈ rest.head?, isNameChar c = false := fun c hc => (h c hc).2
      have htake := (takeWhile_append (List.forall_mem_nil _) hname).1
      rw [List.nil_append] at htake
      rw [Piece.chars, List.singleton_append, pieces, if_pos rfl,
        afterDollar_of_not_brace fun c hc => (h c hc).1, htake]
      rfl
  | named name =>
      obtain ⟨hne, hname, hend⟩ := h
      have hbrace : ∀ c ∈ (name ++ rest).head?, c ≠ '\x7b' := by
        obtain ⟨first, name, rfl⟩ := List.exists_cons_of_ne_nil hne
        rintro c ⟨⟩ rfl
        have hbrace := hname '\x7b' List.mem_cons_self
        rw [isNameChar_brace] at hbrace
        cases hbrace
      obtain ⟨htake, hdrop⟩ := takeWhile_append hname hend
      rw [Piece.chars, List.cons_append, pieces, if_pos rfl, afterDollar_of_not_brace hbrace, htake,
        hdrop, if_neg (by simpa using hne)]
  | braced name closed =>
      obtain ⟨hname, hclosed⟩ := h
      have hinside : ∀ c ∈ name, notClosing c = true := by
        rintro c hc
        have hne : c ≠ '\x7d' := fun h => hname (h ▸ hc)
        simpa [notClosing] using hne
      cases closed with
      | true =>
          have hstop : ∀ c ∈ ('\x7d' :: rest).head?, notClosing c = false := by
            rintro c ⟨⟩
            rfl
          obtain ⟨htake, hdrop⟩ := takeWhile_append hinside hstop
          simp [Piece.chars, pieces, afterDollar, htake, hdrop]
      | false =>
          obtain rfl := hclosed rfl
          have hstop : ∀ c ∈ ([] : List Char).head?, notClosing c = false := by
            rintro c ⟨⟩
          obtain ⟨htake, hdrop⟩ := takeWhile_append hinside hstop
          rw [List.append_nil] at htake hdrop
          simp [Piece.chars, pieces, afterDollar, htake, hdrop]

theorem Splits.pieces_eq {cs : List Char} {ps : List Piece} (h : Splits cs ps) : pieces cs = ps := by
  induction h with
  | done => rw [pieces]
  | piece hfits _ ih => rw [pieces_append hfits, ih]

/-! ## Cuts -/

/-- Whether the cut behind the first `n` characters of a text falls inside a reference among its
pieces. -/
def cutsReference : List Piece → Nat → Bool
  | [], _ => false
  | p :: ps, n =>
    if n < p.chars.length then p.reference?.isSome && n != 0 else cutsReference ps (n - p.chars.length)

theorem Piece.length_chars {p : Piece} (h : p.reference?.isSome = false) : p.chars.length = 1 := by
  cases p with
  | plain c => rfl
  | dollar => rfl
  | named name => cases h
  | braced name closed => cases h

/-- What may follow a piece may be cut short. -/
theorem Piece.Fits.of_append {p : Piece} {x y : List Char} (h : p.Fits (x ++ y)) : p.Fits x := by
  have hhead : ∀ c ∈ x.head?, c ∈ (x ++ y).head? := by
    intro c hc
    obtain ⟨rest, rfl⟩ := List.head?_eq_some_iff.1 hc
    rfl
  cases p with
  | plain c => exact h
  | dollar => exact fun c hc => h c (hhead c hc)
  | named name => exact ⟨h.1, h.2.1, fun c hc => h.2.2 c (hhead c hc)⟩
  | braced name closed => exact ⟨h.1, fun hopen => (List.append_eq_nil_iff.1 (h.2 hopen)).1⟩

/-- A cut inside no reference falls between two pieces, and both sides split there. -/
theorem Splits.of_append {x y : List Char} {ps : List Piece} (h : Splits (x ++ y) ps)
    (hcut : cutsReference ps x.length = false) :
    ∃ before after, ps = before ++ after ∧ Splits x before ∧ Splits y after := by
  generalize htext : x ++ y = text at h
  induction h generalizing x with
  | done =>
      obtain ⟨rfl, rfl⟩ := List.append_eq_nil_iff.1 htext
      exact ⟨[], [], rfl, .done, .done⟩
  | @piece p rest ps hfits h ih =>
      cases x with
      | nil =>
          rw [List.nil_append] at htext
          exact ⟨[], p :: ps, rfl, .done, htext ▸ .piece hfits h⟩
      | cons c x =>
          have hwhole : p.chars.length ≤ (c :: x).length := by
            by_contra hinside
            rw [not_le] at hinside
            rw [cutsReference, if_pos hinside] at hcut
            have hplain : p.reference?.isSome = false := by simpa using hcut
            rw [Piece.length_chars hplain] at hinside
            simp at hinside
          have hleft : c :: x <+: p.chars ++ rest := ⟨y, htext⟩
          obtain ⟨left, hleft⟩ := List.prefix_of_prefix_length_le (List.prefix_append _ _) hleft hwhole
          rw [cutsReference, if_neg (not_lt.2 hwhole), ← hleft, List.length_append,
            Nat.add_sub_cancel_left] at hcut
          rw [← hleft, List.append_assoc] at htext
          have hrest := List.append_cancel_left htext
          obtain ⟨before, after, rfl, hbefore, hafter⟩ := ih hcut hrest
          rw [← hrest] at hfits
          exact ⟨p :: before, after, rfl, hleft ▸ .piece hfits.of_append hbefore, hafter⟩

/-! ## Expansion piece by piece -/

section Expansion

variable (env : Environment)

def Piece.shown (p : Piece) : List Char :=
  match p.reference? with
  | none => p.chars
  | some name => ((env name).getD "").toList

def firstUnset? (ps : List Piece) : Option String :=
  (ps.filterMap (·.reference?)).find? fun name => (env name).isNone

theorem firstUnset?_eq_none {ps : List Piece} :
    firstUnset? env ps = none ↔ ∀ name ∈ ps.filterMap (·.reference?), (env name).isSome = true := by
  rw [firstUnset?, List.find?_eq_none]
  simp only [Option.isNone_iff_eq_none, Option.isSome_iff_ne_none, ne_eq]

theorem firstUnset?_cons (p : Piece) (ps : List Piece) :
    firstUnset? env (p :: ps) = (firstUnset? env [p]).or (firstUnset? env ps) := by
  rw [← List.singleton_append, firstUnset?, List.filterMap_append, List.find?_append]
  rfl

theorem Piece.expansion_eq (p : Piece) :
    p.expansion env = match firstUnset? env [p] with
      | none => .ok (p.shown env)
      | some name => .error name := by
  unfold expansion
  cases hreference : p.reference? with
  | none => simp [firstUnset?, shown, hreference]
  | some name =>
      cases hvalue : env name with
      | none => simp [firstUnset?, hreference, hvalue]
      | some value => simp [firstUnset?, shown, hreference, hvalue]

theorem mapM_expansion (ps : List Piece) :
    ps.mapM (·.expansion env) = match firstUnset? env ps with
      | none => .ok (ps.map (·.shown env))
      | some name => .error name := by
  induction ps with
  | nil => rfl
  | cons p ps ih =>
      rw [List.mapM_cons, p.expansion_eq, ih, firstUnset?_cons env p ps]
      cases firstUnset? env [p] with
      | some name => rfl
      | none =>
          cases firstUnset? env ps with
          | some name => rfl
          | none => rfl

theorem expand_of_splits {text : String} {ps : List Piece} (h : Splits text.toList ps) :
    expand env text = match firstUnset? env ps with
      | none => .ok (String.ofList (ps.flatMap (·.shown env)))
      | some name => .error name := by
  rw [expand, h.pieces_eq, mapM_expansion]
  cases firstUnset? env ps <;> rfl

end Expansion

/-- A text splits in exactly one way. Its expansion is made of its plain characters, its lone dollar
signs and the values of its references as they are, if each variable referred to is set, and fails
otherwise with the leftmost one that is not. Two texts that meet inside no reference of the whole expand
to their expansions put together; a name or a brace behind a dollar sign is inside of its reference. -/
theorem expand_pieces_apart (env : Environment) :
    (∀ text : List Char, ∃! ps, Splits text ps) ∧
      (∀ (text : String) (ps : List Piece), Splits text.toList ps →
        (∀ expanded, expand env text = .ok expanded ↔
          (∀ name ∈ ps.filterMap (·.reference?), (env name).isSome = true) ∧
            expanded = String.ofList (ps.flatMap (·.shown env))) ∧
        ∀ name, expand env text = .error name ↔ firstUnset? env ps = some name) ∧
      ∀ (a b : String) (ps : List Piece), Splits (a ++ b).toList ps → cutsReference ps a.length = false →
        expand env (a ++ b) = do
          let before ← expand env a
          let after ← expand env b
          return before ++ after := by
  refine ⟨fun text => ⟨pieces text, splits_pieces text, fun ps h => h.pieces_eq.symm⟩, ?_, ?_⟩
  · intro text ps h
    rw [expand_of_splits env h, ← firstUnset?_eq_none]
    cases firstUnset? env ps with
    | none => simp [eq_comm]
    | some name => simp
  · intro a b ps h hcut
    rw [String.toList_append] at h
    rw [← String.length_toList] at hcut
    obtain ⟨before, after, rfl, hbefore, hafter⟩ := h.of_append hcut
    rw [expand, expand, expand, String.toList_append, h.pieces_eq, hbefore.pieces_eq, hafter.pieces_eq,
      List.mapM_append]
    cases before.mapM (·.expansion env) with
    | error name => rfl
    | ok values =>
        cases after.mapM (·.expansion env) with
        | error name => rfl
        | ok others => simp [bind, Except.bind, pure, Except.pure]

/-- A value that looks like a reference, references that touch, a sign alone and open braces. -/
theorem expand_pieces_apart_touching :
    let env : Environment := .ofLines ["A=$B", "x y="]
    let pieces : List Piece :=
      [.dollar, .named ['A'], .braced ['x', ' ', 'y'] true, .plain '.', .braced ['A'] false]
    Splits ("$$A$\x7bx y\x7d" ++ ".$\x7bA").toList pieces ∧
      cutsReference pieces "$$A$\x7bx y\x7d".length = false ∧
      expand env ("$$A$\x7bx y\x7d" ++ ".$\x7bA") = .ok ("$$B" ++ ".$B") ∧
      expand env "$A$B$C" = .error "B" := by
  intro env ps
  obtain ⟨-, houtcome, happend⟩ := expand_pieces_apart env
  have hpieces : pieces ("$$A$\x7bx y\x7d" ++ ".$\x7bA").toList = ps := by cbv
  have hsplits : Splits ("$$A$\x7bx y\x7d" ++ ".$\x7bA").toList ps := hpieces ▸ splits_pieces _
  have hcut : cutsReference ps "$$A$\x7bx y\x7d".length = false := by decide
  have hleft : expand env "$$A$\x7bx y\x7d" = .ok "$$B" := by cbv
  have hright : expand env ".$\x7bA" = .ok ".$B" := by cbv
  have hunset : firstUnset? env (pieces "$A$B$C".toList) = some "B" := by cbv
  refine ⟨hsplits, hcut, ?_, ((houtcome _ _ (splits_pieces _)).2 "B").2 hunset⟩
  rw [happend _ _ ps hsplits hcut, hleft, hright]
  rfl

end CubeQuery.Settings
