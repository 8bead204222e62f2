import CubeQuery.Proofs.Mdx.Grammar

/-!
# Every derivation is read

What the grammar derives is read wherever it can end, by induction on the depth of brackets; the
length of the text bounds that depth. With the soundness of the readers this makes the reader of
expressions exact, and no text has two trees (`parse_eq_ok_iff_derives`).
-/

namespace CubeQuery.Mdx

open Text

/-- Whatever is derived from a text of at most the given length takes something off the text and is
read, where it can end. -/
def Complete {α : Type} (reader : Reader α) (phrase : Phrase α) (ends : Char → Bool) (length : Nat) :
    Prop :=
  ∀ cs a rest, phrase cs a rest → cs.length ≤ length → rest.length < cs.length ∧
    (StopsAt ends rest → ∃ after, reader cs = .ok (a, after) ∧ skipBlanks after = skipBlanks rest)

theorem TokenAt.length_lt {c : Char} {cs rest : List Char} (h : TokenAt c cs rest) :
    rest.length < cs.length := by
  obtain ⟨blanks, _, rfl⟩ := h
  rw [List.length_append, List.length_cons]
  omega

theorem SegmentAt.exists_cons {cs rest : List Char} {s : Segment} (h : SegmentAt cs s rest) :
    ∃ c tail, skipBlanks cs = c :: tail ∧ startsName c = true ∧ rest.length ≤ tail.length := by
  cases h with
  | quoted h =>
      refine ⟨_, _, h.skipBlanks_eq (by decide), by decide, ?_⟩
      simp only [List.length_append, List.length_cons]
      omega
  | quotedKey _ h =>
      refine ⟨_, _, h.skipBlanks_eq (by decide), by decide, ?_⟩
      simp only [List.length_append, List.length_cons]
      omega
  | bareKey h hrun _ => exact ⟨_, _, h.skipBlanks_eq (by decide), by decide, by simp [hrun.split]⟩
  | bare hrun hne =>
      obtain ⟨c, tail, hskip, hblank, hc⟩ := hrun.exists_cons hne
      exact ⟨c, _, hskip, by simp [startsName, hblank, hc], by simp⟩

theorem bareSegment_of_run {cs run rest : List Char} (quoting : Quoting) (start : List Char)
    (hrun : IsRun cs run rest) (hne : trim run ≠ []) :
    bareSegment quoting start cs = .ok (⟨quoting, String.ofList (trim run)⟩, rest) := by
  obtain ⟨c, name, hname⟩ := List.exists_cons_of_ne_nil hne
  rw [bareSegment, hrun.bareName_eq, hname]

theorem SegmentAt.segment_eq {cs rest : List Char} {s : Segment} (h : SegmentAt cs s rest)
    (hrest : StopsAt endsName rest) : segment cs = .ok (s, rest) := by
  rw [← segment_skipBlanks]
  cases h with
  | @quoted _ _ name h =>
      rw [h.skipBlanks_eq (by decide)]
      have hread : segment (bracketed name.toList ++ rest) = _ := segment_bracketed hrest
      simpa [bracketed] using hread
  | @quotedKey _ _ name hne h =>
      rw [h.skipBlanks_eq (by decide)]
      have hread := segment_key_bracketed hne hrest
      simpa [bracketed] using hread
  | @bareKey _ _ run _ h hrun hne =>
      have hnil : run ≠ [] := by
        rintro rfl
        exact hne rfl
      obtain ⟨c, tail, rfl⟩ := List.exists_cons_of_ne_nil hnil
      have hc : isDelimiter c = false := hrun.inside c List.mem_cons_self
      rw [h.skipBlanks_eq (by decide), hrun.split, List.cons_append, segment_key_of_bare hc,
        ← List.cons_append, ← hrun.split]
      exact bareSegment_of_run _ _ hrun hne
  | bare hrun hne =>
      obtain ⟨c, tail, hskip, hblank, hc⟩ := hrun.exists_cons hne
      rw [hskip, segment_of_bare hblank hc, ← hskip, bareSegment, bareName_skipBlanks, ← bareSegment]
      exact bareSegment_of_run _ _ hrun hne

theorem SegmentAt.exists_fuel {cs rest : List Char} {s : Segment} (h : SegmentAt cs s rest)
    {fuel : Nat} (hfuel : (skipBlanks cs).length ≤ fuel) :
    ∃ left, fuel = left + 1 ∧ rest.length ≤ left := by
  obtain ⟨c, tail, hskip, _, hlength⟩ := h.exists_cons
  rw [hskip, List.length_cons] at hfuel
  exact ⟨fuel - 1, by omega, by omega⟩

/-- A derived identifier is read, whatever fuel is left as long as it suffices for its text. -/
theorem segments_eq_of_separated {cs rest : List Char} {ss : List Segment}
    (h : Separated SegmentAt '.' cs ss rest) {fuel : Nat} (hfuel : (skipBlanks cs).length ≤ fuel)
    (hrest : StopsAt endsName rest) (hdot : (skipBlanks rest).head? ≠ some '.') :
    segments fuel cs = .ok (ss, skipBlanks rest) := by
  induction h generalizing fuel with
  | last h =>
      obtain ⟨left, rfl, _⟩ := h.exists_fuel hfuel
      rw [segments, h.segment_eq hrest]
      simp only [bind, Except.bind]
      split
      · rename_i htail
        rw [htail] at hdot
        exact absurd rfl hdot
      · rfl
  | @more cs after next rest s ss h hseparator hmore ih =>
      obtain ⟨left, rfl, hleft⟩ := h.exists_fuel hfuel
      have hnext : (skipBlanks next).length ≤ left := by
        have hdecrease := hseparator.length_lt
        have hblanks := length_skipBlanks_le next
        omega
      have hread := h.segment_eq (hseparator.stopsAt (by decide) (by decide))
      rw [segments, hread]
      simp only [bind, Except.bind, hseparator.skipBlanks_eq (c := '.') (by decide),
        ih hnext hrest hdot]
      rfl

theorem Separated.exists_cons {cs rest : List Char} {ss : List Segment}
    (h : Separated SegmentAt '.' cs ss rest) :
    ∃ c tail, skipBlanks cs = c :: tail ∧ startsName c = true ∧ rest.length ≤ tail.length := by
  induction h with
  | last h => exact h.exists_cons
  | @more _ _ next _ _ _ h hseparator _ ih =>
      obtain ⟨c, tail, hskip, hc, hlength⟩ := h.exists_cons
      obtain ⟨d, tail', hskip', _, hlength'⟩ := ih
      have hdecrease := hseparator.length_lt
      have hblanks := length_skipBlanks_le next
      rw [hskip', List.length_cons] at hblanks
      exact ⟨c, tail, hskip, hc, by omega⟩

theorem identifier_eq_of_separated {cs rest : List Char} {ss : List Segment}
    (h : Separated SegmentAt '.' cs ss rest) (hrest : StopsAt endsName rest)
    (hdot : (skipBlanks rest).head? ≠ some '.') :
    identifier (skipBlanks cs) = .ok (⟨ss⟩, skipBlanks rest) := by
  rw [identifier, segments_skipBlanks, segments_eq_of_separated h (Nat.le_refl _) hrest hdot]
  rfl

theorem PrimaryAt.exists_cons {cs rest : List Char} {f : Fragment} (h : PrimaryAt cs f rest) :
    ∃ c tail, skipBlanks cs = c :: tail ∧ startsExpression c = true := by
  cases h with
  | identifier h =>
      obtain ⟨c, tail, hskip, hc, _⟩ := h.exists_cons
      exact ⟨c, tail, hskip, by simp [startsExpression, hc]⟩
  | braces hopen _ => exact ⟨_, _, hopen.skipBlanks_eq (by decide), by decide⟩
  | parens hopen _ _ => exact ⟨_, _, hopen.skipBlanks_eq (by decide), by decide⟩
  | call hrun hne _ _ =>
      obtain ⟨c, tail, hskip, hblank, hc⟩ := hrun.exists_cons hne
      exact ⟨c, _, hskip, by simp [startsExpression, startsName, hblank, hc]⟩

theorem ExpressionAt.exists_cons {cs rest : List Char} {f : Fragment} (h : ExpressionAt cs f rest) :
    ∃ c tail, skipBlanks cs = c :: tail ∧ startsExpression c = true := by
  cases h with
  | primary h => exact h.exists_cons
  | range hlow _ _ => exact hlow.exists_cons

section Lists

variable {element : Reader Fragment} {length : Nat} {close : Char}

theorem Complete.listItems (h : Complete element ExpressionAt endsExpression length)
    (hclose : endsExpression close = true) (hcomma : close ≠ ',') {cs after rest : List Char}
    {items : List Fragment} (hitems : Separated ExpressionAt ',' cs items after)
    (hend : TokenAt close after rest) (hlength : cs.length ≤ length) :
    rest.length < cs.length ∧
      ∀ fuel ≥ cs.length, listItems element close fuel cs = .ok (items, rest) := by
  induction hitems with
  | last hitem =>
      obtain ⟨hdecrease, hread⟩ := h _ _ _ hitem hlength
      have hblank := isBlank_of_endsExpression hclose
      obtain ⟨left, hread, hleft⟩ := hread (hend.stopsAt hblank hclose)
      refine ⟨hend.length_lt.trans hdecrease, fun fuel hfuel => ?_⟩
      obtain ⟨fuel, rfl⟩ := Nat.exists_eq_add_one_of_ne_zero (show fuel ≠ 0 by omega)
      rw [Mdx.listItems, hread]
      simp only [bind, Except.bind, hleft, hend.skipBlanks_eq hblank, if_neg hcomma, if_pos]
      rfl
  | more hitem hseparator hmore ih =>
      obtain ⟨hdecrease, hread⟩ := h _ _ _ hitem hlength
      obtain ⟨left, hread, hleft⟩ := hread (hseparator.stopsAt (by decide) (by decide))
      have hnext := hseparator.length_lt
      obtain ⟨hdecrease', hread'⟩ := ih hend (by omega)
      refine ⟨by omega, fun fuel hfuel => ?_⟩
      obtain ⟨fuel, rfl⟩ := Nat.exists_eq_add_one_of_ne_zero (show fuel ≠ 0 by omega)
      rw [Mdx.listItems, hread]
      simp only [bind, Except.bind, hleft, hseparator.skipBlanks_eq (c := ',') (by decide), if_pos,
        hread' fuel (by omega)]
      rfl

theorem Complete.listUpTo (h : Complete element ExpressionAt endsExpression length)
    (hignores : IgnoresBlanks element) (hclose : endsExpression close = true) (hcomma : close ≠ ',')
    {cs rest : List Char} {items : List Fragment} (hitems : Enclosed ExpressionAt close cs items rest)
    (hlength : cs.length ≤ length) :
    rest.length < cs.length ∧ listUpTo element close cs = .ok (items, rest) := by
  cases hitems with
  | empty hend =>
      refine ⟨hend.length_lt, ?_⟩
      rw [Mdx.listUpTo, hend.skipBlanks_eq (isBlank_of_endsExpression hclose)]
      simp
  | values hitems hend =>
      obtain ⟨hdecrease, hread⟩ := h.listItems hclose hcomma hitems hend hlength
      refine ⟨hdecrease, ?_⟩
      obtain ⟨c, tail, hskip, hc⟩ : ∃ c tail, skipBlanks cs = c :: tail ∧ startsExpression c = true := by
        cases hitems with
        | last hitem => exact hitem.exists_cons
        | more hitem _ _ => exact hitem.exists_cons
      have hother : c ≠ close := by
        rintro rfl
        rw [startsExpression_of_endsExpression hclose] at hc
        cases hc
      rw [Mdx.listUpTo, hskip]
      simp only [if_neg hother]
      rw [← hskip, hignores.listItems, hread _ (Nat.le_refl _)]

end Lists

theorem Complete.expressionOf {primary : Reader Fragment} {length : Nat}
    (h : Complete primary PrimaryAt endsPrimary length) :
    Complete (expressionOf primary) ExpressionAt endsExpression length := by
  intro cs f rest hf hlength
  have hends := fun hrest : StopsAt endsExpression rest =>
    hrest.mono fun _ => endsPrimary_of_endsExpression
  cases hf with
  | primary hf =>
      obtain ⟨hdecrease, hread⟩ := h _ _ _ hf hlength
      refine ⟨hdecrease, fun hrest => ?_⟩
      obtain ⟨after, hread, hafter⟩ := hread (hends hrest)
      refine ⟨skipBlanks after, ?_, by rw [skipBlanks_skipBlanks, hafter]⟩
      rw [Mdx.expressionOf, hread]
      simp only [bind, Except.bind, hafter]
      split
      · rename_i htail
        have hcolon := hrest ':' (by rw [htail]; rfl)
        exact absurd hcolon (by decide)
      · rfl
  | range hlow hcolon hhigh =>
      obtain ⟨hdecreaseLow, hreadLow⟩ := h _ _ _ hlow hlength
      have hnext := hcolon.length_lt
      obtain ⟨hdecreaseHigh, hreadHigh⟩ := h _ _ _ hhigh (by omega)
      refine ⟨by omega, fun hrest => ?_⟩
      obtain ⟨middle, hreadLow, hmiddle⟩ := hreadLow (hcolon.stopsAt (by decide) (by decide))
      obtain ⟨after, hreadHigh, hafter⟩ := hreadHigh (hends hrest)
      refine ⟨after, ?_, hafter⟩
      rw [Mdx.expressionOf, hreadLow]
      simp only [bind, Except.bind, hmiddle, hcolon.skipBlanks_eq (c := ':') (by decide), hreadHigh]
      rfl

section Brackets

variable {inner : Reader Fragment} {length : Nat}

theorem primaryOf_identifier {cs rest : List Char} {ss : List Segment}
    (h : Separated SegmentAt '.' cs ss rest) (hrest : StopsAt endsPrimary rest) :
    primaryOf inner cs = .ok (.identifier ⟨ss⟩, skipBlanks rest) := by
  have hdot : (skipBlanks rest).head? ≠ some '.' := fun hhead => absurd (hrest '.' hhead) (by decide)
  have hread := identifier_eq_of_separated h (hrest.mono fun _ => endsName_of_endsPrimary) hdot
  obtain ⟨c, tail, hskip, hc, _⟩ := h.exists_cons
  rw [← ignoresBlanks_primaryOf, hskip, primaryOf_name hc, ← hskip, hread]
  simp only [bind, Except.bind, skipBlanks_skipBlanks]
  split
  · rename_i htail
    exact absurd (hrest '(' (by rw [htail]; rfl)) (by decide)
  · rfl

theorem primaryOf_call (h : Complete inner ExpressionAt endsExpression length)
    (hignores : IgnoresBlanks inner) {cs run after inside rest : List Char}
    {arguments : List Fragment} (hrun : IsRun cs run after) (hne : trim run ≠ [])
    (hopen : TokenAt '(' after inside) (harguments : Enclosed ExpressionAt ')' inside arguments rest)
    (hlength : inside.length ≤ length) :
    rest.length < inside.length ∧ primaryOf inner cs =
      .ok (.call (String.ofList (capitals (trim run))) arguments, rest) := by
  obtain ⟨hdecrease, hread⟩ := h.listUpTo hignores (by decide) (by decide) harguments hlength
  refine ⟨hdecrease, ?_⟩
  have hafter : skipBlanks after = '(' :: inside := hopen.skipBlanks_eq (by decide)
  have hparen : skipBlanks ('(' :: inside) = '(' :: inside :=
    skipBlanks_cons_of_not_blank (by decide) inside
  have hname := identifier_eq_of_separated (.last (.bare hrun hne))
    (hopen.stopsAt (by decide) (by decide)) (by simp [hafter])
  obtain ⟨c, tail, hskip, hblank, hc⟩ := hrun.exists_cons hne
  rw [← ignoresBlanks_primaryOf, hskip, primaryOf_name (by simp [startsName, hblank, hc]), ← hskip,
    hname, hafter]
  simp only [bind, Except.bind, Identifier.function?, hparen, String.toList_ofList, hread]
  rfl

theorem Complete.primaryOf (h : Complete inner ExpressionAt endsExpression length)
    (hignores : IgnoresBlanks inner) :
    Complete (primaryOf inner) PrimaryAt endsPrimary (length + 1) := by
  intro cs f rest hf hlength
  cases hf with
  | identifier hname =>
      obtain ⟨c, tail, hskip, _, hdecrease⟩ := hname.exists_cons
      have hblanks := length_skipBlanks_le cs
      rw [hskip, List.length_cons] at hblanks
      exact ⟨by omega, fun hrest =>
        ⟨_, primaryOf_identifier hname hrest, skipBlanks_skipBlanks rest⟩⟩
  | braces hopen hitems =>
      have hinside := hopen.length_lt
      obtain ⟨hdecrease, hread⟩ :=
        h.listUpTo hignores (by decide) (by decide) hitems (by omega)
      refine ⟨by omega, fun _ => ⟨rest, ?_, rfl⟩⟩
      rw [Mdx.primaryOf, hopen.skipBlanks_eq (by decide)]
      simp only [bind, Except.bind, hread]
      rfl
  | parens hopen hitems hne =>
      have hinside := hopen.length_lt
      obtain ⟨hdecrease, hread⟩ :=
        h.listUpTo hignores (by decide) (by decide) hitems (by omega)
      refine ⟨by omega, fun _ => ⟨rest, ?_, rfl⟩⟩
      rw [Mdx.primaryOf, hopen.skipBlanks_eq (by decide)]
      simp only [bind, Except.bind, hread, List.isEmpty_iff, if_neg hne]
      rfl
  | call hrun hne hopen harguments =>
      have hinside := hopen.length_lt
      have hafter := hrun.length_le
      obtain ⟨hdecrease, hread⟩ := primaryOf_call h hignores hrun hne hopen harguments (by omega)
      exact ⟨by omega, fun _ => ⟨rest, hread, rfl⟩⟩

end Brackets

theorem complete_primary (depth : Nat) : Complete (primary depth) PrimaryAt endsPrimary depth := by
  induction depth with
  | zero =>
      intro cs f rest hf hlength
      obtain ⟨c, tail, hskip, _⟩ := hf.exists_cons
      rw [List.eq_nil_of_length_eq_zero (Nat.le_zero.1 hlength)] at hskip
      cases hskip
  | succ depth ih =>
      have hignores := (ignoresBlanks_primary depth).expressionOf
      exact ih.expressionOf.primaryOf hignores

/-! ## Whole texts -/

theorem readWhole_eq_ok_iff {α : Type} {reader : Reader α} {text : String} {a : α} :
    readWhole reader text = .ok a ↔
      ∃ rest, reader text.toList = .ok (a, rest) ∧ skipBlanks rest = [] := by
  refine ⟨readWhole_eq_ok, fun h => ?_⟩
  obtain ⟨rest, hread, hrest⟩ := h
  simp [readWhole, hread, hrest]

theorem Separated.bracketed {cs rest : List Char} {ss : List Segment}
    (h : Separated SegmentAt '.' cs ss rest) (name : String) :
    Separated SegmentAt '.' (Mdx.bracketed name.toList ++ '.' :: cs) (⟨.quoted, name⟩ :: ss) rest := by
  refine .more (.quoted ⟨[], List.forall_mem_nil _, ?_⟩) ⟨[], List.forall_mem_nil _, rfl⟩ h
  simp [Mdx.bracketed]

/-- A text that is derived as segments is read as an identifier. -/
theorem Identifier.parse_of_separated {text : String} {ss : List Segment}
    (h : Separated SegmentAt '.' text.toList ss []) : Identifier.parse text = .ok ⟨ss⟩ := by
  have hlength := length_skipBlanks_le text.toList
  have hread := segments_eq_of_separated h hlength (stopsAt_nil _) (by simp [skipBlanks])
  rw [Identifier.parse, readWhole_eq_ok_iff]
  refine ⟨skipBlanks [], ?_, rfl⟩
  rw [identifier, hread]
  rfl

/-- A text is read as an expression exactly when the grammar derives it, and no text has two
derivations of different trees. -/
theorem parse_eq_ok_iff_derives :
    (∀ (text : String) (f : Fragment), Fragment.parse text = .ok f ↔ Derives text f) ∧
      ∀ (text : String) (f g : Fragment), Derives text f → Derives text g → f = g := by
  have hiff : ∀ (text : String) (f : Fragment), Fragment.parse text = .ok f ↔ Derives text f := by
    intro text f
    rw [Fragment.parse, readWhole_eq_ok_iff]
    constructor
    · intro h
      obtain ⟨after, hread, hafter⟩ := h
      obtain ⟨rest, hderived, hrest⟩ := (sound_primary _).expressionOf _ _ _ hread
      exact ⟨rest, hderived, skipBlanks_eq_nil_iff.1 (hrest.trans hafter)⟩
    · intro h
      obtain ⟨rest, hderived, hblank⟩ := h
      have hrest : skipBlanks rest = [] := skipBlanks_eq_nil_iff.2 hblank
      have hcomplete := (complete_primary text.toList.length).expressionOf
      obtain ⟨_, hread⟩ := hcomplete _ _ _ hderived (Nat.le_refl _)
      obtain ⟨after, hread, hafter⟩ := hread (by simp [StopsAt, hrest])
      exact ⟨after, hread, hafter.trans hrest⟩
  refine ⟨hiff, fun text f g hf hg => ?_⟩
  have hread := (hiff text f).2 hf
  rw [(hiff text g).2 hg] at hread
  cases hread
  rfl

/-- A call with a range of a doubled bracket and a key behind white space; an empty list in parentheses
and a trailing comma are not derived. -/
theorem parse_eq_ok_iff_derives_call :
    let text := " sum ( [a]]b] . & x y : c ,(\x7b \x7d) )"
    let call : Fragment := .call "SUM" [.range (.identifier ⟨[⟨.quoted, "a]b"⟩, ⟨.key, "x y"⟩]⟩)
      (.identifier ⟨[⟨.unquoted, "c"⟩]⟩), .parens [.braces []]]
    Derives text call ∧ (∀ f, Derives text f → f = call) ∧
      (∀ f, ¬ Derives "f(())" f) ∧ ∀ f, ¬ Derives "\x7ba,\x7d" f := by
  intro text call
  obtain ⟨hiff, hunique⟩ := parse_eq_ok_iff_derives
  have hread : Fragment.parse text = .ok call := by cbv
  have hderived := (hiff text call).1 hread
  refine ⟨hderived, fun f hf => hunique text f call hf hderived, fun f hf => ?_, fun f hf => ?_⟩
  · have hempty : Fragment.parse "f(())" = .error (.unexpected ')' 3) := by cbv
    rw [(hiff _ f).2 hf] at hempty
    cases hempty
  · have hcomma : Fragment.parse "\x7ba,\x7d" = .error (.emptySegment 3) := by cbv
    rw [(hiff _ f).2 hf] at hcomma
    cases hcomma

end CubeQuery.Mdx
