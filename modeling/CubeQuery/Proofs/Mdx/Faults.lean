import CubeQuery.Proofs.Mdx.Derivations

/-!
# Where expressions are at fault

A reader stops where it requires a token and finds another one, a name that it cannot end, or nothing
but white space. The places where tokens are required follow from the grammar; the errors of whole texts
point at what stands there (`parse_errors_point_at_fault`).
-/

namespace CubeQuery.Mdx

open Text

/-! ## Places where a token is required -/

/-- Of a text, what is left where a token is required. (A name in brackets is also derived up to the first
half of a doubled bracket. What is left then begins with the other half, so it is never white space.) -/
abbrev Awaiting := List Char → List Char → Prop

/-- Values with a separator between any two: one is required in front and behind each separator. -/
inductive SeparatedAwaits {α : Type} (phrase : Phrase α) (awaits : Awaiting) (separator : Char) :
    Awaiting where
  | value {cs point : List Char} (h : awaits cs point) : SeparatedAwaits phrase awaits separator cs point
  | more {cs after next point : List Char} {a : α} (h : phrase cs a after)
      (hseparator : TokenAt separator after next)
      (hmore : SeparatedAwaits phrase awaits separator next point) :
      SeparatedAwaits phrase awaits separator cs point

/-- Values inside brackets: a comma or the closing character is required behind each. -/
inductive EnclosedAwaits {α : Type} (phrase : Phrase α) (awaits : Awaiting) : Awaiting where
  | value {cs point : List Char} (h : SeparatedAwaits phrase awaits ',' cs point) :
      EnclosedAwaits phrase awaits cs point
  | behind {cs point : List Char} {as : List α} (h : Separated phrase ',' cs as point) :
      EnclosedAwaits phrase awaits cs point

abbrev IdentifierAwaits : Awaiting := SeparatedAwaits SegmentAt (· = ·) '.'

mutual

inductive PrimaryAwaits : Awaiting where
  | identifier {cs point : List Char} (h : IdentifierAwaits cs point) : PrimaryAwaits cs point
  | braces {cs inside point : List Char} (hopen : TokenAt '\x7b' cs inside)
      (h : EnclosedAwaits ExpressionAt ExpressionAwaits inside point) : PrimaryAwaits cs point
  | parens {cs inside point : List Char} (hopen : TokenAt '(' cs inside)
      (h : EnclosedAwaits ExpressionAt ExpressionAwaits inside point) : PrimaryAwaits cs point
  | call {cs run after inside point : List Char} (hrun : IsRun cs run after) (hne : trim run ≠ [])
      (hopen : TokenAt '(' after inside)
      (h : EnclosedAwaits ExpressionAt ExpressionAwaits inside point) : PrimaryAwaits cs point

inductive ExpressionAwaits : Awaiting where
  | primary {cs point : List Char} (h : PrimaryAwaits cs point) : ExpressionAwaits cs point
  | range {cs after next point : List Char} {low : Fragment} (hlow : PrimaryAt cs low after)
      (hcolon : TokenAt ':' after next) (h : PrimaryAwaits next point) : ExpressionAwaits cs point

end

theorem PrimaryAwaits.start (cs : List Char) : PrimaryAwaits cs cs := .identifier (.value rfl)

theorem ExpressionAwaits.start (cs : List Char) : ExpressionAwaits cs cs := .primary (.start cs)

theorem EnclosedAwaits.more {α : Type} {phrase : Phrase α} {awaits : Awaiting}
    {cs after next point : List Char} {a : α} (h : phrase cs a after) (hcomma : TokenAt ',' after next)
    (hmore : EnclosedAwaits phrase awaits next point) : EnclosedAwaits phrase awaits cs point := by
  cases hmore with
  | value hmore => exact .value (.more h hcomma hmore)
  | behind hmore => exact .behind (.more h hcomma hmore)

/-! ## What a derivation leaves stands at the end of the text -/

theorem TokenAt.suffix {c : Char} {cs rest : List Char} (h : TokenAt c cs rest) : rest <:+ cs := by
  obtain ⟨blanks, _, rfl⟩ := h
  exact (List.suffix_cons c rest).trans (List.suffix_append blanks _)

theorem IsRun.suffix {cs run rest : List Char} (h : IsRun cs run rest) : rest <:+ cs := ⟨run, h.split.symm⟩

theorem SegmentAt.suffix {cs rest : List Char} {s : Segment} (h : SegmentAt cs s rest) : rest <:+ cs := by
  cases h with
  | quoted h =>
      exact ((List.suffix_cons ']' rest).trans (List.suffix_append _ _)).trans h.suffix
  | quotedKey _ h =>
      exact (((List.suffix_cons ']' rest).trans (List.suffix_append _ _)).trans
        (List.suffix_cons '[' _)).trans h.suffix
  | bareKey h hrun _ => exact hrun.suffix.trans h.suffix
  | bare hrun _ => exact hrun.suffix

/-- Whatever is derived from a text of at most the given length leaves an end of the text. -/
def Leaves {α : Type} (phrase : Phrase α) (length : Nat) : Prop :=
  ∀ cs a rest, phrase cs a rest → cs.length ≤ length → rest <:+ cs

section Leaving

variable {α : Type} {phrase : Phrase α} {length : Nat}

theorem Leaves.separated (h : Leaves phrase length) (separator : Char) :
    Leaves (Separated phrase separator) length := by
  intro cs as rest has
  induction has with
  | last ha => exact h _ _ _ ha
  | more ha hseparator _ ih =>
      intro hlength
      have hnext := hseparator.suffix.trans (h _ _ _ ha hlength)
      exact (ih (hnext.length_le.trans hlength)).trans hnext

theorem Leaves.enclosed (h : Leaves phrase length) (close : Char) :
    Leaves (Enclosed phrase close) length := by
  intro cs as rest has hlength
  cases has with
  | empty hclose => exact hclose.suffix
  | values has hclose => exact hclose.suffix.trans (h.separated ',' _ _ _ has hlength)

theorem Leaves.expression (h : Leaves PrimaryAt length) : Leaves ExpressionAt length := by
  intro cs f rest hf hlength
  cases hf with
  | primary hf => exact h _ _ _ hf hlength
  | range hlow hcolon hhigh =>
      have hnext := hcolon.suffix.trans (h _ _ _ hlow hlength)
      exact (h _ _ _ hhigh (hnext.length_le.trans hlength)).trans hnext

end Leaving

theorem leaves_segments (length : Nat) : Leaves (Separated SegmentAt '.') length :=
  Leaves.separated (fun _ _ _ h _ => h.suffix) '.'

theorem leaves_primary (length : Nat) : Leaves PrimaryAt length := by
  induction length with
  | zero =>
      intro cs f rest hf hlength
      obtain ⟨c, tail, hskip, _⟩ := hf.exists_cons
      rw [List.eq_nil_of_length_eq_zero (Nat.le_zero.1 hlength)] at hskip
      cases hskip
  | succ length ih =>
      intro cs f rest hf hlength
      have hinside : ∀ {c : Char} {start inside : List Char}, TokenAt c start inside → start <:+ cs →
          inside.length ≤ length ∧ inside <:+ cs := by
        intro c start inside hopen hstart
        have hshort := hopen.length_lt
        have hle := hstart.length_le
        exact ⟨by omega, hopen.suffix.trans hstart⟩
      cases hf with
      | identifier h => exact leaves_segments _ _ _ _ h hlength
      | braces hopen h =>
          obtain ⟨hshort, hends⟩ := hinside hopen (List.suffix_refl cs)
          exact (ih.expression.enclosed '\x7d' _ _ _ h hshort).trans hends
      | parens hopen h _ =>
          obtain ⟨hshort, hends⟩ := hinside hopen (List.suffix_refl cs)
          exact (ih.expression.enclosed ')' _ _ _ h hshort).trans hends
      | call hrun _ hopen h =>
          obtain ⟨hshort, hends⟩ := hinside hopen hrun.suffix
          exact (ih.expression.enclosed ')' _ _ _ h hshort).trans hends

theorem ExpressionAt.suffix {cs rest : List Char} {f : Fragment} (h : ExpressionAt cs f rest) :
    rest <:+ cs :=
  (leaves_primary cs.length).expression _ _ _ h (Nat.le_refl _)

theorem ExpressionAt.length_lt {cs rest : List Char} {f : Fragment} (h : ExpressionAt cs f rest) :
    rest.length < cs.length :=
  ((complete_primary cs.length).expressionOf _ _ _ h (Nat.le_refl _)).1

/-! ## Faults of names -/

/-- The fault is about what stands at the point behind white space. -/
def Fault.At (point : List Char) : Fault → Prop
  | .unexpected found rest => skipBlanks point = found :: rest
  | .unexpectedEnd => skipBlanks point = []
  | .emptySegment rest =>
    skipBlanks point = rest ∧ ∃ c ∈ rest.head?, isDelimiter c = true ∧ c ≠ '['
  | .unterminatedBracket rest =>
    (skipBlanks point = rest ∨ skipBlanks point = '&' :: rest) ∧ ∃ name, rest = '[' :: doubleClosing name

/-- The fault is about what stands where the text requires a token. -/
def Fault.Arises (awaits : Awaiting) (cs : List Char) (fault : Fault) : Prop :=
  ∃ point, awaits cs point ∧ point <:+ cs ∧ fault.At point

section Arising

variable {awaits others : Awaiting} {cs rest : List Char} {fault : Fault}

theorem Fault.At.arises (h : fault.At cs) (hawaits : awaits cs cs) : fault.Arises awaits cs :=
  ⟨cs, hawaits, List.suffix_refl cs, h⟩

/-- A fault of what is left of a text is one of the text, if tokens are required there as well. -/
theorem Fault.Arises.before (h : fault.Arises others rest) (hrest : rest <:+ cs)
    (hawaits : ∀ point, others rest point → awaits cs point) : fault.Arises awaits cs := by
  obtain ⟨point, hpoint, hsuffix, hat⟩ := h
  exact ⟨point, hawaits point hpoint, hsuffix.trans hrest, hat⟩

end Arising

/-- Where no bracket closes a name, every closing bracket is doubled. -/
theorem closeBracket_eq_none {cs : List Char} (h : closeBracket cs = none) :
    ∃ name, cs = doubleClosing name := by
  fun_induction closeBracket cs with
  | case1 => exact ⟨[], rfl⟩
  | case2 cs ih =>
      obtain ⟨name, hname⟩ := ih (by simpa using h)
      exact ⟨']' :: name, by rw [doubleClosing, if_pos rfl, ← hname]⟩
  | case3 cs _ => cases h
  | case4 c cs _ hne ih =>
      obtain ⟨name, hname⟩ := ih (by simpa using h)
      exact ⟨c :: name, by rw [doubleClosing, if_neg hne, ← hname]⟩

theorem trim_cons_ne_nil {c : Char} (hc : isBlank c = false) (cs : List Char) : trim (c :: cs) ≠ [] := by
  intro h
  rw [trim, skipBlanks_cons_of_not_blank hc, dropTrailingBlanks, List.reverse_eq_nil_iff,
    List.dropWhile_eq_nil_iff] at h
  have hblank := h c (by simp)
  rw [hc] at hblank
  cases hblank

theorem bareSegment_eq_error {quoting : Quoting} {start cs : List Char} {fault : Fault}
    (h : bareSegment quoting start cs = .error fault) :
    fault = .emptySegment start ∧ (bareName cs).1 = [] := by
  unfold bareSegment at h
  split at h
  · rename_i hname
    cases h
    exact ⟨rfl, by rw [hname]⟩
  · cases h

theorem at_of_segment {cs : List Char} {fault : Fault} (h : segment cs = .error fault) : fault.At cs := by
  unfold segment at h
  split at h
  · rename_i hskip
    cases h
    exact hskip
  · rename_i rest hskip
    split at h
    · cases h
    · rename_i hclose
      cases h
      obtain ⟨name, rfl⟩ := closeBracket_eq_none hclose
      exact ⟨.inl hskip, name, rfl⟩
  · rename_i rest hskip
    split at h
    · cases h
      exact ⟨hskip, '&', rfl, by decide, by decide⟩
    · cases h
    · rename_i hclose
      cases h
      obtain ⟨name, rfl⟩ := closeBracket_eq_none hclose
      exact ⟨.inr hskip, name, rfl⟩
  · rename_i hskip
    obtain ⟨rfl, _⟩ := bareSegment_eq_error h
    exact ⟨hskip, '&', rfl, by decide, by decide⟩
  · rename_i hne hbracket _ _
    obtain ⟨rfl, hempty⟩ := bareSegment_eq_error h
    obtain ⟨c, rest, hskip⟩ := List.exists_cons_of_ne_nil hne
    refine ⟨rfl, c, by rw [hskip]; rfl, ?_, ?_⟩
    · by_contra hc
      rw [Bool.not_eq_true] at hc
      have hblank : isBlank c = false := isBlank_of_mem_head?_skipBlanks (by rw [hskip]; rfl)
      rw [hskip, bareName, List.takeWhile_cons_of_pos (by simp [hc])] at hempty
      exact trim_cons_ne_nil hblank _ hempty
    · rintro rfl
      exact hbracket rest hskip

/-! ## Faults of readers -/

/-- Every fault of the reader on a text of at most the given length is about what stands where a token is
required. -/
def FaultsWhere {α : Type} (reader : Reader α) (awaits : Awaiting) (length : Nat) : Prop :=
  ∀ cs fault, reader cs = .error fault → cs.length ≤ length → fault.Arises awaits cs

theorem arises_of_segments {fuel : Nat} {cs : List Char} {fault : Fault}
    (h : segments fuel cs = .error fault) (hfuel : (skipBlanks cs).length ≤ fuel) :
    fault.Arises IdentifierAwaits cs := by
  induction fuel generalizing cs with
  | zero =>
      cases h
      have hend : Fault.At cs .unexpectedEnd := List.eq_nil_of_length_eq_zero (Nat.le_zero.1 hfuel)
      exact hend.arises (.value rfl)
  | succ fuel ih =>
      rw [segments, bind_eq_error] at h
      rcases h with h | ⟨⟨s, after⟩, hs, h⟩
      · exact (at_of_segment h).arises (.value rfl)
      · have hsegment := segmentAt_of_segment hs
        dsimp only at h
        split at h
        · rename_i next hdot
          have hseparator := tokenAt_of_skipBlanks_eq hdot
          obtain ⟨left, hleft, hafter⟩ := hsegment.exists_fuel hfuel
          have hnext := hseparator.length_lt
          have hblanks := length_skipBlanks_le next
          rcases bind_eq_error.1 h with h | ⟨_, _, h⟩
          · apply (ih h (by omega)).before (hseparator.suffix.trans hsegment.suffix)
            exact fun _ hpoint => .more hsegment hseparator hpoint
          · cases h
        · cases h

theorem segments_of_identifier {cs : List Char} {fault : Fault} (h : identifier cs = .error fault) :
    segments cs.length cs = .error fault := by
  rw [identifier, bind_eq_error] at h
  rcases h with h | ⟨_, _, h⟩
  · exact h
  · cases h

theorem faultsWhere_identifier (length : Nat) : FaultsWhere identifier IdentifierAwaits length :=
  fun cs _ h _ => arises_of_segments (segments_of_identifier h) (length_skipBlanks_le cs)

section Lists

variable {element : Reader Fragment} {close : Char} {length : Nat} {cs : List Char} {fault : Fault}

theorem FaultsWhere.listItems (h : FaultsWhere element ExpressionAwaits length)
    (hsound : Sound element ExpressionAt) {fuel : Nat}
    (hread : listItems element close fuel cs = .error fault) (hlength : cs.length ≤ length)
    (hfuel : cs.length ≤ fuel) : fault.Arises (EnclosedAwaits ExpressionAt ExpressionAwaits) cs := by
  induction fuel generalizing cs with
  | zero =>
      obtain rfl := List.eq_nil_of_length_eq_zero (Nat.le_zero.1 hfuel)
      cases hread
      have hend : Fault.At [] .unexpectedEnd := rfl
      exact hend.arises (.value (.value (.start [])))
  | succ fuel ih =>
      rw [Mdx.listItems, bind_eq_error] at hread
      rcases hread with hread | ⟨⟨item, rest⟩, hitem, hread⟩
      · apply (h _ _ hread hlength).before (List.suffix_refl cs)
        exact fun _ hpoint => .value (.value hpoint)
      · obtain ⟨after, hphrase, hafter⟩ := hsound _ _ _ hitem
        have hbehind : EnclosedAwaits ExpressionAt ExpressionAwaits cs after := .behind (.last hphrase)
        dsimp only at hread
        split at hread
        · rename_i hskip
          cases hread
          exact ⟨after, hbehind, hphrase.suffix, hafter.trans hskip⟩
        · rename_i c next hskip
          rw [← hafter] at hskip
          split at hread
          · rename_i hcomma
            subst hcomma
            have hseparator := tokenAt_of_skipBlanks_eq hskip
            have hshort := hseparator.length_lt.trans hphrase.length_lt
            rcases bind_eq_error.1 hread with hread | ⟨_, _, hread⟩
            · apply (ih hread (by omega) (by omega)).before (hseparator.suffix.trans hphrase.suffix)
              exact fun _ hpoint => hpoint.more hphrase hseparator
            · cases hread
          · split at hread
            · cases hread
            · cases hread
              exact ⟨after, hbehind, hphrase.suffix, hskip⟩

theorem FaultsWhere.listUpTo (h : FaultsWhere element ExpressionAwaits length)
    (hsound : Sound element ExpressionAt) (hignores : IgnoresBlanks element)
    (hread : listUpTo element close cs = .error fault) (hlength : cs.length ≤ length) :
    fault.Arises (EnclosedAwaits ExpressionAt ExpressionAwaits) cs := by
  rw [Mdx.listUpTo] at hread
  split at hread
  · rename_i hskip
    cases hread
    have hend : Fault.At cs .unexpectedEnd := hskip
    exact hend.arises (.value (.value (.start cs)))
  · rename_i c rest hskip
    split at hread
    · cases hread
    · rw [← hskip, hignores.listItems] at hread
      exact h.listItems hsound hread hlength (Nat.le_refl _)

end Lists

theorem FaultsWhere.expressionOf {primary : Reader Fragment} {length : Nat}
    (h : FaultsWhere primary PrimaryAwaits length) (hsound : Sound primary PrimaryAt) :
    FaultsWhere (expressionOf primary) ExpressionAwaits length := by
  intro cs fault hread hlength
  rw [Mdx.expressionOf, bind_eq_error] at hread
  rcases hread with hread | ⟨⟨low, rest⟩, hlow, hread⟩
  · exact (h _ _ hread hlength).before (List.suffix_refl cs) fun _ => .primary
  · obtain ⟨after, hprimary, hafter⟩ := hsound _ _ _ hlow
    dsimp only at hread
    split at hread
    · rename_i next hskip
      rw [← hafter] at hskip
      have hcolon := tokenAt_of_skipBlanks_eq hskip
      have hnext : next <:+ cs := hcolon.suffix.trans (ExpressionAt.primary hprimary).suffix
      rcases bind_eq_error.1 hread with hread | ⟨_, _, hread⟩
      · exact (h _ _ hread (hnext.length_le.trans hlength)).before hnext fun _ => .range hprimary hcolon
      · cases hread
    · cases hread

/-- An empty list ends at its first token. -/
theorem Enclosed.skipBlanks_eq_of_nil {cs rest : List Char} {close : Char}
    (h : Enclosed ExpressionAt close cs [] rest) (hclose : isBlank close = false) :
    skipBlanks cs = close :: rest := by
  cases h with
  | empty hend => exact hend.skipBlanks_eq hclose
  | values h _ => cases h

section Brackets

variable {inner : Reader Fragment} {length : Nat}

/-- A fault inside brackets, which open somewhere in the text. -/
theorem FaultsWhere.inside (h : FaultsWhere inner ExpressionAwaits length)
    (hsound : Sound inner ExpressionAt) (hignores : IgnoresBlanks inner) {bracket close : Char}
    {cs start inside : List Char} {fault : Fault}
    (hread : Mdx.listUpTo inner close inside = .error fault)
    (hopen : TokenAt bracket start inside) (hstart : start <:+ cs) (hlength : cs.length ≤ length + 1)
    (hawaits : ∀ point, EnclosedAwaits ExpressionAt ExpressionAwaits inside point →
      PrimaryAwaits cs point) : fault.Arises PrimaryAwaits cs := by
  have hshort := hopen.length_lt
  have hle := hstart.length_le
  have hfault := h.listUpTo hsound hignores hread (by omega)
  exact hfault.before (hopen.suffix.trans hstart) hawaits

theorem FaultsWhere.primaryOf (h : FaultsWhere inner ExpressionAwaits length)
    (hsound : Sound inner ExpressionAt) (hignores : IgnoresBlanks inner) :
    FaultsWhere (primaryOf inner) PrimaryAwaits (length + 1) := by
  intro cs fault hread hlength
  unfold Mdx.primaryOf at hread
  split at hread
  · rename_i hskip
    cases hread
    have hend : Fault.At cs .unexpectedEnd := hskip
    exact hend.arises (.start cs)
  · rename_i inside hskip
    have hopen := tokenAt_of_skipBlanks_eq hskip
    rcases bind_eq_error.1 hread with hread | ⟨_, _, hread⟩
    · exact h.inside hsound hignores hread hopen (List.suffix_refl cs) hlength fun _ => .braces hopen
    · cases hread
  · rename_i inside hskip
    have hopen := tokenAt_of_skipBlanks_eq hskip
    rcases bind_eq_error.1 hread with hread | ⟨⟨items, rest⟩, hitems, hread⟩
    · exact h.inside hsound hignores hread hopen (List.suffix_refl cs) hlength fun _ => .parens hopen
    · -- parentheses around nothing: a value is required where they close
      have henclosed := hsound.listUpTo hignores hitems
      dsimp only at hread
      split at hread
      · rename_i hempty
        cases hread
        rw [List.isEmpty_iff.1 hempty] at henclosed
        exact ⟨inside, .parens hopen (.value (.value (.start inside))), hopen.suffix,
          henclosed.skipBlanks_eq_of_nil (by decide)⟩
      · cases hread
  · rcases bind_eq_error.1 hread with hread | ⟨⟨name, middle⟩, hname, hread⟩
    · have hsegments := segments_of_identifier hread
      rw [segments_skipBlanks] at hsegments
      apply (arises_of_segments hsegments (Nat.le_refl _)).before (List.suffix_refl cs)
      exact fun _ => .identifier
    · obtain ⟨⟨ss, last⟩, hss, hpair⟩ := bind_eq_ok.1 hname
      cases hpair
      rw [segments_skipBlanks] at hss
      obtain ⟨rest, hsegments, hrest⟩ := sound_segments _ _ _ _ hss
      dsimp only at hread
      split at hread
      · rename_i function inside hfunction hskip
        obtain ⟨name, rfl, rfl⟩ := function?_eq_some hfunction
        obtain ⟨run, hrun, hne, rfl⟩ := exists_run_of_bare hsegments
        rw [← hrest] at hskip
        have hopen := tokenAt_of_skipBlanks_eq hskip
        rcases bind_eq_error.1 hread with hread | ⟨_, _, hread⟩
        · exact h.inside hsound hignores hread hopen hrun.suffix hlength fun _ => .call hrun hne hopen
        · cases hread
      · cases hread

end Brackets

theorem faultsWhere_primary (depth : Nat) : FaultsWhere (primary depth) PrimaryAwaits depth := by
  induction depth with
  | zero =>
      intro cs fault hread hlength
      obtain rfl := List.eq_nil_of_length_eq_zero (Nat.le_zero.1 hlength)
      cases hread
      have hend : Fault.At [] .unexpectedEnd := rfl
      exact hend.arises (.start [])
  | succ depth ih =>
      have hsound := sound_primary depth
      have hignores := (ignoresBlanks_primary depth).expressionOf
      exact (ih.expressionOf hsound).primaryOf hsound.expressionOf hignores

theorem faultsWhere_expression (length : Nat) : FaultsWhere expression ExpressionAwaits length :=
  fun cs _ h _ =>
    (faultsWhere_primary cs.length).expressionOf (sound_primary cs.length) cs _ h (Nat.le_refl _)

theorem sound_expression : Sound expression ExpressionAt :=
  fun cs => (sound_primary cs.length).expressionOf cs

def IdentifierAt : Phrase Identifier := fun cs i rest => Separated SegmentAt '.' cs i.segments rest

theorem sound_identifier : Sound identifier IdentifierAt := by
  intro cs i after h
  obtain ⟨⟨ss, rest⟩, hread, hpair⟩ := bind_eq_ok.1 h
  cases hpair
  exact sound_segments _ _ _ _ hread

/-! ## Errors of whole texts -/

/-- The error points into the text at what stands, behind white space, at the point. -/
def ParseError.At (cs point : List Char) : ParseError → Prop
  | .unexpected found position => cs[position]? = some found ∧ skipBlanks point = cs.drop position
  | .unexpectedEnd => ∀ c ∈ point, isBlank c = true
  | .emptySegment position =>
    (∃ c, cs[position]? = some c ∧ isDelimiter c = true ∧ c ≠ '[') ∧ skipBlanks point = cs.drop position
  | .unterminatedBracket position =>
    (∃ name, cs.drop position = '[' :: doubleClosing name) ∧
      (skipBlanks point = cs.drop position ∨ skipBlanks point = '&' :: cs.drop position)

/-- The position of what is left of a text is where it begins. -/
theorem Fault.At.locate {cs point : List Char} {fault : Fault} (h : fault.At point)
    (hpoint : point <:+ cs) : (fault.locate cs.length).At cs point := by
  have hskip : skipBlanks point <:+ cs := (List.dropWhile_suffix _).trans hpoint
  cases fault with
  | unexpected found rest =>
      have hdrop := (List.suffix_iff_eq_drop.1 hskip).symm
      rw [h, List.length_cons] at hdrop
      refine ⟨?_, h.trans hdrop.symm⟩
      rw [← List.head?_drop, hdrop]
      rfl
  | unexpectedEnd => exact skipBlanks_eq_nil_iff.1 h
  | emptySegment rest =>
      obtain ⟨hrest, c, hc, hdelimiter, hbracket⟩ := h
      have hdrop := (List.suffix_iff_eq_drop.1 hskip).symm
      rw [hrest] at hdrop
      refine ⟨⟨c, ?_, hdelimiter, hbracket⟩, hrest.trans hdrop.symm⟩
      rw [← List.head?_drop, hdrop]
      exact hc
  | unterminatedBracket rest =>
      obtain ⟨hrest, name, hname⟩ := h
      have hsuffix : rest <:+ cs := by
        rcases hrest with hrest | hrest
        · rwa [hrest] at hskip
        · rw [hrest] at hskip
          exact (List.suffix_cons '&' rest).trans hskip
      have hdrop := (List.suffix_iff_eq_drop.1 hsuffix).symm
      exact ⟨⟨name, hdrop.trans hname⟩, by rw [hdrop]; exact hrest⟩

/-- A text fails where its reader does, or behind what it reads. -/
theorem readWhole_eq_error {α : Type} {reader : Reader α} {text : String} {e : ParseError}
    (h : readWhole reader text = .error e) :
    ∃ fault : Fault, e = fault.locate text.toList.length ∧
      (reader text.toList = .error fault ∨ ∃ a after c rest, reader text.toList = .ok (a, after) ∧
        skipBlanks after = c :: rest ∧ fault = .unexpected c rest) := by
  unfold readWhole at h
  dsimp only at h
  split at h
  · rename_i fault hread
    cases h
    exact ⟨fault, rfl, .inl hread⟩
  · rename_i a after hread
    split at h
    · cases h
    · rename_i c rest hskip
      cases h
      exact ⟨_, rfl, .inr ⟨a, after, c, rest, hread, hskip, rfl⟩⟩

/-- The error is about a point of the text at which a token is required, or about what stands behind a
whole value, where the text must end. -/
def ParseError.IsAbout {α : Type} (phrase : Phrase α) (awaits : Awaiting) (cs : List Char)
    (e : ParseError) : Prop :=
  ∃ point, point <:+ cs ∧ e.At cs point ∧
    (awaits cs point ∨ e ≠ .unexpectedEnd ∧ ∃ a, phrase cs a point)

theorem isAbout_of_readWhole {α : Type} {reader : Reader α} {phrase : Phrase α} {awaits : Awaiting}
    {text : String} (hfaults : FaultsWhere reader awaits text.toList.length)
    (hsound : Sound reader phrase) (hleaves : Leaves phrase text.toList.length) {e : ParseError}
    (h : readWhole reader text = .error e) : e.IsAbout phrase awaits text.toList := by
  obtain ⟨fault, rfl, hread | ⟨a, after, c, rest, hread, hskip, rfl⟩⟩ := readWhole_eq_error h
  · obtain ⟨point, hpoint, hsuffix, hat⟩ := hfaults _ _ hread (Nat.le_refl _)
    exact ⟨point, hsuffix, hat.locate hsuffix, .inl hpoint⟩
  · obtain ⟨point, hphrase, hsame⟩ := hsound _ _ _ hread
    have hsuffix := hleaves _ _ _ hphrase (Nat.le_refl _)
    have hat : Fault.At point (.unexpected c rest) := hsame.trans hskip
    exact ⟨point, hsuffix, hat.locate hsuffix, .inr ⟨nofun, a, hphrase⟩⟩

/-- The error of a text points at the character that is not the token required there: an unexpected
character stands at its position, an empty segment begins with a delimiter other than an opening bracket,
behind an opening bracket that is not closed all closing brackets are doubled, and only white space is
left at an unexpected end. -/
theorem parse_errors_point_at_fault (text : String) :
    (∀ e, Fragment.parse text = .error e → e.IsAbout ExpressionAt ExpressionAwaits text.toList) ∧
      ∀ e, Identifier.parse text = .error e →
        e.IsAbout IdentifierAt IdentifierAwaits text.toList := by
  constructor
  · intro e h
    have hleaves := (leaves_primary text.toList.length).expression
    exact isAbout_of_readWhole (faultsWhere_expression _) sound_expression hleaves h
  · intro e h
    have hleaves : Leaves IdentifierAt text.toList.length := fun cs i => leaves_segments _ cs i.segments
    exact isAbout_of_readWhole (faultsWhere_identifier _) sound_identifier hleaves h

/-- A bracket that only a doubled one follows, white space behind a comma, parentheses around nothing and a
key without a name. -/
theorem parse_errors_point_at_fault_nested :
    Fragment.parse "f(a, [b]]" = .error (.unterminatedBracket 5) ∧
      (∃ name, "f(a, [b]]".toList.drop 5 = '[' :: doubleClosing name) ∧
      Fragment.parse "\x7b[a] : (b, " = .error .unexpectedEnd ∧
      (∃ point, ExpressionAwaits "\x7b[a] : (b, ".toList point ∧ ∀ c ∈ point, isBlank c = true) ∧
      Fragment.parse "\x7ba, ( )\x7d" = .error (.unexpected ')' 6) ∧
      "\x7ba, ( )\x7d".toList[6]? = some ')' ∧
      Identifier.parse "[a]. & .b" = .error (.emptySegment 5) ∧
      ∃ c, "[a]. & .b".toList[5]? = some c ∧ isDelimiter c = true ∧ c ≠ '[' := by
  have hbracket : Fragment.parse "f(a, [b]]" = .error (.unterminatedBracket 5) := by cbv
  have hend : Fragment.parse "\x7b[a] : (b, " = .error .unexpectedEnd := by cbv
  have hparens : Fragment.parse "\x7ba, ( )\x7d" = .error (.unexpected ')' 6) := by cbv
  have hkey : Identifier.parse "[a]. & .b" = .error (.emptySegment 5) := by cbv
  obtain ⟨_, _, ⟨hclosed, _⟩, _⟩ := (parse_errors_point_at_fault _).1 _ hbracket
  obtain ⟨point, _, hblank, hawaits | ⟨hother, _⟩⟩ := (parse_errors_point_at_fault _).1 _ hend
  · obtain ⟨_, _, ⟨hfound, _⟩, _⟩ := (parse_errors_point_at_fault _).1 _ hparens
    obtain ⟨_, _, ⟨hdelimiter, _⟩, _⟩ := (parse_errors_point_at_fault _).2 _ hkey
    exact ⟨hbracket, hclosed, hend, ⟨point, hawaits, hblank⟩, hparens, hfound, hkey, hdelimiter⟩
  · exact absurd rfl hother

end CubeQuery.Mdx
