import CubeQuery.Proofs.Mdx.RoundTrip

/-!
# The grammar of expressions

The grammar says of a text how it divides into a value written in front and the text behind it. Every
reader reads what the grammar derives, up to white space behind it (`sound_primary`).
-/

namespace CubeQuery.Mdx

open Text

/-! ## The grammar -/

/-- The text goes on with the character, perhaps behind white space. -/
def TokenAt (c : Char) (cs rest : List Char) : Prop :=
  ∃ blanks, (∀ b ∈ blanks, isBlank b = true) ∧ cs = blanks ++ c :: rest

/-- The longest run of characters other than delimiters at the start of a text. -/
structure IsRun (cs run rest : List Char) : Prop where
  split : cs = run ++ rest
  inside : ∀ c ∈ run, isDelimiter c = false
  maximal : ∀ c ∈ rest.head?, isDelimiter c = true

/-- How a text divides into a value in front and the text behind it. -/
abbrev Phrase (α : Type) := List Char → α → List Char → Prop

/-- One or more values with a separator between any two. -/
inductive Separated {α : Type} (phrase : Phrase α) (separator : Char) : Phrase (List α) where
  | last {cs rest : List Char} {a : α} (h : phrase cs a rest) :
      Separated phrase separator cs [a] rest
  | more {cs after next rest : List Char} {a : α} {as : List α} (h : phrase cs a after)
      (hseparator : TokenAt separator after next) (hmore : Separated phrase separator next as rest) :
      Separated phrase separator cs (a :: as) rest

inductive Enclosed {α : Type} (phrase : Phrase α) (close : Char) : Phrase (List α) where
  | empty {cs rest : List Char} (hclose : TokenAt close cs rest) : Enclosed phrase close cs [] rest
  | values {cs after rest : List Char} {as : List α} (h : Separated phrase ',' cs as after)
      (hclose : TokenAt close after rest) : Enclosed phrase close cs as rest

inductive SegmentAt : Phrase Segment where
  | quoted {cs rest : List Char} {name : String}
      (h : TokenAt '[' cs (doubleClosing name.toList ++ ']' :: rest)) :
      SegmentAt cs ⟨.quoted, name⟩ rest
  | quotedKey {cs rest : List Char} {name : String} (hne : name.toList ≠ [])
      (h : TokenAt '&' cs ('[' :: (doubleClosing name.toList ++ ']' :: rest))) :
      SegmentAt cs ⟨.key, name⟩ rest
  | bareKey {cs start run rest : List Char} (h : TokenAt '&' cs start) (hrun : IsRun start run rest)
      (hne : trim run ≠ []) : SegmentAt cs ⟨.key, String.ofList (trim run)⟩ rest
  | bare {cs run rest : List Char} (hrun : IsRun cs run rest) (hne : trim run ≠ []) :
      SegmentAt cs ⟨.unquoted, String.ofList (trim run)⟩ rest

mutual

inductive PrimaryAt : Phrase Fragment where
  | identifier {cs rest : List Char} {segments : List Segment}
      (h : Separated SegmentAt '.' cs segments rest) : PrimaryAt cs (.identifier ⟨segments⟩) rest
  | braces {cs inside rest : List Char} {items : List Fragment} (hopen : TokenAt '\x7b' cs inside)
      (h : Enclosed ExpressionAt '\x7d' inside items rest) : PrimaryAt cs (.braces items) rest
  | parens {cs inside rest : List Char} {items : List Fragment} (hopen : TokenAt '(' cs inside)
      (h : Enclosed ExpressionAt ')' inside items rest) (hne : items ≠ []) :
      PrimaryAt cs (.parens items) rest
  | call {cs run after inside rest : List Char} {arguments : List Fragment}
      (hrun : IsRun cs run after) (hne : trim run ≠ []) (hopen : TokenAt '(' after inside)
      (h : Enclosed ExpressionAt ')' inside arguments rest) :
      PrimaryAt cs (.call (String.ofList (capitals (trim run))) arguments) rest

inductive ExpressionAt : Phrase Fragment where
  | primary {cs rest : List Char} {f : Fragment} (h : PrimaryAt cs f rest) : ExpressionAt cs f rest
  | range {cs after next rest : List Char} {low high : Fragment} (hlow : PrimaryAt cs low after)
      (hcolon : TokenAt ':' after next) (hhigh : PrimaryAt next high rest) :
      ExpressionAt cs (.range low high) rest

end

def Derives (text : String) (f : Fragment) : Prop :=
  ∃ rest, ExpressionAt text.toList f rest ∧ ∀ c ∈ rest, isBlank c = true

/-! ## Tokens and runs -/

section Runs

variable {c : Char} {cs run rest : List Char}

theorem TokenAt.skipBlanks_eq (h : TokenAt c cs rest) (hc : isBlank c = false) :
    skipBlanks cs = c :: rest := by
  obtain ⟨blanks, hblanks, rfl⟩ := h
  rw [skipBlanks_append hblanks]
  exact skipBlanks_cons_of_not_blank hc rest

theorem tokenAt_of_skipBlanks_eq (h : skipBlanks cs = c :: rest) : TokenAt c cs rest := by
  obtain ⟨blanks, hblanks, hsplit⟩ := exists_blanks_append cs
  exact ⟨blanks, hblanks, by rw [← h]; exact hsplit⟩

theorem TokenAt.stopsAt {kind : Char → Bool} (h : TokenAt c cs rest) (hc : isBlank c = false)
    (hkind : kind c = true) : StopsAt kind cs := by
  intro d hd
  rw [h.skipBlanks_eq hc, List.head?_cons, Option.mem_some_iff] at hd
  rwa [← hd]

theorem isRun_takeWhile (cs : List Char) :
    IsRun cs (cs.takeWhile fun c => !isDelimiter c) (cs.dropWhile fun c => !isDelimiter c) where
  split := List.takeWhile_append_dropWhile.symm
  inside c hc := by simpa using List.mem_takeWhile_imp hc
  maximal c hc := by
    have hstop := List.head?_dropWhile_not (fun c => !isDelimiter c) cs
    rw [Option.mem_def.1 hc] at hstop
    simpa using hstop

theorem IsRun.bareName_eq (h : IsRun cs run rest) : bareName cs = (trim run, rest) := by
  have hinside : ∀ c ∈ run, (!isDelimiter c) = true := by simpa using h.inside
  have hstop : ∀ c ∈ rest.head?, (!isDelimiter c) = false := by simpa using h.maximal
  obtain ⟨htake, hdrop⟩ := takeWhile_append hinside hstop
  rw [bareName, h.split, htake, hdrop]

theorem IsRun.skipBlanks_eq (h : IsRun cs run rest) : skipBlanks cs = skipBlanks run ++ rest := by
  have hrest : skipBlanks rest = rest := by
    rw [skipBlanks_eq_self_iff]
    exact fun c hc => isBlank_of_isDelimiter (h.maximal c hc)
  rw [h.split, skipBlanks, List.dropWhile_append]
  split
  · rename_i hblank
    have hrun : skipBlanks run = [] := by simpa [skipBlanks] using hblank
    rw [hrun, List.nil_append]
    exact hrest
  · rfl

theorem IsRun.skipBlanks (h : IsRun cs run rest) : IsRun (skipBlanks cs) (skipBlanks run) rest where
  split := h.skipBlanks_eq
  inside c hc := h.inside c ((List.dropWhile_sublist _).subset hc)
  maximal := h.maximal

theorem IsRun.length_le (h : IsRun cs run rest) : rest.length ≤ cs.length := by
  rw [h.split, List.length_append]
  omega

theorem trim_skipBlanks (cs : List Char) : trim (skipBlanks cs) = trim cs := by
  rw [trim, skipBlanks_skipBlanks, trim]

theorem bareName_skipBlanks (cs : List Char) : bareName (Text.skipBlanks cs) = bareName cs := by
  have hrun := isRun_takeWhile cs
  rw [hrun.skipBlanks.bareName_eq, hrun.bareName_eq, trim_skipBlanks]

/-- A run that is not blank begins, behind white space, like a bare name. -/
theorem IsRun.exists_cons (h : IsRun cs run rest) (hne : trim run ≠ []) :
    ∃ c tail, Text.skipBlanks cs = c :: (tail ++ rest) ∧ isBlank c = false ∧ isDelimiter c = false := by
  cases hrun : Text.skipBlanks run with
  | nil => exact absurd (by rw [trim, hrun]; rfl) hne
  | cons c tail =>
      have hinside : isDelimiter c = false := h.skipBlanks.inside c (by simp [hrun])
      have hblank : isBlank c = false := isBlank_of_mem_head?_skipBlanks (by rw [hrun]; rfl)
      exact ⟨c, tail, by rw [h.skipBlanks_eq, hrun]; rfl, hblank, hinside⟩

end Runs

/-! ## What is read is derived -/

/-- Whatever the reader reads is derived, up to white space behind it. -/
def Sound {α : Type} (reader : Reader α) (phrase : Phrase α) : Prop :=
  ∀ cs a after, reader cs = .ok (a, after) →
    ∃ rest, phrase cs a rest ∧ skipBlanks rest = skipBlanks after

theorem eq_of_closeBracket {cs name rest : List Char} (h : closeBracket cs = some (name, rest)) :
    cs = doubleClosing name ++ ']' :: rest := by
  fun_induction closeBracket cs generalizing name rest with
  | case1 => cases h
  | case2 cs ih =>
      obtain ⟨⟨name', rest'⟩, hclose, hpair⟩ := Option.map_eq_some_iff.1 h
      cases hpair
      rw [ih hclose, doubleClosing, if_pos rfl]
      rfl
  | case3 cs _ =>
      cases h
      rfl
  | case4 c cs _ hne ih =>
      obtain ⟨⟨name', rest'⟩, hclose, hpair⟩ := Option.map_eq_some_iff.1 h
      cases hpair
      rw [ih hclose, doubleClosing, if_neg hne]
      rfl

theorem bareSegment_eq_ok {quoting : Quoting} {start cs rest : List Char} {s : Segment}
    (h : bareSegment quoting start cs = .ok (s, rest)) :
    ∃ run, IsRun cs run rest ∧ trim run ≠ [] ∧ s = ⟨quoting, String.ofList (trim run)⟩ := by
  have hrun := isRun_takeWhile cs
  rw [bareSegment, hrun.bareName_eq] at h
  split at h
  · cases h
  · rename_i name after hne hpair
    cases hpair
    cases h
    exact ⟨_, hrun, fun hnil => hne hnil, rfl⟩

theorem segmentAt_of_segment {cs rest : List Char} {s : Segment} (h : segment cs = .ok (s, rest)) :
    SegmentAt cs s rest := by
  unfold segment at h
  split at h
  · cases h
  · rename_i after hskip
    split at h
    · rename_i name rest' hclose
      cases h
      rw [eq_of_closeBracket hclose] at hskip
      exact .quoted (by simpa using tokenAt_of_skipBlanks_eq hskip)
    · cases h
  · rename_i after hskip
    split at h
    · cases h
    · rename_i name rest' hne hclose
      cases h
      rw [eq_of_closeBracket hclose] at hskip
      exact .quotedKey (by simpa using hne) (by simpa using tokenAt_of_skipBlanks_eq hskip)
    · cases h
  · rename_i hskip
    obtain ⟨run, hrun, hne, rfl⟩ := bareSegment_eq_ok h
    exact .bareKey (tokenAt_of_skipBlanks_eq hskip) hrun hne
  · rw [bareSegment, bareName_skipBlanks, ← bareSegment] at h
    obtain ⟨run, hrun, hne, rfl⟩ := bareSegment_eq_ok h
    exact .bare hrun hne

theorem segment_skipBlanks (cs : List Char) : segment (skipBlanks cs) = segment cs := by
  simp only [segment, skipBlanks_skipBlanks]

theorem segments_skipBlanks (fuel : Nat) (cs : List Char) :
    segments fuel (skipBlanks cs) = segments fuel cs := by
  cases fuel with
  | zero => rfl
  | succ fuel => rw [segments, segments, segment_skipBlanks]

theorem sound_segments (fuel : Nat) : Sound (segments fuel) (Separated SegmentAt '.') := by
  induction fuel with
  | zero =>
      intro cs ss after h
      cases h
  | succ fuel ih =>
      intro cs ss after h
      rw [segments, bind_eq_ok] at h
      obtain ⟨⟨s, middle⟩, hs, h⟩ := h
      have hsegment := segmentAt_of_segment hs
      dsimp only at h
      split at h
      · rename_i next hdot
        obtain ⟨⟨more, last⟩, hmore, h⟩ := bind_eq_ok.1 h
        cases h
        obtain ⟨rest, hrest, hafter⟩ := ih _ _ _ hmore
        exact ⟨rest, .more hsegment (tokenAt_of_skipBlanks_eq hdot) hrest, hafter⟩
      · cases h
        exact ⟨middle, .last hsegment, (skipBlanks_skipBlanks middle).symm⟩

section Lists

variable {element : Reader Fragment} {phrase : Phrase Fragment}

theorem Sound.listItems (h : Sound element phrase) (close : Char) {fuel : Nat}
    {cs rest : List Char} {items : List Fragment}
    (hread : listItems element close fuel cs = .ok (items, rest)) :
    ∃ after, Separated phrase ',' cs items after ∧ TokenAt close after rest := by
  induction fuel generalizing cs items rest with
  | zero => cases hread
  | succ fuel ih =>
      rw [Mdx.listItems, bind_eq_ok] at hread
      obtain ⟨⟨item, middle⟩, hitem, hread⟩ := hread
      obtain ⟨after, hphrase, hafter⟩ := h _ _ _ hitem
      dsimp only at hread
      split at hread
      · cases hread
      · rename_i c next hskip
        rw [← hafter] at hskip
        split at hread
        · rename_i hcomma
          obtain ⟨⟨more, last⟩, hmore, hread⟩ := bind_eq_ok.1 hread
          cases hread
          subst hcomma
          obtain ⟨after', hmore, hclose⟩ := ih hmore
          exact ⟨after', .more hphrase (tokenAt_of_skipBlanks_eq hskip) hmore, hclose⟩
        · split at hread <;> cases hread
          rename_i hclose
          subst hclose
          exact ⟨after, .last hphrase, tokenAt_of_skipBlanks_eq hskip⟩

theorem Sound.listUpTo (h : Sound element phrase) (hignores : IgnoresBlanks element) {close : Char}
    {cs rest : List Char} {items : List Fragment}
    (hread : listUpTo element close cs = .ok (items, rest)) : Enclosed phrase close cs items rest := by
  rw [Mdx.listUpTo] at hread
  split at hread
  · cases hread
  · rename_i c next hskip
    split at hread
    · rename_i hclose
      cases hread
      subst hclose
      exact .empty (tokenAt_of_skipBlanks_eq hskip)
    · rw [← hskip, hignores.listItems] at hread
      obtain ⟨after, hitems, hclose⟩ := h.listItems close hread
      exact .values hitems hclose

end Lists

theorem Sound.expressionOf {primary : Reader Fragment} (h : Sound primary PrimaryAt) :
    Sound (expressionOf primary) ExpressionAt := by
  intro cs f after hf
  obtain ⟨⟨low, middle⟩, hlow, hf⟩ := bind_eq_ok.1 hf
  obtain ⟨rest, hprimary, hrest⟩ := h _ _ _ hlow
  dsimp only at hf
  split at hf
  · rename_i next hcolon
    obtain ⟨⟨high, last⟩, hhigh, hf⟩ := bind_eq_ok.1 hf
    cases hf
    obtain ⟨rest', hprimary', hrest'⟩ := h _ _ _ hhigh
    rw [← hrest] at hcolon
    exact ⟨rest', .range hprimary (tokenAt_of_skipBlanks_eq hcolon) hprimary', hrest'⟩
  · cases hf
    exact ⟨rest, .primary hprimary, by rw [hrest, skipBlanks_skipBlanks]⟩

theorem function?_eq_some {i : Identifier} {function : String} (h : i.function? = some function) :
    ∃ name, i.segments = [⟨.unquoted, name⟩] ∧ function = String.ofList (capitals name.toList) := by
  unfold Identifier.function? at h
  split at h
  · rename_i name hsegments
    cases h
    exact ⟨name, hsegments, rfl⟩
  · cases h

theorem exists_run_of_bare {cs rest : List Char} {name : String}
    (h : Separated SegmentAt '.' cs [⟨.unquoted, name⟩] rest) :
    ∃ run, IsRun cs run rest ∧ trim run ≠ [] ∧ name = String.ofList (trim run) := by
  cases h with
  | last h =>
      cases h with
      | bare hrun hne => exact ⟨_, hrun, hne, rfl⟩
  | more _ _ hmore => cases hmore

theorem Sound.primaryOf {inner : Reader Fragment} (h : Sound inner ExpressionAt)
    (hignores : IgnoresBlanks inner) : Sound (primaryOf inner) PrimaryAt := by
  intro cs f after hf
  unfold Mdx.primaryOf at hf
  split at hf
  · cases hf
  · rename_i next hskip
    obtain ⟨⟨items, last⟩, hitems, hf⟩ := bind_eq_ok.1 hf
    cases hf
    exact ⟨_, .braces (tokenAt_of_skipBlanks_eq hskip) (h.listUpTo hignores hitems), rfl⟩
  · rename_i next hskip
    obtain ⟨⟨items, last⟩, hitems, hf⟩ := bind_eq_ok.1 hf
    dsimp only at hf
    split at hf
    · cases hf
    · rename_i hne
      cases hf
      exact ⟨_, .parens (tokenAt_of_skipBlanks_eq hskip) (h.listUpTo hignores hitems)
        (by simpa using hne), rfl⟩
  · obtain ⟨⟨name, middle⟩, hname, hf⟩ := bind_eq_ok.1 hf
    obtain ⟨⟨ss, last⟩, hss, hpair⟩ := bind_eq_ok.1 hname
    cases hpair
    rw [segments_skipBlanks] at hss
    obtain ⟨rest, hsegments, hrest⟩ := sound_segments _ _ _ _ hss
    dsimp only at hf
    split at hf
    · rename_i function next hfunction hopen
      obtain ⟨⟨arguments, last⟩, harguments, hf⟩ := bind_eq_ok.1 hf
      cases hf
      obtain ⟨name, rfl, rfl⟩ := function?_eq_some hfunction
      obtain ⟨run, hrun, hne, rfl⟩ := exists_run_of_bare hsegments
      rw [← hrest] at hopen
      rw [String.toList_ofList]
      exact ⟨_, .call hrun hne (tokenAt_of_skipBlanks_eq hopen) (h.listUpTo hignores harguments), rfl⟩
    · cases hf
      exact ⟨rest, .identifier hsegments, by rw [hrest, skipBlanks_skipBlanks]⟩

theorem sound_primary (depth : Nat) : Sound (primary depth) PrimaryAt := by
  induction depth with
  | zero =>
      apply Sound.primaryOf
      · intro cs f after h
        cases h
      · intro cs
        rfl
  | succ depth ih =>
      have hignores := (ignoresBlanks_primary depth).expressionOf
      exact ih.expressionOf.primaryOf hignores

end CubeQuery.Mdx
