import CubeQuery.Proofs.Mdx.WellFormed

/-!
# Canonical texts are read back

Reading the canonical text of a well-formed value gives the value again, whatever stands behind it that
can end it. The readers leave white space in different places, so what they leave is compared after
white space. Main statement: a well-formed fragment is read back from its text (`parse_text`), which has
no white space at its ends (`trimmed_text`).
-/

namespace CubeQuery.Mdx

open Text

/-! ## Ends of expressions -/

/-- Behind white space the text is empty or begins with a character of the given kind. -/
def StopsAt (kind : Char → Bool) (rest : List Char) : Prop :=
  ∀ c ∈ (skipBlanks rest).head?, kind c = true

def endsName (c : Char) : Bool := isDelimiter c && c != ']'

def endsPrimary (c : Char) : Bool := c == ',' || c == ':' || c == ')' || c == '\x7d'

def endsExpression (c : Char) : Bool := c == ',' || c == ')' || c == '\x7d'

theorem StopsAt.mono {kind kind' : Char → Bool} {rest : List Char} (h : StopsAt kind rest)
    (himp : ∀ c, kind c = true → kind' c = true) : StopsAt kind' rest :=
  fun c hc => himp c (h c hc)

theorem stopsAt_nil (kind : Char → Bool) : StopsAt kind [] := by simp [StopsAt]

theorem stopsAt_cons {kind : Char → Bool} {c : Char} (hblank : isBlank c = false)
    (hc : kind c = true) (rest : List Char) : StopsAt kind (c :: rest) := by
  simpa [StopsAt, skipBlanks_cons_of_not_blank hblank] using hc

theorem endsPrimary_of_endsExpression {c : Char} (h : endsExpression c = true) :
    endsPrimary c = true := by
  simp only [endsExpression, endsPrimary, Bool.or_eq_true] at h ⊢
  tauto

theorem endsName_of_endsPrimary {c : Char} (h : endsPrimary c = true) : endsName c = true := by
  simp only [endsPrimary, Bool.or_eq_true, beq_iff_eq, or_assoc] at h
  rcases h with rfl | rfl | rfl | rfl <;> decide

theorem isBlank_of_isDelimiter {c : Char} (h : isDelimiter c = true) : isBlank c = false := by
  simp only [isDelimiter, Bool.or_eq_true, beq_iff_eq, or_assoc] at h
  rcases h with rfl | rfl | rfl | rfl | rfl | rfl | rfl | rfl | rfl | rfl | rfl <;> decide

theorem isBlank_of_endsExpression {c : Char} (h : endsExpression c = true) : isBlank c = false := by
  have hname := endsName_of_endsPrimary (endsPrimary_of_endsExpression h)
  simp only [endsName, Bool.and_eq_true] at hname
  exact isBlank_of_isDelimiter hname.1

/-- What a reader makes of a written value when the given text stands behind it. -/
def Reads {α : Type} (reader : Reader α) (written : List Char) (a : α) (rest : List Char) : Prop :=
  ∃ after, reader (written ++ rest) = .ok (a, after) ∧ skipBlanks after = skipBlanks rest

/-! ## Names and segments -/

theorem bareName_append {name rest : List Char} (hname : IsBareName name)
    (hrest : StopsAt endsName rest) : bareName (name ++ rest) = (name, skipBlanks rest) := by
  obtain ⟨blanks, hblanks, hsplit⟩ := exists_blanks_append rest
  have hrun : ∀ c ∈ name ++ blanks, (!isDelimiter c) = true := by
    intro c hc
    rw [Bool.not_eq_true']
    rcases List.mem_append.1 hc with hc | hc
    · exact hname.not_delimiter c hc
    · cases hdelimiter : isDelimiter c with
      | false => rfl
      | true => exact absurd (isBlank_of_isDelimiter hdelimiter) (by simp [hblanks c hc])
  have hstop : ∀ c ∈ (skipBlanks rest).head?, (!isDelimiter c) = false := by
    intro c hc
    have hends := hrest c hc
    simp only [endsName, Bool.and_eq_true] at hends
    simp [hends.1]
  have hassoc : name ++ rest = (name ++ blanks) ++ skipBlanks rest := by
    rw [List.append_assoc, ← hsplit]
  obtain ⟨htake, hdrop⟩ := takeWhile_append hrun hstop
  rw [bareName, hassoc, htake, hdrop, trim_append hname.trimmed hblanks]

theorem bareSegment_append {name rest : List Char} (quoting : Quoting) (start : List Char)
    (hname : IsBareName name) (hrest : StopsAt endsName rest) :
    bareSegment quoting start (name ++ rest) =
      .ok (⟨quoting, String.ofList name⟩, skipBlanks rest) := by
  rw [bareSegment, bareName_append hname hrest]
  cases name with
  | nil => exact absurd rfl hname.ne_nil
  | cons c cs => rfl

theorem closeBracket_append (name : List Char) {rest : List Char} (hrest : StopsAt endsName rest) :
    closeBracket (doubleClosing name ++ ']' :: rest) = some (name, rest) := by
  apply closeBracket_doubleClosing
  intro hhead
  have hskip : skipBlanks rest = rest := by
    rw [skipBlanks_eq_self_iff, hhead]
    rintro c ⟨⟩
    decide
  exact absurd (hrest ']' (by rw [hskip, hhead]; rfl)) (by decide)

/-- White space is neither a letter nor a number. -/
theorem isAlphanumeric_of_isBlank {c : Char} (h : isBlank c = true) : isAlphanumeric c = false := by
  apply class_eq_false_of_isBlank _ _ h
  · decide
  · decide +kernel

theorem isAlphanumeric_of_isDelimiter {c : Char} (h : isDelimiter c = true) :
    isAlphanumeric c = false := by
  simp only [isDelimiter, Bool.or_eq_true, beq_iff_eq, or_assoc] at h
  rcases h with rfl | rfl | rfl | rfl | rfl | rfl | rfl | rfl | rfl | rfl | rfl <;> decide

theorem isBareName_of_isPlainKey {name : List Char} (h : isPlainKey name = true) :
    IsBareName name := by
  simp only [isPlainKey, Bool.and_eq_true, Bool.not_eq_true', List.isEmpty_eq_false_iff,
    List.all_eq_true, Bool.or_eq_true, beq_iff_eq] at h
  obtain ⟨hne, hall⟩ := h
  have hblank : ∀ c ∈ name, isBlank c = false := by
    intro c hc
    cases hc' : isBlank c with
    | false => rfl
    | true =>
        rcases hall c hc with halpha | rfl
        · simp [isAlphanumeric_of_isBlank hc'] at halpha
        · exact absurd hc' (by decide)
  refine ⟨hne, ?_, ?_⟩
  · rw [trim_eq_self_iff]
    exact ⟨fun c hc => hblank c (List.mem_of_mem_head? hc),
      fun c hc => hblank c (List.mem_of_mem_getLast? hc)⟩
  · intro c hc
    cases hc' : isDelimiter c with
    | false => rfl
    | true =>
        rcases hall c hc with halpha | rfl
        · simp [isAlphanumeric_of_isDelimiter hc'] at halpha
        · exact absurd hc' (by decide)

theorem IsBareName.exists_cons {name : List Char} (h : IsBareName name) :
    ∃ c cs, name = c :: cs ∧ isBlank c = false ∧ isDelimiter c = false := by
  obtain ⟨c, cs, rfl⟩ := List.exists_cons_of_ne_nil h.ne_nil
  have hblank := ((trim_eq_self_iff _).1 h.trimmed).1 c (by simp)
  exact ⟨c, cs, rfl, hblank, h.not_delimiter c List.mem_cons_self⟩

theorem segment_of_bare {c : Char} (hblank : isBlank c = false) (hc : isDelimiter c = false)
    (cs : List Char) : segment (c :: cs) = bareSegment .unquoted (c :: cs) (c :: cs) := by
  rw [segment, skipBlanks_cons_of_not_blank hblank]
  split
  · rename_i h
    cases h
  · rename_i h
    cases h
    simp [isDelimiter] at hc
  · rename_i h
    cases h
    simp [isDelimiter] at hc
  · rename_i h
    cases h
    simp [isDelimiter] at hc
  · rfl

theorem segment_bracketed {name rest : List Char} (hrest : StopsAt endsName rest) :
    segment (bracketed name ++ rest) = .ok (⟨.quoted, String.ofList name⟩, rest) := by
  have hclose := closeBracket_append name hrest
  simp only [bracketed, List.cons_append, List.append_assoc, List.nil_append]
  rw [segment, skipBlanks_cons_of_not_blank (by decide)]
  simp only [hclose]

theorem segment_key_bracketed {name rest : List Char} (hname : name ≠ [])
    (hrest : StopsAt endsName rest) :
    segment ('&' :: (bracketed name ++ rest)) = .ok (⟨.key, String.ofList name⟩, rest) := by
  have hclose := closeBracket_append name hrest
  obtain ⟨c, cs, rfl⟩ := List.exists_cons_of_ne_nil hname
  simp only [bracketed, List.cons_append, List.append_assoc, List.nil_append]
  rw [segment, skipBlanks_cons_of_not_blank (by decide)]
  simp only [hclose]

theorem segment_key_of_bare {c : Char} (hc : isDelimiter c = false) (cs : List Char) :
    segment ('&' :: c :: cs) = bareSegment .key ('&' :: c :: cs) (c :: cs) := by
  rw [segment, skipBlanks_cons_of_not_blank (by decide)]
  split
  · rename_i h
    cases h
  · rename_i h
    cases h
  · rename_i h
    cases h
    simp [isDelimiter] at hc
  · rename_i h
    cases h
    rfl
  · rename_i h
    exact absurd rfl (h _)

theorem reads_segment {s : Segment} (hs : s.WellFormed) {rest : List Char}
    (hrest : StopsAt endsName rest) : Reads segment s.chars s rest := by
  obtain ⟨quoting, name⟩ := s
  cases quoting with
  | unquoted =>
      have hname : IsBareName name.toList := hs
      refine ⟨skipBlanks rest, ?_, skipBlanks_skipBlanks rest⟩
      obtain ⟨c, cs, hcons, hblank, hc⟩ := hname.exists_cons
      have hread := bareSegment_append .unquoted (name.toList ++ rest) hname hrest
      simp only [hcons, List.cons_append] at hread
      simp only [Segment.chars, hcons, List.cons_append]
      rw [segment_of_bare hblank hc, hread, ← hcons, String.ofList_toList]
  | quoted =>
      refine ⟨rest, ?_, rfl⟩
      simp only [Segment.chars]
      rw [segment_bracketed hrest, String.ofList_toList]
  | key =>
      have hname : name.toList ≠ [] := hs
      simp only [Segment.chars]
      split
      · rename_i hplain
        have hbare := isBareName_of_isPlainKey hplain
        refine ⟨skipBlanks rest, ?_, skipBlanks_skipBlanks rest⟩
        obtain ⟨c, cs, hcons, hblank, hc⟩ := hbare.exists_cons
        have hread := bareSegment_append .key ('&' :: (name.toList ++ rest)) hbare hrest
        simp only [hcons, List.cons_append] at hread ⊢
        rw [segment_key_of_bare hc, hread, ← hcons, String.ofList_toList]
      · refine ⟨rest, ?_, rfl⟩
        rw [List.cons_append, segment_key_bracketed hname hrest, String.ofList_toList]

/-! ## Identifiers -/

def startsName (c : Char) : Bool := !isBlank c && (!isDelimiter c || c == '[' || c == '&')

theorem Segment.WellFormed.chars_cons {s : Segment} (hs : s.WellFormed) :
    ∃ c cs, s.chars = c :: cs ∧ startsName c = true := by
  obtain ⟨quoting, name⟩ := s
  cases quoting with
  | unquoted =>
      obtain ⟨c, cs, hcons, hblank, hc⟩ := IsBareName.exists_cons hs
      exact ⟨c, cs, hcons, by simp [startsName, hblank, hc]⟩
  | quoted => exact ⟨_, _, rfl, by decide⟩
  | key => exact ⟨_, _, rfl, by decide⟩

theorem segmentChars_cons {ss : List Segment} (hne : ss ≠ []) (hss : ∀ s ∈ ss, s.WellFormed) :
    ∃ c cs, segmentChars ss = c :: cs ∧ startsName c = true := by
  match ss, hne with
  | [s], _ => exact (hss s List.mem_cons_self).chars_cons
  | s :: t :: ss, _ =>
      obtain ⟨c, cs, hcons, hc⟩ := (hss s List.mem_cons_self).chars_cons
      exact ⟨c, _, by rw [segmentChars, hcons, List.cons_append]; simp, hc⟩

theorem length_le_length_segmentChars {ss : List Segment} (hss : ∀ s ∈ ss, s.WellFormed) :
    ss.length ≤ (segmentChars ss).length := by
  induction ss with
  | nil => simp
  | cons s ss ih =>
      obtain ⟨hs, hmore⟩ := List.forall_mem_cons.1 hss
      obtain ⟨c, cs, hcons, _⟩ := hs.chars_cons
      cases ss with
      | nil => simp [segmentChars, hcons]
      | cons t ss =>
          have hrest := ih hmore
          simp only [segmentChars, hcons, List.length_append, List.length_cons] at hrest ⊢
          omega

theorem segments_append {ss : List Segment} (hne : ss ≠ []) (hss : ∀ s ∈ ss, s.WellFormed)
    {fuel : Nat} (hfuel : ss.length ≤ fuel) {rest : List Char} (hrest : StopsAt endsName rest)
    (hdot : (skipBlanks rest).head? ≠ some '.') :
    segments fuel (segmentChars ss ++ rest) = .ok (ss, skipBlanks rest) := by
  induction ss generalizing fuel with
  | nil => exact absurd rfl hne
  | cons s ss ih =>
      obtain ⟨hs, hmore⟩ := List.forall_mem_cons.1 hss
      obtain ⟨fuel, rfl⟩ : ∃ n, fuel = n + 1 := Nat.exists_eq_add_one_of_ne_zero (by
        simp only [List.length_cons] at hfuel
        omega)
      cases ss with
      | nil =>
          obtain ⟨after, hread, hafter⟩ := reads_segment hs hrest
          simp only [segmentChars, segments, hread, bind, Except.bind, hafter]
          split
          · rename_i htail
            rw [htail] at hdot
            exact absurd rfl hdot
          · rfl
      | cons t ss =>
          have htail : segments fuel (segmentChars (t :: ss) ++ rest) = .ok (t :: ss, skipBlanks rest) :=
            ih (List.cons_ne_nil t ss) hmore (by simpa using hfuel)
          have hstop : StopsAt endsName ('.' :: (segmentChars (t :: ss) ++ rest)) :=
            stopsAt_cons (by decide) (by decide) _
          obtain ⟨after, hread, hafter⟩ := reads_segment hs hstop
          rw [skipBlanks_cons_of_not_blank (by decide)] at hafter
          simp only [segmentChars, List.append_assoc, List.cons_append]
          rw [segments, hread]
          simp only [bind, Except.bind, hafter, htail]
          rfl

/-- An identifier is read up to the white space behind it. -/
theorem identifier_append {i : Identifier} (hi : i.WellFormed) {rest : List Char}
    (hrest : StopsAt endsName rest) (hdot : (skipBlanks rest).head? ≠ some '.') :
    identifier (i.chars ++ rest) = .ok (i, skipBlanks rest) := by
  have hfuel : i.segments.length ≤ (i.chars ++ rest).length := by
    have hlength := length_le_length_segmentChars hi.segments
    rw [List.length_append, Identifier.chars]
    omega
  rw [identifier, Identifier.chars]
  rw [Identifier.chars] at hfuel
  rw [segments_append hi.ne_nil hi.segments hfuel hrest hdot]
  rfl

/-! ## Lists of fragments -/

def startsExpression (c : Char) : Bool := startsName c || c == '\x7b' || c == '('

theorem isBlank_of_startsExpression {c : Char} (h : startsExpression c = true) :
    isBlank c = false := by
  simp only [startsExpression, startsName, Bool.or_eq_true, Bool.and_eq_true, Bool.not_eq_true',
    beq_iff_eq] at h
  rcases h with (h | rfl) | rfl
  · exact h.1
  · decide
  · decide

theorem startsExpression_of_endsExpression {c : Char} (h : endsExpression c = true) :
    startsExpression c = false := by
  simp only [endsExpression, Bool.or_eq_true, beq_iff_eq, or_assoc] at h
  rcases h with rfl | rfl | rfl <;> decide

namespace Fragment

theorem IsPrimary.chars_cons {f : Fragment} (h : f.IsPrimary) :
    ∃ c cs, f.chars = c :: cs ∧ startsExpression c = true := by
  cases h with
  | identifier hname =>
      obtain ⟨c, cs, hcons, hc⟩ := segmentChars_cons hname.ne_nil hname.segments
      exact ⟨c, cs, by rw [chars, Identifier.chars, hcons], by simp [startsExpression, hc]⟩
  | braces _ => exact ⟨_, _, by rw [chars], by decide⟩
  | parens _ _ => exact ⟨_, _, by rw [chars], by decide⟩
  | call hname _ =>
      obtain ⟨c, cs, hcons, hblank, hc⟩ := hname.bare.exists_cons
      exact ⟨c, _, by rw [chars, hcons, List.cons_append],
        by simp [startsExpression, startsName, hblank, hc]⟩

theorem IsExpression.chars_cons {f : Fragment} (h : f.IsExpression) :
    ∃ c cs, f.chars = c :: cs ∧ startsExpression c = true := by
  cases h with
  | primary h => exact h.chars_cons
  | range hlow _ =>
      obtain ⟨c, cs, hcons, hc⟩ := hlow.chars_cons
      exact ⟨c, _, by rw [chars, hcons, List.cons_append], hc⟩

end Fragment

/-- White space in front of a value makes no difference to its reader. -/
def IgnoresBlanks {α : Type} (reader : Reader α) : Prop :=
  ∀ cs, reader (skipBlanks cs) = reader cs

theorem IgnoresBlanks.cons_of_blank {α : Type} {reader : Reader α} (h : IgnoresBlanks reader)
    {c : Char} (hc : isBlank c = true) (cs : List Char) : reader (c :: cs) = reader cs := by
  rw [← h (c :: cs), skipBlanks_cons_of_blank hc, h cs]

theorem IgnoresBlanks.listItems {element : Reader Fragment} (h : IgnoresBlanks element)
    (close : Char) (fuel : Nat) : IgnoresBlanks (listItems element close fuel) := by
  intro cs
  cases fuel with
  | zero => rfl
  | succ fuel => rw [Mdx.listItems, Mdx.listItems, h cs]

theorem IgnoresBlanks.expressionOf {primary : Reader Fragment} (h : IgnoresBlanks primary) :
    IgnoresBlanks (expressionOf primary) := by
  intro cs
  rw [Mdx.expressionOf, Mdx.expressionOf, h cs]

theorem ignoresBlanks_primaryOf (inner : Reader Fragment) : IgnoresBlanks (primaryOf inner) := by
  intro cs
  simp only [primaryOf, skipBlanks_skipBlanks]

theorem ignoresBlanks_primary (depth : Nat) : IgnoresBlanks (primary depth) := by
  cases depth with
  | zero => exact ignoresBlanks_primaryOf _
  | succ depth => exact ignoresBlanks_primaryOf _

section Lists

variable {element : Reader Fragment} {close : Char} {items : List Fragment}

theorem length_le_length_listChars (hitems : ∀ f ∈ items, f.IsExpression) :
    items.length ≤ (Fragment.listChars items).length := by
  induction items with
  | nil => simp
  | cons f items ih =>
      obtain ⟨hf, hmore⟩ := List.forall_mem_cons.1 hitems
      obtain ⟨c, cs, hcons, _⟩ := hf.chars_cons
      cases items with
      | nil => simp [Fragment.listChars, hcons]
      | cons g items =>
          have hrest := ih hmore
          simp only [Fragment.listChars, hcons, List.length_append, List.length_cons] at hrest ⊢
          omega

theorem listItems_append (hignores : IgnoresBlanks element)
    (helement : ∀ f ∈ items, ∀ rest, StopsAt endsExpression rest → Reads element f.chars f rest)
    (hclose : endsExpression close = true) (hcomma : close ≠ ',') (hne : items ≠ []) {fuel : Nat}
    (hfuel : items.length ≤ fuel) (rest : List Char) :
    listItems element close fuel (Fragment.listChars items ++ close :: rest) =
      .ok (items, rest) := by
  have hblank := isBlank_of_endsExpression hclose
  induction items generalizing fuel with
  | nil => exact absurd rfl hne
  | cons f items ih =>
      obtain ⟨hf, hmore⟩ := List.forall_mem_cons.1 helement
      obtain ⟨fuel, rfl⟩ : ∃ n, fuel = n + 1 := Nat.exists_eq_add_one_of_ne_zero (by
        simp only [List.length_cons] at hfuel
        omega)
      cases items with
      | nil =>
          obtain ⟨after, hread, hafter⟩ := hf (close :: rest) (stopsAt_cons hblank hclose _)
          rw [skipBlanks_cons_of_not_blank hblank] at hafter
          simp only [Fragment.listChars]
          rw [listItems, hread]
          simp only [bind, Except.bind, hafter, if_neg hcomma, if_pos]
          rfl
      | cons g items =>
          have htail : listItems element close fuel
              (Fragment.listChars (g :: items) ++ close :: rest) = .ok (g :: items, rest) :=
            ih hmore (List.cons_ne_nil g items) (by simpa using hfuel)
          obtain ⟨after, hread, hafter⟩ :=
            hf (',' :: ' ' :: (Fragment.listChars (g :: items) ++ close :: rest))
              (stopsAt_cons (by decide) (by decide) _)
          rw [skipBlanks_cons_of_not_blank (by decide)] at hafter
          simp only [Fragment.listChars, List.append_assoc, List.cons_append]
          rw [listItems, hread]
          simp only [bind, Except.bind, hafter, if_pos]
          rw [(hignores.listItems close fuel).cons_of_blank (by decide), htail]
          rfl

theorem listChars_cons (hitems : ∀ f ∈ items, f.IsExpression) (hne : items ≠ []) :
    ∃ c cs, Fragment.listChars items = c :: cs ∧ startsExpression c = true := by
  match items, hne with
  | [f], _ => simpa [Fragment.listChars] using (hitems f List.mem_cons_self).chars_cons
  | f :: g :: items, _ =>
      obtain ⟨c, cs, hcons, hc⟩ := (hitems f List.mem_cons_self).chars_cons
      exact ⟨c, _, by rw [Fragment.listChars, hcons, List.cons_append]; simp, hc⟩

theorem listUpTo_append (hignores : IgnoresBlanks element)
    (hitems : ∀ f ∈ items, f.IsExpression)
    (helement : ∀ f ∈ items, ∀ rest, StopsAt endsExpression rest → Reads element f.chars f rest)
    (hclose : endsExpression close = true) (hcomma : close ≠ ',') (rest : List Char) :
    listUpTo element close (Fragment.listChars items ++ close :: rest) = .ok (items, rest) := by
  have hblank := isBlank_of_endsExpression hclose
  by_cases hne : items = []
  · subst hne
    rw [listUpTo, Fragment.listChars, List.nil_append, skipBlanks_cons_of_not_blank hblank]
    simp
  · obtain ⟨c, cs, hcons, hc⟩ := listChars_cons hitems hne
    have hother : c ≠ close := by
      rintro rfl
      rw [startsExpression_of_endsExpression hclose] at hc
      cases hc
    have hfuel : items.length ≤ (Fragment.listChars items ++ close :: rest).length := by
      have hlength := length_le_length_listChars hitems
      rw [List.length_append]
      omega
    have hread := listItems_append hignores helement hclose hcomma hne hfuel rest
    rw [hcons, List.cons_append] at hread ⊢
    rw [listUpTo, skipBlanks_cons_of_not_blank (isBlank_of_startsExpression hc)]
    simp only [if_neg hother, hread]

theorem length_chars_le_length_listChars {f : Fragment} (hf : f ∈ items) :
    f.chars.length ≤ (Fragment.listChars items).length := by
  induction items with
  | nil => cases hf
  | cons g items ih =>
      cases items with
      | nil =>
          rw [List.mem_singleton.1 hf]
          simp [Fragment.listChars]
      | cons g' items =>
          simp only [Fragment.listChars, List.length_append, List.length_cons]
          rcases List.mem_cons.1 hf with rfl | hf
          · omega
          · have hrest := ih hf
            omega

end Lists

/-! ## Fragments -/

def ReadsPrimaries (primary : Reader Fragment) (length : Nat) : Prop :=
  ∀ f : Fragment, f.IsPrimary → f.chars.length ≤ length →
    ∀ rest, StopsAt endsPrimary rest → Reads primary f.chars f rest

def ReadsExpressions (expression : Reader Fragment) (length : Nat) : Prop :=
  ∀ f : Fragment, f.IsExpression → f.chars.length ≤ length →
    ∀ rest, StopsAt endsExpression rest → Reads expression f.chars f rest

theorem ReadsPrimaries.expressionOf {primary : Reader Fragment} {length : Nat}
    (h : ReadsPrimaries primary length) (hignores : IgnoresBlanks primary) :
    ReadsExpressions (expressionOf primary) length := by
  intro f hf hlength rest hrest
  have hends := hrest.mono fun _ => endsPrimary_of_endsExpression
  cases hf with
  | primary hf =>
      obtain ⟨after, hread, hafter⟩ := h f hf hlength rest hends
      refine ⟨skipBlanks after, ?_, by rw [skipBlanks_skipBlanks, hafter]⟩
      rw [Mdx.expressionOf, hread]
      simp only [bind, Except.bind, hafter]
      split
      · rename_i htail
        have hcolon := hrest ':' (by rw [htail]; rfl)
        exact absurd hcolon (by decide)
      · rfl
  | range hlow hhigh =>
      rename_i low high
      simp only [Fragment.chars, List.length_append, List.length_cons] at hlength
      have hcolon : skipBlanks (' ' :: ':' :: ' ' :: (high.chars ++ rest)) =
          ':' :: ' ' :: (high.chars ++ rest) := by
        rw [skipBlanks_cons_of_blank (by decide), skipBlanks_cons_of_not_blank (by decide)]
      have hstop : StopsAt endsPrimary (' ' :: ':' :: ' ' :: (high.chars ++ rest)) := by
        rintro c hc
        rw [hcolon] at hc
        cases hc
        decide
      obtain ⟨middle, hreadLow, hmiddle⟩ := h low hlow (by omega) _ hstop
      obtain ⟨after, hreadHigh, hafter⟩ := h high hhigh (by omega) rest hends
      refine ⟨after, ?_, hafter⟩
      simp only [Fragment.chars, List.append_assoc, List.cons_append]
      rw [Mdx.expressionOf, hreadLow]
      simp only [bind, Except.bind, hmiddle, hcolon]
      rw [hignores.cons_of_blank (by decide), hreadHigh]
      rfl

section Brackets

variable {inner : Reader Fragment} {length : Nat} {items : List Fragment}

theorem ReadsExpressions.listUpTo (h : ReadsExpressions inner length)
    (hignores : IgnoresBlanks inner) (hitems : ∀ f ∈ items, f.IsExpression)
    (hlength : (Fragment.listChars items).length ≤ length) {close : Char}
    (hclose : endsExpression close = true) (hcomma : close ≠ ',') (rest : List Char) :
    listUpTo inner close (Fragment.listChars items ++ close :: rest) = .ok (items, rest) := by
  apply listUpTo_append hignores hitems _ hclose hcomma
  intro f hf rest hrest
  exact h f (hitems f hf) ((length_chars_le_length_listChars hf).trans hlength) rest hrest

theorem primaryOf_name {c : Char} (hc : startsName c = true) (cs : List Char) :
    primaryOf inner (c :: cs) = (do
      let (name, rest) ← identifier (c :: cs)
      match name.function?, skipBlanks rest with
      | some function, '(' :: rest =>
        let (arguments, rest) ← listUpTo inner ')' rest
        return (.call function arguments, rest)
      | _, rest => return (.identifier name, rest)) := by
  have hblank := isBlank_of_startsExpression (c := c) (by simp [startsExpression, hc])
  rw [primaryOf, skipBlanks_cons_of_not_blank hblank]
  split
  · rename_i h
    cases h
  · rename_i h
    cases h
    exact absurd hc (by decide)
  · rename_i h
    cases h
    exact absurd hc (by decide)
  · rfl

theorem reads_identifier {name : Identifier} (hname : name.WellFormed) {rest : List Char}
    (hrest : StopsAt endsPrimary rest) :
    Reads (primaryOf inner) name.chars (.identifier name) rest := by
  refine ⟨skipBlanks rest, ?_, skipBlanks_skipBlanks rest⟩
  have hdot : (skipBlanks rest).head? ≠ some '.' := fun h => absurd (hrest '.' h) (by decide)
  have hread := identifier_append hname (hrest.mono fun _ => endsName_of_endsPrimary) hdot
  obtain ⟨c, cs, hcons, hc⟩ := segmentChars_cons hname.ne_nil hname.segments
  rw [Identifier.chars, hcons, List.cons_append] at hread ⊢
  rw [primaryOf_name hc, hread]
  simp only [bind, Except.bind, skipBlanks_skipBlanks]
  split
  · rename_i htail
    exact absurd (hrest '(' (by rw [htail]; rfl)) (by decide)
  · rfl

theorem ReadsExpressions.call (h : ReadsExpressions inner length)
    (hignores : IgnoresBlanks inner) {function : String} (hname : IsFunctionName function.toList)
    (hitems : ∀ f ∈ items, f.IsExpression)
    (hlength : (Fragment.listChars items).length ≤ length) (rest : List Char) :
    Reads (primaryOf inner) (Fragment.call function items).chars (.call function items) rest := by
  refine ⟨rest, ?_, rfl⟩
  have hwell : Identifier.WellFormed ⟨[⟨.unquoted, function⟩]⟩ :=
    ⟨List.cons_ne_nil _ _, by simpa [Segment.WellFormed] using hname.bare⟩
  have hfunction : Identifier.function? ⟨[⟨.unquoted, function⟩]⟩ = some function := by
    simp only [Identifier.function?, hname.capital, String.ofList_toList]
  have hitemsRead : Mdx.listUpTo inner ')' (Fragment.listChars items ++ ')' :: rest) =
      .ok (items, rest) :=
    h.listUpTo hignores hitems hlength (by decide) (by decide) rest
  have hparen : skipBlanks ('(' :: (Fragment.listChars items ++ ')' :: rest)) =
      '(' :: (Fragment.listChars items ++ ')' :: rest) :=
    skipBlanks_cons_of_not_blank (by decide) _
  have hstop : StopsAt endsName ('(' :: (Fragment.listChars items ++ ')' :: rest)) :=
    stopsAt_cons (by decide) (by decide) _
  have hread := identifier_append hwell hstop (by rw [hparen]; simp)
  obtain ⟨c, cs, hcons, hblank, hc⟩ := hname.bare.exists_cons
  simp only [Identifier.chars, segmentChars, Segment.chars, hcons, List.cons_append, hparen] at hread
  simp only [Fragment.chars, hcons, List.cons_append, List.append_assoc, List.nil_append]
  rw [primaryOf_name (by simp [startsName, hblank, hc]), hread]
  simp only [bind, Except.bind, hfunction, hparen, hitemsRead]
  rfl

theorem ReadsExpressions.primaryOf (h : ReadsExpressions inner length)
    (hignores : IgnoresBlanks inner) : ReadsPrimaries (primaryOf inner) (length + 1) := by
  intro f hf hlength rest hrest
  cases hf with
  | identifier hname => exact reads_identifier hname hrest
  | @braces items hitems =>
      simp only [Fragment.chars, List.length_append, List.length_cons, List.length_nil] at hlength
      have hread : Mdx.listUpTo inner '\x7d' (Fragment.listChars items ++ '\x7d' :: rest) =
          .ok (items, rest) :=
        h.listUpTo hignores hitems (by omega) (by decide) (by decide) rest
      refine ⟨rest, ?_, rfl⟩
      simp only [Fragment.chars, List.cons_append, List.append_assoc, List.nil_append]
      rw [Mdx.primaryOf, skipBlanks_cons_of_not_blank (by decide)]
      simp only [bind, Except.bind, hread]
      rfl
  | @parens items hne hitems =>
      simp only [Fragment.chars, List.length_append, List.length_cons, List.length_nil] at hlength
      have hread : Mdx.listUpTo inner ')' (Fragment.listChars items ++ ')' :: rest) =
          .ok (items, rest) :=
        h.listUpTo hignores hitems (by omega) (by decide) (by decide) rest
      refine ⟨rest, ?_, rfl⟩
      simp only [Fragment.chars, List.cons_append, List.append_assoc, List.nil_append]
      rw [Mdx.primaryOf, skipBlanks_cons_of_not_blank (by decide)]
      simp only [bind, Except.bind, hread, List.isEmpty_iff, if_neg hne]
      rfl
  | call hname hitems =>
      simp only [Fragment.chars, List.length_append, List.length_cons, List.length_nil] at hlength
      exact h.call hignores hname hitems (by omega) rest

end Brackets

theorem readsPrimaries_primary (depth : Nat) : ReadsPrimaries (primary depth) depth := by
  induction depth with
  | zero =>
      intro f hf hlength
      obtain ⟨c, cs, hcons, _⟩ := hf.chars_cons
      simp [hcons] at hlength
  | succ depth ih =>
      have hignores := ignoresBlanks_primary depth
      exact (ih.expressionOf hignores).primaryOf hignores.expressionOf

theorem readWhole_of_reads {α : Type} {reader : Reader α} {written : List Char} {a : α}
    (h : Reads reader written a []) : readWhole reader (String.ofList written) = .ok a := by
  obtain ⟨after, hread, hafter⟩ := h
  rw [List.append_nil] at hread
  simp [readWhole, hread, hafter]

/-- A well-formed identifier is read back from its text. -/
theorem Identifier.parse_text {i : Identifier} (hi : i.WellFormed) : Identifier.parse i.text = .ok i := by
  apply readWhole_of_reads
  exact ⟨_, identifier_append hi (stopsAt_nil _) (by simp), skipBlanks_skipBlanks []⟩

/-- A well-formed fragment is read back from its text. -/
theorem Fragment.parse_text {f : Fragment} (hf : f.IsExpression) : Fragment.parse f.text = .ok f := by
  apply readWhole_of_reads
  have hreads := (readsPrimaries_primary f.chars.length).expressionOf (ignoresBlanks_primary _)
  obtain ⟨after, hread, hafter⟩ := hreads f hf (Nat.le_refl _) [] (stopsAt_nil _)
  refine ⟨after, ?_, hafter⟩
  rw [List.append_nil] at hread ⊢
  exact hread

theorem Fragment.text_identifier (name : Identifier) : (identifier name).text = name.text := by
  rw [Fragment.text, Fragment.chars, Identifier.text]

/-! ## White space at the ends -/

theorem isBlank_getLast?_append (front : List Char) {back : List Char} (hne : back ≠ [])
    (hback : ∀ c ∈ back.getLast?, isBlank c = false) :
    ∀ c ∈ (front ++ back).getLast?, isBlank c = false := by
  rwa [List.getLast?_append_of_ne_nil _ hne]

theorem isBlank_getLast?_close (front : List Char) {close : Char}
    (hclose : isBlank close = false) : ∀ c ∈ (front ++ [close]).getLast?, isBlank c = false :=
  isBlank_getLast?_append _ (List.cons_ne_nil _ _) (by simpa using hclose)

theorem Segment.WellFormed.isBlank_getLast? {s : Segment} (hs : s.WellFormed) :
    ∀ c ∈ s.chars.getLast?, isBlank c = false := by
  have hbracketed (front name : List Char) :
      ∀ c ∈ (front ++ bracketed name).getLast?, isBlank c = false := by
    have hsplit : front ++ bracketed name = front ++ '[' :: doubleClosing name ++ [']'] := by
      simp [bracketed]
    rw [hsplit]
    exact isBlank_getLast?_close _ (by decide)
  obtain ⟨quoting, name⟩ := s
  cases quoting with
  | unquoted => exact ((trim_eq_self_iff _).1 (IsBareName.trimmed hs)).2
  | quoted => exact hbracketed [] name.toList
  | key =>
      simp only [Segment.chars]
      split
      · rename_i hplain
        have hbare := isBareName_of_isPlainKey hplain
        have hname := ((trim_eq_self_iff _).1 hbare.trimmed).2
        exact isBlank_getLast?_append ['&'] hbare.ne_nil hname
      · exact hbracketed ['&'] name.toList

theorem isBlank_getLast?_segmentChars {ss : List Segment} (hss : ∀ s ∈ ss, s.WellFormed) :
    ∀ c ∈ (segmentChars ss).getLast?, isBlank c = false := by
  induction ss with
  | nil => simp [segmentChars]
  | cons s ss ih =>
      obtain ⟨hs, hmore⟩ := List.forall_mem_cons.1 hss
      cases ss with
      | nil => exact hs.isBlank_getLast?
      | cons t ss =>
          obtain ⟨c, cs, hcons, _⟩ := segmentChars_cons (List.cons_ne_nil t ss) hmore
          rw [segmentChars, List.append_cons]
          · exact isBlank_getLast?_append _ (by simp [hcons]) (ih hmore)
          · exact List.cons_ne_nil t ss

namespace Fragment

theorem IsPrimary.isBlank_getLast? {f : Fragment} (h : f.IsPrimary) :
    ∀ c ∈ f.chars.getLast?, isBlank c = false := by
  cases h with
  | identifier hname => exact isBlank_getLast?_segmentChars hname.segments
  | braces _ =>
      rw [chars, ← List.cons_append]
      exact isBlank_getLast?_close _ (by decide)
  | parens _ _ =>
      rw [chars, ← List.cons_append]
      exact isBlank_getLast?_close _ (by decide)
  | call _ _ =>
      rw [chars, ← List.cons_append, ← List.append_assoc]
      exact isBlank_getLast?_close _ (by decide)

theorem IsExpression.isBlank_getLast? {f : Fragment} (h : f.IsExpression) :
    ∀ c ∈ f.chars.getLast?, isBlank c = false := by
  cases h with
  | primary h => exact h.isBlank_getLast?
  | range _ hhigh =>
      obtain ⟨c, cs, hcons, _⟩ := hhigh.chars_cons
      rw [chars]
      exact isBlank_getLast?_append _ (List.cons_ne_nil _ _)
        (isBlank_getLast?_append [' ', ':', ' '] (by simp [hcons]) hhigh.isBlank_getLast?)

/-- White space stands at neither end of a canonical text. -/
theorem trimmed_text {f : Fragment} (h : f.IsExpression) : trimmed f.text = f.text := by
  have hhead : ∀ c ∈ f.chars.head?, isBlank c = false := by
    obtain ⟨c, cs, hcons, hc⟩ := h.chars_cons
    simpa [hcons] using isBlank_of_startsExpression hc
  rw [trimmed, text, String.toList_ofList, (trim_eq_self_iff _).2 ⟨hhead, h.isBlank_getLast?⟩]

end Fragment

/-! ## The round trip -/

/-- Canonical texts are read back: whatever was read is read again from its canonical text, and so is
every well-formed fragment, however it was built. An identifier is read back by both readers. -/
theorem canonical_text_round_trip :
    (∀ (text : String) (f : Fragment), Fragment.parse text = .ok f →
      Fragment.parse f.text = .ok f ∧
        ∀ name, f = .identifier name → Identifier.parse f.text = .ok name) ∧
    (∀ (text : String) (name : Identifier), Identifier.parse text = .ok name →
      Identifier.parse name.text = .ok name ∧
        Fragment.parse name.text = .ok (.identifier name)) ∧
    ∀ f : Fragment, f.IsExpression → Fragment.parse f.text = .ok f := by
  refine ⟨?_, ?_, fun f hf => Fragment.parse_text hf⟩
  · intro text f hf
    have hwell := isExpression_of_parse hf
    refine ⟨Fragment.parse_text hwell, ?_⟩
    rintro name rfl
    cases hwell with
    | primary hname =>
        cases hname with
        | identifier hname =>
            rw [Fragment.text_identifier]
            exact Identifier.parse_text hname
  · intro text name hname
    have hwell := wellFormed_of_parse hname
    refine ⟨Identifier.parse_text hwell, ?_⟩
    rw [← Fragment.text_identifier]
    exact Fragment.parse_text (.primary (.identifier hwell))

/-- A call on a range with a doubled bracket and a spaced key, an identifier with an empty segment, and
a set built directly. -/
theorem canonical_text_round_trip_range :
    let call : Fragment := .call "SUM" [.range (.identifier ⟨[⟨.quoted, "a]b"⟩, ⟨.key, "x y"⟩]⟩)
      (.identifier ⟨[⟨.unquoted, "c d"⟩]⟩), .parens [.braces []]]
    let name : Identifier := ⟨[⟨.unquoted, "a"⟩, ⟨.quoted, ""⟩]⟩
    let set : Fragment := .braces [.identifier name]
    (Fragment.parse " sum( [a]]b] . & x y : c d ,({}))" = .ok call ∧
      Fragment.parse call.text = .ok call) ∧
    (Identifier.parse " a . []" = .ok name ∧ Fragment.parse name.text = .ok (.identifier name)) ∧
    Fragment.parse set.text = .ok set := by
  intro call name set
  obtain ⟨hread, hname, hbuilt⟩ := canonical_text_round_trip
  have hcall : Fragment.parse " sum( [a]]b] . & x y : c d ,({}))" = .ok call := by cbv
  have hsegments : Identifier.parse " a . []" = .ok name := by cbv
  refine ⟨⟨hcall, (hread _ _ hcall).1⟩, ⟨hsegments, (hname _ _ hsegments).2⟩, hbuilt _ ?_⟩
  have hitem : ∀ f ∈ [Fragment.identifier name], f.IsExpression := by
    intro f hf
    rw [List.mem_singleton.1 hf]
    exact .primary (.identifier (wellFormed_of_parse hsegments))
  exact .primary (.braces hitem)

end CubeQuery.Mdx
