import CubeQuery.Mdx.SetExpr
import CubeQuery.Proofs.Mdx.RoundTrip

/-!
# Rendered sets are read back

The text of a set expression is the canonical text of a fragment of the same shape, its `tree`, and the
tree is well-formed. Reading the text therefore gives the tree, whatever names the expression holds.
-/

namespace CubeQuery.Mdx

open Text

/-! ## Trees -/

def IsCanonical (uniqueName : String) : Prop := ∃ i : Identifier, i.WellFormed ∧ i.text = uniqueName

def segmentsOf (uniqueName : String) : List Segment :=
  match Identifier.parse uniqueName with
  | .ok i => i.segments
  | .error _ => []

def pathFragment (uniqueName : String) (words : List String) : Fragment :=
  .identifier ⟨segmentsOf uniqueName ++ words.map (⟨.unquoted, ·⟩)⟩

def wordFragment (word : String) : Fragment := .identifier ⟨[⟨.unquoted, word⟩]⟩

/-- What a sort key is read as; properties hold string literals, which are not read. -/
def ValueExpr.tree : ValueExpr → Fragment
  | .measure uniqueName => pathFragment uniqueName []
  | .attribute hierarchy .caption => pathFragment hierarchy ["CurrentMember", "Caption"]
  | .attribute hierarchy .name => pathFragment hierarchy ["CurrentMember", "Name"]
  | .attribute hierarchy .uniqueName => pathFragment hierarchy ["CurrentMember", "UniqueName"]
  | .attribute _ .key | .property .. => .parens []

/-- Sort keys whose text is an expression. -/
inductive ValueExpr.Readable : ValueExpr → Prop where
  | measure {uniqueName : String} (h : IsCanonical uniqueName) : Readable (.measure uniqueName)
  | memberAttribute {hierarchy : String} (h : IsCanonical hierarchy) {which : MemberAttribute}
      (hwhich : which ≠ .key) : Readable (.attribute hierarchy which)

def SortDirection.word : SortDirection → String
  | .ascending => "BASC"
  | .descending => "BDESC"

namespace SetExpr

mutual

/-- What a set expression is read as; a cross join has no brackets around it and is not read. -/
def tree : SetExpr → Fragment
  | .levelMembers level => pathFragment level ["Members"]
  | .member uniqueName => pathFragment uniqueName []
  | .fragment f => f
  | .set items => .braces (trees items)
  | .descendants root level => .call "DESCENDANTS" [root.tree, pathFragment level []]
  | .namedSet name => .identifier ⟨[⟨.quoted, name⟩]⟩
  | .crossJoin _ => .parens []
  | .order base key direction => .call "ORDER" [base.tree, key.tree, wordFragment direction.word]
  | .subset base start none => .call "SUBSET" [base.tree, wordFragment (Decimal.natText start)]
  | .subset base start (some count) =>
    .call "SUBSET"
      [base.tree, wordFragment (Decimal.natText start), wordFragment (Decimal.natText count)]
  | .distinct base => .call "DISTINCT" [base.tree]

def trees : List SetExpr → List Fragment
  | [] => []
  | s :: rest => s.tree :: trees rest

end

/-- Set expressions without cross joins and properties, made of canonical names and of fragments that
were read. -/
inductive Readable : SetExpr → Prop where
  | levelMembers {level : String} (h : IsCanonical level) : Readable (.levelMembers level)
  | member {uniqueName : String} (h : IsCanonical uniqueName) : Readable (.member uniqueName)
  | fragment {f : Fragment} {text : String} (h : Fragment.parse text = .ok f) : Readable (.fragment f)
  | set {items : List SetExpr} (h : ∀ s ∈ items, Readable s) : Readable (.set items)
  | descendants {root : SetExpr} {level : String} (hroot : Readable root)
      (hlevel : IsCanonical level) : Readable (.descendants root level)
  | namedSet (name : String) : Readable (.namedSet name)
  | order {base : SetExpr} {key : ValueExpr} (hbase : Readable base) (hkey : key.Readable)
      (direction : SortDirection) : Readable (.order base key direction)
  | subset {base : SetExpr} (hbase : Readable base) (start : Nat) (count : Option Nat) :
      Readable (.subset base start count)
  | distinct {base : SetExpr} (hbase : Readable base) : Readable (.distinct base)

end SetExpr

/-! ## Texts of tokens -/

theorem toList_serialize (tokens : List Token) :
    (serialize tokens).toList = tokens.flatMap fun t => t.text.toList := by
  have hjoin : ∀ (texts : List String) (start : String),
      (texts.foldl (· ++ ·) start).toList = start.toList ++ texts.flatMap (·.toList) := by
    intro texts
    induction texts with
    | nil => simp
    | cons s texts ih =>
        intro start
        simp [ih]
  rw [serialize, String.join, hjoin]
  simp [List.flatMap_map]

theorem toList_serialize_append (a b : List Token) :
    (serialize (a ++ b)).toList = (serialize a).toList ++ (serialize b).toList := by
  simp [toList_serialize]

theorem toList_serialize_cons (t : Token) (tokens : List Token) :
    (serialize (t :: tokens)).toList = t.text.toList ++ (serialize tokens).toList := by
  simp [toList_serialize]

/-- The tokens spell a well-formed fragment. -/
structure Renders (tokens : List Token) (f : Fragment) : Prop where
  chars : (serialize tokens).toList = f.chars
  expression : f.IsExpression

theorem Renders.parse {tokens : List Token} {f : Fragment} (h : Renders tokens f) :
    Fragment.parse (serialize tokens) = .ok f := by
  have htext : serialize tokens = f.text := by
    rw [Fragment.text, ← h.chars, String.ofList_toList]
  rw [htext]
  exact Fragment.parse_text h.expression

/-! ### Names -/

theorem segmentsOf_text {i : Identifier} (hi : i.WellFormed) : segmentsOf i.text = i.segments := by
  rw [segmentsOf, Identifier.parse_text hi]

theorem segmentChars_append_words {ss : List Segment} (hne : ss ≠ []) (words : List String) :
    segmentChars (ss ++ words.map (⟨.unquoted, ·⟩)) =
      segmentChars ss ++ words.flatMap fun w => '.' :: w.toList := by
  induction ss with
  | nil => exact absurd rfl hne
  | cons s ss ih =>
      cases ss with
      | cons t ss =>
          have htail := ih (List.cons_ne_nil t ss)
          simp only [List.cons_append, segmentChars] at htail ⊢
          rw [htail]
          simp
      | nil =>
          clear ih
          induction words generalizing s with
          | nil => simp [segmentChars]
          | cons w words ih =>
              have htail := ih ⟨.unquoted, w⟩ (List.cons_ne_nil _ _)
              simp only [List.singleton_append, List.map_cons, List.flatMap_cons] at htail ⊢
              simp only [segmentChars, htail]
              simp [Segment.chars]

def pathTokens (uniqueName : String) (words : List Token) : List Token :=
  .uniqueIdent uniqueName :: words.flatMap fun t => [.dot, t]

theorem renders_path {uniqueName : String} (h : IsCanonical uniqueName) (words : List Token)
    (hwords : ∀ t ∈ words, IsBareName t.text.toList) :
    Renders (pathTokens uniqueName words) (pathFragment uniqueName (words.map (·.text))) := by
  obtain ⟨i, hi, rfl⟩ := h
  constructor
  · have hchars : (serialize (words.flatMap fun t => [.dot, t])).toList =
        (words.map (·.text)).flatMap fun w => '.' :: w.toList := by
      simp [toList_serialize, List.flatMap_assoc, List.flatMap_map, Token.text]
    rw [pathTokens, toList_serialize_cons, hchars, pathFragment, Fragment.chars, Identifier.chars,
      segmentsOf_text hi, segmentChars_append_words hi.ne_nil]
    simp [Token.text, Identifier.text, Identifier.chars]
  · refine .primary (.identifier ⟨?_, ?_⟩)
    · simp [segmentsOf_text hi, hi.ne_nil]
    · intro s hs
      rw [segmentsOf_text hi] at hs
      rcases List.mem_append.1 hs with hs | hs
      · exact hi.segments s hs
      · simp only [List.map_map, List.mem_map] at hs
        obtain ⟨t, ht, rfl⟩ := hs
        exact hwords t ht

theorem renders_word {t : Token} (h : IsBareName t.text.toList) :
    Renders [t] (wordFragment t.text) where
  chars := by
    simp [toList_serialize, wordFragment, Fragment.chars, Identifier.chars, segmentChars,
      Segment.chars]
  expression := .primary (.identifier ⟨List.cons_ne_nil _ _, by simpa [Segment.WellFormed] using h⟩)

theorem isBareName_natText (n : Nat) : IsBareName (Decimal.natText n).toList := by
  apply isBareName_of_isPlainKey
  have hdigits : ∀ c ∈ Nat.toDigits 10 n, isAlphanumeric c = true := by
    intro c hc
    have hdigit := Nat.isDigit_of_mem_toDigits (by decide) (by decide) hc
    have hsmall : c.toNat < 128 := by
      simp only [Char.isDigit, Bool.and_eq_true, decide_eq_true_eq] at hdigit
      exact Nat.lt_of_le_of_lt (UInt32.le_iff_toNat_le.1 hdigit.2) (by decide)
    simp [isAlphanumeric, hsmall, Char.isAlphanum, hdigit]
  simp only [isPlainKey, Decimal.natText, String.toList_ofList, Bool.and_eq_true,
    Bool.not_eq_true', List.isEmpty_eq_false_iff, List.all_eq_true, Bool.or_eq_true]
  exact ⟨Nat.toDigits_ne_nil, fun c hc => .inl (hdigits c hc)⟩

/-! ### Lists -/

theorem toList_serialize_intercalate {items : List (List Token)} {fs : List Fragment}
    (h : List.Forall₂ Renders items fs) :
    (serialize (separator.intercalate items)).toList = Fragment.listChars fs := by
  induction h with
  | nil => simp [toList_serialize, Fragment.listChars]
  | @cons tokens f items fs hf hitems ih =>
      cases hitems with
      | nil => simp [Fragment.listChars, hf.chars]
      | cons hg hitems =>
          rw [List.intercalate_cons_cons, toList_serialize_append, toList_serialize_append, ih,
            hf.chars]
          simp [Fragment.listChars, separator, toList_serialize, Token.text]

theorem isExpression_of_renders {items : List (List Token)} {fs : List Fragment}
    (h : List.Forall₂ Renders items fs) : ∀ f ∈ fs, f.IsExpression := by
  induction h with
  | nil => simp
  | cons hf hitems ih => exact List.forall_mem_cons.2 ⟨hf.expression, ih⟩

theorem renders_braces {items : List (List Token)} {fs : List Fragment}
    (h : List.Forall₂ Renders items fs) :
    Renders (.lbrace :: (separator.intercalate items ++ [.rbrace])) (.braces fs) where
  chars := by
    rw [toList_serialize_cons, toList_serialize_append, toList_serialize_intercalate h,
      Fragment.chars]
    simp [toList_serialize, Token.text]
  expression := .primary (.braces (isExpression_of_renders h))

theorem renders_call {name function : String} (hname : IsBareName name.toList)
    (hcapital : capitals name.toList = function.toList) {items : List (List Token)}
    {fs : List Fragment} (h : List.Forall₂ Renders items fs) :
    Renders (callTokens name items) (.call function fs) where
  chars := by
    rw [callTokens, toList_serialize_cons, toList_serialize_cons, toList_serialize_append,
      toList_serialize_intercalate h, Fragment.chars]
    simp [toList_serialize, Token.text, hcapital]
  expression :=
    .primary (.call (hcapital ▸ isFunctionName_capitals hname) (isExpression_of_renders h))

/-! ### Expressions -/

theorem renders_name {uniqueName : String} (h : IsCanonical uniqueName) :
    Renders [.uniqueIdent uniqueName] (pathFragment uniqueName []) :=
  renders_path h [] (by simp)

theorem renders_integer (n : Nat) : Renders [.integer n] (wordFragment (Decimal.natText n)) :=
  renders_word (isBareName_natText n)

theorem renders_direction (direction : SortDirection) :
    Renders [direction.token] (wordFragment direction.word) := by
  cases direction with
  | ascending => exact renders_word (t := .basc) (isBareName_of_isPlainKey (by decide))
  | descending => exact renders_word (t := .bdesc) (isBareName_of_isPlainKey (by decide))

theorem renders_key {key : ValueExpr} (h : key.Readable) : Renders key.tokens key.tree := by
  have hword : ∀ t ∈ [Token.currentMember, .caption, .name, .uniqueName],
      IsBareName t.text.toList := by
    intro t ht
    apply isBareName_of_isPlainKey
    revert t
    decide
  cases h with
  | measure h => exact renders_name h
  | @memberAttribute hierarchy h which hwhich =>
      cases which with
      | caption => exact renders_path h [.currentMember, .caption] (by simp_all)
      | key => exact absurd rfl hwhich
      | name => exact renders_path h [.currentMember, .name] (by simp_all)
      | uniqueName => exact renders_path h [.currentMember, .uniqueName] (by simp_all)

/-- A sort key by itself is read as what it is read as inside an order. -/
theorem ValueExpr.Readable.parse_text {key : ValueExpr} (h : key.Readable) :
    Fragment.parse key.text = .ok key.tree :=
  (renders_key h).parse

namespace SetExpr

theorem forall₂_renders {items : List SetExpr} (h : ∀ s ∈ items, Renders s.tokens s.tree) :
    List.Forall₂ Renders (listTokens items) (trees items) := by
  induction items with
  | nil => exact .nil
  | cons s items ih =>
      obtain ⟨hs, hitems⟩ := List.forall_mem_cons.1 h
      exact .cons hs (ih hitems)

/-- A readable expression is rendered as its tree is. -/
theorem Readable.renders {e : SetExpr} (h : e.Readable) : Renders e.tokens e.tree := by
  induction h with
  | levelMembers h =>
      exact renders_path h [.members] (by simpa using isBareName_of_isPlainKey (by decide))
  | member h => exact renders_name h
  | fragment h =>
      refine ⟨?_, isExpression_of_parse h⟩
      simp [tokens, tree, toList_serialize, Token.text, Fragment.text]
  | set _ ih => exact renders_braces (forall₂_renders ih)
  | descendants _ hlevel ih =>
      exact renders_call (isBareName_of_isPlainKey (by decide)) (by decide)
        (.cons ih (.cons (renders_name hlevel) .nil))
  | namedSet name =>
      refine ⟨?_, .primary (.identifier ⟨List.cons_ne_nil _ _, by simp [Segment.WellFormed]⟩)⟩
      simp [tokens, tree, toList_serialize, Token.text, Fragment.chars, Identifier.chars,
        segmentChars, Segment.chars]
  | order _ hkey direction ih =>
      exact renders_call (isBareName_of_isPlainKey (by decide)) (by decide)
        (.cons ih (.cons (renders_key hkey) (.cons (renders_direction direction) .nil)))
  | subset _ start count ih =>
      cases count with
      | none =>
          exact renders_call (isBareName_of_isPlainKey (by decide)) (by decide)
            (.cons ih (.cons (renders_integer start) .nil))
      | some count =>
          exact renders_call (isBareName_of_isPlainKey (by decide)) (by decide)
            (.cons ih (.cons (renders_integer start) (.cons (renders_integer count) .nil)))
  | distinct _ ih =>
      exact renders_call (isBareName_of_isPlainKey (by decide)) (by decide) (.cons ih .nil)

/-- The text of a readable expression is read as its tree, at every depth. -/
theorem parse_text_eq_tree (e : SetExpr) (h : e.Readable) : Fragment.parse e.text = .ok e.tree :=
  h.renders.parse

/-- The best three of a set of a range, of members below a member, and of a named set whose name holds
brackets and commas. -/
theorem parse_text_eq_tree_nested :
    let range : Fragment := .range (.identifier ⟨[⟨.unquoted, "a"⟩]⟩) (.identifier ⟨[⟨.key, "b"⟩]⟩)
    let items : List SetExpr := [.fragment range, .descendants (.member "[Time].[1997]") "[Time]",
      .namedSet "x], [y"]
    let e : SetExpr := .subset (.order (.set items) (.attribute "[Time]" .name) .descending) 0 (some 3)
    Fragment.parse e.text = .ok e.tree := by
  intro range items e
  have htime : IsCanonical "[Time]" :=
    ⟨⟨[⟨.quoted, "Time"⟩]⟩, ⟨by simp, by simp [Segment.WellFormed]⟩, by decide⟩
  have hyear : IsCanonical "[Time].[1997]" :=
    ⟨⟨[⟨.quoted, "Time"⟩, ⟨.quoted, "1997"⟩]⟩, ⟨by simp, by simp [Segment.WellFormed]⟩, by decide⟩
  have hrange : Fragment.parse "a : &[b]" = .ok range := by cbv
  have hitems : ∀ s ∈ items, s.Readable := by
    intro s hs
    simp only [items, List.mem_cons, List.not_mem_nil, or_false] at hs
    rcases hs with rfl | rfl | rfl
    · exact .fragment hrange
    · exact .descendants (.member hyear) htime
    · exact .namedSet _
  apply parse_text_eq_tree
  exact .subset (.order (.set hitems) (.memberAttribute htime (by decide)) .descending) 0 (some 3)

end SetExpr

end CubeQuery.Mdx
