import CubeQuery.Proofs.Engine.Cache
import CubeQuery.Proofs.Mdx.RoundTrip
import CubeQuery.Proofs.Plan.Refusals

/-!
# What a resolved cut emits

A cut that is no named set keeps the identifiers it has looked up, each with the engine's answer, and
emits them in a canonical form. One description of success (`resolve_validated_iff`) is read in
both directions: forwards for what a cut has been checked for, and backwards for its canonical form,
which is resolved to the same cut again (`resolve_emits_validated`).
-/

namespace CubeQuery

open Mdx

/-- What the engine answers for a member depends on the cube and the name alone, not on its state. -/
def Engine.LooksUp {σ : Type} (engine : Engine σ)
    (lookup : String → String → Except EngineError (Option Member)) : Prop :=
  ∀ cube name s, ((engine.member cube name).run s).1 = lookup cube name

namespace Mdx.Fragment

mutual

def identifiers : Fragment → List Identifier
  | .identifier name => [name]
  | .braces items => listIdentifiers items
  | .parens items => listIdentifiers items
  | .range low high => low.identifiers ++ high.identifiers
  | .call _ arguments => listIdentifiers arguments

def listIdentifiers : List Fragment → List Identifier
  | [] => []
  | f :: rest => f.identifiers ++ listIdentifiers rest

end

theorem listIdentifiers_map (ids : List Identifier) : listIdentifiers (ids.map .identifier) = ids := by
  induction ids with
  | nil => rfl
  | cons id ids ih => rw [List.map_cons, listIdentifiers, identifiers, ih, List.singleton_append]

end Mdx.Fragment

namespace Plan

/-! ## Patterns -/

/-- The canonical form of a pattern; a range is always in parentheses. -/
def CutPattern.fragment : CutPattern → Fragment
  | .member id => .identifier id
  | .set ids => .braces (ids.map .identifier)
  | .range low high => .parens [.range (.identifier low) (.identifier high)]

def CutShape.pattern? : CutShape → Option CutPattern
  | .member x => some (.member x.identifier)
  | .set xs => some (.set (xs.map (·.identifier)))
  | .range low high => some (.range low.identifier high.identifier)
  | .namedSet _ => none

/-- How many members a cut of some shape has if it emits the given fragment: one for a member, two for
a range and one for each element of a set. -/
def CutShape.arity (f : Fragment) : CutShape → Nat
  | .member _ => 1
  | .set _ => f.operands.length
  | .range .. => 2
  | .namedSet _ => 0

namespace Cut

theorem fragment?_eq_map_pattern? (c : Cut) :
    c.fragment? = c.shape.pattern?.map CutPattern.fragment := by
  rw [fragment?]
  cases c.shape <;> simp [CutShape.pattern?, CutPattern.fragment, Function.comp_def]

theorem identifiers_map (ids : List Identifier) : identifiers (ids.map .identifier) = .ok ids := by
  induction ids with
  | nil => rfl
  | cons id ids ih => rw [List.map_cons, identifiers, ih]

theorem eq_map_of_identifiers {items : List Fragment} {ids : List Identifier}
    (h : identifiers items = .ok ids) : items = ids.map .identifier := by
  induction items generalizing ids with
  | nil =>
      cases h
      rfl
  | cons f items ih =>
      cases f with
      | identifier id =>
          rw [identifiers] at h
          split at h
          · rename_i hrest
            cases h
            rw [List.map_cons, ← ih hrest]
          · cases h
      | _ => cases h

theorem pattern_canonical (expression : String) {p : CutPattern} (hne : p ≠ .set []) :
    pattern expression p.fragment = .ok p := by
  cases p with
  | member id => rfl
  | range low high => rfl
  | set ids =>
      cases ids with
      | nil => exact absurd rfl hne
      | cons id ids =>
          have hids := identifiers_map (id :: ids)
          rw [List.map_cons] at hids
          rw [CutPattern.fragment, List.map_cons, pattern, hids]
          exact fun h => nomatch h

/-- A fragment has a pattern if it is the canonical form of the pattern, unless that is an empty set,
or a range without parentheses. -/
theorem pattern_eq_ok_iff {expression : String} {g : Fragment} {p : CutPattern} :
    pattern expression g = .ok p ↔
      (g = p.fragment ∧ p ≠ .set []) ∨
        ∃ low high, g = .range low high ∧ p.fragment = .parens [g] := by
  constructor
  · intro h
    unfold pattern at h
    split at h
    · cases h
      exact .inl ⟨rfl, by simp⟩
    · cases h
    · rename_i items hne
      split at h
      · rename_i ids hids
        cases h
        have hitems := eq_map_of_identifiers hids
        refine .inl ⟨by rw [hitems, CutPattern.fragment], ?_⟩
        rintro ⟨⟩
        exact hne hitems
      · cases h
    · cases h
      exact .inr ⟨_, _, rfl, rfl⟩
    · cases h
      exact .inl ⟨rfl, by simp⟩
    · cases h
  · intro h
    obtain ⟨rfl, hne⟩ | ⟨low, high, rfl, hp⟩ := h
    · exact pattern_canonical expression hne
    · cases p with
      | member id => cases hp
      | set ids => cases hp
      | range low high =>
          cases hp
          rfl

/-- The canonical form of what was read has the same pattern, whatever text it is said to come from. -/
theorem pattern_fragment {expression expression' : String} {g : Fragment} {p : CutPattern}
    (h : pattern expression g = .ok p) : pattern expression' p.fragment = .ok p := by
  apply pattern_canonical
  obtain ⟨-, hne⟩ | ⟨low, high, -, hp⟩ := pattern_eq_ok_iff.1 h
  · exact hne
  · rintro rfl
    cases hp

theorem isExpression_fragment {expression : String} {g : Fragment} {p : CutPattern}
    (hg : g.IsExpression) (h : pattern expression g = .ok p) : p.fragment.IsExpression := by
  obtain ⟨rfl, -⟩ | ⟨low, high, -, hp⟩ := pattern_eq_ok_iff.1 h
  · exact hg
  · rw [hp]
    exact .primary (.parens (List.cons_ne_nil _ _) (List.forall_mem_singleton.2 hg))

end Cut

theorem identifiers_of_pattern? {c : Cut} {p : CutPattern} (h : c.shape.pattern? = some p) :
    p.fragment.identifiers = c.located.map (·.identifier) := by
  rw [Cut.located]
  cases hshape : c.shape <;> rw [hshape] at h <;> cases h
  · rfl
  · simp only [CutPattern.fragment, Fragment.identifiers, Fragment.listIdentifiers_map]
  · rfl

theorem length_members_of_pattern? {c : Cut} {p : CutPattern} (h : c.shape.pattern? = some p) :
    c.members.length = c.shape.arity p.fragment := by
  rw [Cut.members, Cut.located]
  cases hshape : c.shape <;> rw [hshape] at h <;> cases h
  · rfl
  · simp [CutShape.arity, CutPattern.fragment, Fragment.operands]
  · rfl

/-! ## Looking up -/

/-- The members of a cut are the engine's answers for its identifiers and lie on one level. -/
structure Cut.Validated (lookup : String → String → Except EngineError (Option Member))
    (cube : String) (c : Cut) : Prop where
  answers : ∀ x ∈ c.located, lookup cube x.identifier.text = .ok (some x.member)
  onOneLevel : Cut.onOneLevel c.located = true

section Lookups

variable {σ : Type} {engine : Engine σ}
  {lookup : String → String → Except EngineError (Option Member)} {s : σ}

theorem locate_outcome_eq_ok (hlookup : engine.LooksUp lookup) {cube context shown : String}
    {id : Identifier} {x : Located} :
    ((Cut.locate engine cube context shown id).run s).1 = .ok x ↔
      x.identifier = id ∧ lookup cube x.identifier.text = .ok (some x.member) := by
  rw [Cut.locate, Action.bind_outcome_eq_ok, toQuery_run, hlookup]
  obtain ⟨written, m⟩ := x
  constructor
  · intro h
    obtain ⟨found, hfound, hx⟩ := h
    cases hlook : lookup cube id.text with
    | error e =>
        rw [hlook] at hfound
        cases hfound
    | ok answer =>
        rw [hlook] at hfound
        cases hfound
        cases found with
        | none => cases hx
        | some m' =>
            cases hx
            exact ⟨rfl, hlook⟩
  · rintro ⟨rfl, hanswer⟩
    exact ⟨some m, by rw [hanswer]; rfl, rfl⟩

theorem locateAll_outcome_eq_ok (hlookup : engine.LooksUp lookup) {cube context : String}
    {ids : List Identifier} {xs : List Located} :
    ((Cut.locateAll engine cube context ids).run s).1 = .ok xs ↔
      xs.map (·.identifier) = ids ∧
        ∀ x ∈ xs, lookup cube x.identifier.text = .ok (some x.member) := by
  induction ids generalizing s xs with
  | nil =>
      constructor
      · intro h
        cases h
        exact ⟨rfl, by simp⟩
      · rintro ⟨hxs, -⟩
        rw [List.map_eq_nil_iff.1 hxs]
        rfl
  | cons id ids ih =>
      rw [Cut.locateAll, List.map_cons, Action.all_cons_run, Action.combine_eq_ok]
      constructor
      · intro h
        obtain ⟨x, rest, hx, hrest, rfl⟩ := h
        obtain ⟨rfl, hanswer⟩ := (locate_outcome_eq_ok hlookup).1 hx
        obtain ⟨rfl, hanswers⟩ := ih.1 hrest
        exact ⟨rfl, List.forall_mem_cons.2 ⟨hanswer, hanswers⟩⟩
      · intro h
        obtain ⟨hxs, hanswers⟩ := h
        obtain ⟨x, rest, rfl, hx, hrest⟩ := List.map_eq_cons_iff.1 hxs
        obtain ⟨hanswer, hmore⟩ := List.forall_mem_cons.1 hanswers
        exact ⟨x, rest, (locate_outcome_eq_ok hlookup).2 ⟨hx, hanswer⟩, ih.2 ⟨hrest, hmore⟩, rfl⟩

theorem locatePattern_validated_iff (hlookup : engine.LooksUp lookup) {cube expression : String}
    {p : CutPattern} {c : Cut} :
    ((Cut.locatePattern engine cube expression p).run s).1 = .ok c.shape ↔
      c.shape.pattern? = some p ∧ c.Validated lookup cube := by
  rw [Cut.locatePattern_outcome_eq_ok]
  obtain ⟨written, shape⟩ := c
  constructor
  · rintro ⟨hone, hkind⟩
    cases p with
    | member id =>
        obtain ⟨x, rfl, hx⟩ := hkind
        obtain ⟨rfl, hanswer⟩ := (locate_outcome_eq_ok hlookup).1 hx
        exact ⟨rfl, List.forall_mem_singleton.2 hanswer, hone⟩
    | set ids =>
        obtain ⟨xs, rfl, hxs⟩ := hkind
        obtain ⟨rfl, hanswers⟩ := (locateAll_outcome_eq_ok hlookup).1 hxs
        exact ⟨rfl, hanswers, hone⟩
    | range low high =>
        obtain ⟨x, y, rfl, hxs⟩ := hkind
        obtain ⟨hids, hanswers⟩ := (locateAll_outcome_eq_ok hlookup).1 hxs
        cases hids
        exact ⟨rfl, hanswers, hone⟩
  · rintro ⟨hp, hvalid⟩
    refine ⟨hvalid.onOneLevel, ?_⟩
    cases shape with
    | namedSet anchor => cases hp
    | member x =>
        cases hp
        have hanswer : lookup cube x.identifier.text = .ok (some x.member) :=
          hvalid.answers x (List.mem_singleton_self x)
        exact ⟨x, rfl, (locate_outcome_eq_ok hlookup).2 ⟨rfl, hanswer⟩⟩
    | set xs =>
        cases hp
        exact ⟨xs, rfl, (locateAll_outcome_eq_ok hlookup).2 ⟨rfl, hvalid.answers⟩⟩
    | range low high =>
        cases hp
        exact ⟨low, high, rfl, (locateAll_outcome_eq_ok hlookup).2 ⟨rfl, hvalid.answers⟩⟩

theorem read_eq_pattern_iff {cube : Cube} {expression : String} {p : CutPattern} :
    Cut.read cube expression = .pattern p ↔ cube.namedSet? expression = none ∧
      ∃ g, Fragment.parse expression = .ok g ∧ Cut.pattern expression g = .ok p := by
  rw [Cut.read]
  cases cube.namedSet? expression with
  | some set => simp
  | none =>
      cases Fragment.parse expression with
      | error e => simp
      | ok g =>
          dsimp only
          cases hp : Cut.pattern expression g <;> simp [hp]

/-- A cut that is no named set is resolved exactly if the fragment it is read as has its pattern and the
engine answers with its members. -/
theorem resolve_validated_iff (hlookup : engine.LooksUp lookup) {cube : Cube} {expression : String}
    {c : Cut} (hset : c.isNamedSet = false) :
    ((Cut.resolve engine cube expression).run s).1 = .ok c ↔
      c.expression = Text.trimmed expression ∧
        ∃ p, Cut.read cube (Text.trimmed expression) = .pattern p ∧ c.shape.pattern? = some p ∧
          c.Validated lookup cube.name := by
  rw [Cut.resolve_outcome_eq_ok]
  refine and_congr_right fun _ => ?_
  cases Cut.read cube (Text.trimmed expression) with
  | namedSet anchor =>
      have hshape : c.shape ≠ .namedSet anchor := by
        intro hshape
        simp [Cut.isNamedSet, hshape] at hset
      simp [hshape]
  | pattern p => simp [locatePattern_validated_iff hlookup]
  | faulty f => simp

end Lookups

/-! ## Validated members -/

theorem Cut.Validated.exists_level {lookup : String → String → Except EngineError (Option Member)}
    {cube : String} {c : Cut} (h : c.Validated lookup cube) (hset : c.isNamedSet = false) :
    ∃ level, c.level? = some level ∧ ∀ m ∈ c.members, m.level = level := by
  have hlevel : c.level? = c.members.head?.map (·.level) := by
    rw [level?]
    split
    · rename_i hshape
      simp [isNamedSet, hshape] at hset
    · rfl
  have hone := h.onOneLevel
  rw [members] at hlevel ⊢
  cases hlocated : c.located with
  | nil => exact absurd hlocated (ne_nil_of_onOneLevel hone)
  | cons x rest =>
      rw [hlocated, Cut.onOneLevel, List.all_eq_true] at hone
      rw [hlocated] at hlevel
      refine ⟨x.member.level, hlevel, ?_⟩
      rw [List.forall_mem_map, List.forall_mem_cons]
      exact ⟨rfl, fun y hy => by simpa using hone y hy⟩

theorem Cut.toSet_text {c : Cut} {f : Fragment} (h : c.fragment? = some f) : c.toSet.text = f.text := by
  rw [toSet, h]
  simp [SetExpr.text, SetExpr.tokens, serialize, Token.text]

/-- The canonical form of a validated cut is resolved to the cut again. -/
theorem Cut.Validated.resolve_text {σ : Type} {engine : Engine σ}
    {lookup : String → String → Except EngineError (Option Member)} {cube : Cube} {expression : String}
    {c : Cut} {p : CutPattern} {g : Fragment} {s : σ} (hvalid : c.Validated lookup cube.name)
    (hlookup : engine.LooksUp lookup) (hset : c.isNamedSet = false) (hp : c.shape.pattern? = some p)
    (hparse : Fragment.parse expression = .ok g) (hpattern : Cut.pattern expression g = .ok p)
    (hname : cube.namedSet? p.fragment.text = none) :
    ((Cut.resolve engine cube p.fragment.text).run s).1 = .ok ⟨p.fragment.text, c.shape⟩ := by
  have hwell : p.fragment.IsExpression :=
    Cut.isExpression_fragment (isExpression_of_parse hparse) hpattern
  have htrimmed : Text.trimmed p.fragment.text = p.fragment.text := Fragment.trimmed_text hwell
  have hread : Cut.read cube p.fragment.text = .pattern p :=
    read_eq_pattern_iff.2 ⟨hname, _, Fragment.parse_text hwell, Cut.pattern_fragment hpattern⟩
  have hkind : Cut.isNamedSet ⟨p.fragment.text, c.shape⟩ = false := hset
  have hsame : Cut.Validated lookup cube.name ⟨p.fragment.text, c.shape⟩ :=
    ⟨hvalid.answers, hvalid.onOneLevel⟩
  refine (resolve_validated_iff hlookup hkind).2 ⟨htrimmed.symm, p, ?_, hp, hsame⟩
  rw [htrimmed, hread]

/-- A cut that is no named set emits what it was read as, a range always in parentheses. The identifiers
in it are the ones whose members the engine has given, one for a member, two for a range and one for
each element of a set, all on the level of the cut. Resolved again, its text gives the same cut, unless
it is the name of a set. -/
theorem resolve_emits_validated {σ : Type} (engine : Engine σ)
    (lookup : String → String → Except EngineError (Option Member)) (cube : Cube)
    (expression : String) (c : Cut) (s t : σ) (hlookup : engine.LooksUp lookup)
    (hrun : (Cut.resolve engine cube expression).run s = (.ok c, t)) (hset : c.isNamedSet = false) :
    ∃ f level, c.fragment? = some f ∧ c.level? = some level ∧
      (∃ g, Fragment.parse (Text.trimmed expression) = .ok g ∧
        (f = g ∨ ∃ low high, g = .range low high ∧ f = .parens [g])) ∧
      List.Forall₂ (fun id m => lookup cube.name id.text = .ok (some m)) f.identifiers c.members ∧
      c.members ≠ [] ∧ c.members.length = c.shape.arity f ∧ (∀ m ∈ c.members, m.level = level) ∧
      (cube.namedSet? c.toSet.text = none → ∀ s', ∃ c' t',
        (Cut.resolve engine cube c.toSet.text).run s' = (.ok c', t') ∧ c'.shape = c.shape ∧
          c'.level? = c.level? ∧ c'.fragment? = c.fragment? ∧ c'.members = c.members) := by
  obtain ⟨-, p, hread, hp, hvalid⟩ :=
    (resolve_validated_iff hlookup hset).1 (congrArg Prod.fst hrun)
  obtain ⟨-, g, hparse, hpattern⟩ := read_eq_pattern_iff.1 hread
  obtain ⟨level, hlevel, hlevels⟩ := hvalid.exists_level hset
  have hf : c.fragment? = some p.fragment := by rw [c.fragment?_eq_map_pattern?, hp, Option.map_some]
  have hform : p.fragment = g ∨ ∃ low high, g = .range low high ∧ p.fragment = .parens [g] :=
    (Cut.pattern_eq_ok_iff.1 hpattern).imp_left fun h => h.1.symm
  have hanswers : List.Forall₂ (fun id m => lookup cube.name id.text = .ok (some m))
      p.fragment.identifiers c.members := by
    rw [identifiers_of_pattern? hp, Cut.members, List.forall₂_map_left_iff, List.forall₂_map_right_iff,
      List.forall₂_same]
    exact hvalid.answers
  have hne : c.members ≠ [] := by
    rw [Cut.members, Ne, List.map_eq_nil_iff]
    exact ne_nil_of_onOneLevel hvalid.onOneLevel
  refine ⟨p.fragment, level, hf, hlevel, ⟨g, hparse, hform⟩, hanswers, hne,
    length_members_of_pattern? hp, hlevels, fun hname s' => ?_⟩
  rw [Cut.toSet_text hf] at hname ⊢
  have hagain := hvalid.resolve_text (s := s') hlookup hset hp hparse hpattern hname
  exact ⟨_, _, Prod.ext hagain rfl, rfl, rfl, rfl, rfl⟩

/-- Two years with a colon between them are emitted in parentheses, and resolved again from there. -/
theorem resolve_emits_validated_range :
    let year (name : String) : Member :=
      { Member.ofMeasure name name name with level := ⟨"Time", "Time", "Year"⟩ }
    let engine : Engine Unit := {
      cubeNames := pure []
      cube := fun _ => pure none
      member := fun _ name => pure (if name = "" then none else some (year name))
      ancestors := fun _ _ => pure []
      children := fun _ _ => pure []
      levelMembers := fun _ _ => pure []
      execute := fun _ _ => throw (.unsupported "execute")
      flush := pure () }
    let cube : Cube := ⟨"Sales", .empty, [], [], []⟩
    ∃ c : Cut, (Cut.resolve engine cube " [1997] :1998 ").run () = (.ok c, ()) ∧
      c.members.map (·.name) = ["[1997]", "1998"] ∧ c.toSet.text = "([1997] : 1998)" ∧
      ∃ c', (Cut.resolve engine cube "([1997] : 1998)").run () = (.ok c', ()) ∧ c'.shape = c.shape := by
  intro year engine cube
  have hcompute : (((Cut.resolve engine cube " [1997] :1998 ").run ()).1.toOption.any fun c =>
      decide (c.isNamedSet = false ∧ c.members.map (·.name) = ["[1997]", "1998"] ∧
        c.toSet.text = "([1997] : 1998)")) = true := by
    decide +kernel
  simp only [Option.any_eq_true, toOption_eq_some_iff, decide_eq_true_eq] at hcompute
  obtain ⟨c, hc, hset, hmembers, htext⟩ := hcompute
  have hrun : (Cut.resolve engine cube " [1997] :1998 ").run () = (.ok c, ()) :=
    Prod.ext hc (Subsingleton.elim _ _)
  obtain ⟨f, level, -, -, -, -, -, -, -, hagain⟩ :=
    resolve_emits_validated engine (fun _ name => .ok (if name = "" then none else some (year name)))
      cube " [1997] :1998 " c () () (fun _ _ _ => rfl) hrun hset
  rw [htext] at hagain
  obtain ⟨c', ⟨⟩, hrun', hshape, -⟩ := hagain (by decide +kernel) ()
  exact ⟨c, hrun, hmembers, htext, c', hrun', hshape⟩

end Plan

end CubeQuery
