import CubeQuery.Aggregate
import CubeQuery.Proofs.Catalog.Paths
import CubeQuery.Proofs.Text.Trim

/-!
# Chains of parents in a catalog

A unique name below a generated hierarchy name stands between brackets, so that an expression of that
name means the member itself. In a regular table the chain that is fetched for the parent of a member
is then the path of the tree (`chain_eq_above`).
-/

namespace CubeQuery.Catalog

open Mdx Text

/-! ## Names between brackets -/

def IsBracketed (cs : List Char) : Prop := cs.head? = some '[' ∧ cs.getLast? = some ']'

theorem isBracketed_bracketed (name : List Char) : IsBracketed (bracketed name) := by
  constructor
  · rfl
  · rw [bracketed, ← List.cons_append, List.getLast?_concat]

theorem IsBracketed.append {before after : List Char} (hbefore : IsBracketed before)
    (hlast : after.getLast? = some ']') : IsBracketed (before ++ after) := by
  constructor
  · rw [List.head?_append, hbefore.1, Option.some_or]
  · rw [List.getLast?_append, hlast, Option.some_or]

theorem IsBracketed.append_pathChars {before : List Char} (hbefore : IsBracketed before)
    (names : List String) : IsBracketed (before ++ pathChars names) := by
  obtain rfl | ⟨names, name, rfl⟩ := List.eq_nil_or_concat names
  · rw [pathChars, List.flatMap_nil, List.append_nil]
    exact hbefore
  · have hlast := (isBracketed_bracketed name.toList).2
    refine hbefore.append ?_
    rw [List.concat_eq_append, pathChars_append, pathChars_cons, List.getLast?_append,
      List.getLast?_cons, List.getLast?_append, hlast]
    rfl

theorem IsBracketed.trim_eq {cs : List Char} (h : IsBracketed cs) : trim cs = cs := by
  rw [trim_eq_self_iff, h.1, h.2]
  constructor
  · rintro c ⟨⟩
    decide
  · rintro c ⟨⟩
    decide

/-- A hierarchy goes without a name of its own where the dimension bears the same. -/
theorem toList_generatedHierarchyName (dimension hierarchy : String) :
    (generatedHierarchyName dimension hierarchy).toList =
      bracketed dimension.toList ++ pathChars (if hierarchy = dimension then [] else [hierarchy]) := by
  unfold generatedHierarchyName
  by_cases hsame : hierarchy = dimension
  · rw [if_pos hsame, if_pos hsame, toList_quoteName, pathChars, List.flatMap_nil, List.append_nil]
  · rw [if_neg hsame, if_neg hsame]
    simp [pathChars]

theorem exists_path_generatedHierarchyName (dimension hierarchy : String) :
    ∃ names, (generatedHierarchyName dimension hierarchy).toList =
      bracketed dimension.toList ++ pathChars names :=
  ⟨_, toList_generatedHierarchyName dimension hierarchy⟩

/-! ## Regular tables -/

/-- A cube whose hierarchies have generated unique names, whose members differ in their unique names and
whose levels differ in name within each hierarchy. -/
structure CubeTable.Regular (t : CubeTable) : Prop where
  hierarchyNames : ∀ d ∈ t.cube.dimensions, ∀ h ∈ d.hierarchies,
    h.uniqueName = generatedHierarchyName d.name h.name
  memberNames : t.forest.NamesApart
  levelNames : ∀ d ∈ t.cube.dimensions, ∀ h ∈ d.hierarchies, (h.levels.map (·.name)).Nodup

instance (t : CubeTable) : Decidable t.Regular :=
  decidable_of_iff
    ((∀ d ∈ t.cube.dimensions, ∀ h ∈ d.hierarchies,
        h.uniqueName = generatedHierarchyName d.name h.name) ∧
      t.forest.NamesApart ∧
      ∀ d ∈ t.cube.dimensions, ∀ h ∈ d.hierarchies, (h.levels.map (·.name)).Nodup)
    ⟨fun ⟨hh, hm, hl⟩ => ⟨hh, hm, hl⟩, fun ⟨hh, hm, hl⟩ => ⟨hh, hm, hl⟩⟩

section Chains

variable {t : CubeTable} {trees : List MemberTree}

/-- Where the names of the hierarchies are generated, every unique name is a path of names in brackets. -/
theorem exists_path_fullName (hf : t.forest.WellFormed t.cube trees)
    (hnames : ∀ d ∈ t.cube.dimensions, ∀ h ∈ d.hierarchies,
      h.uniqueName = generatedHierarchyName d.name h.name) {place : Nat} {e : Entry}
    (he : t.forest.entries[place]? = some e) :
    ∃ (first : String) (names : List String),
      e.member.fullName.toList = bracketed first.toList ++ pathChars names := by
  obtain ⟨hplace, _⟩ := List.getElem?_eq_some_iff.1 he
  obtain ⟨start, tree, _, r, _, stop, htree, hlow, hhigh⟩ :=
    hf.places.exists_tree (Nat.zero_le place) hplace
  cases htree with
  | @intro d h top first hd hh htop hall =>
      obtain ⟨below, htext, _⟩ := htop.exists_path hall he hlow hhigh
      have hmem := (Dimension.hierarchy?_spec (Dimension.hierarchy?_of_hierarchyOrDefault? hh)).1
      have hname := hnames d (Cube.dimension?_spec hd).1 h hmem
      obtain ⟨names, hhierarchy⟩ := exists_path_generatedHierarchyName d.name h.name
      refine ⟨d.name, names ++ below, ?_⟩
      rw [htext, hname, hhierarchy, List.append_assoc, ← pathChars_append]

theorem isBracketed_fullName (hf : t.forest.WellFormed t.cube trees) (ht : t.Regular) {place : Nat}
    {e : Entry} (he : t.forest.entries[place]? = some e) :
    IsBracketed e.member.fullName.toList := by
  obtain ⟨first, names, htext⟩ := exists_path_fullName hf ht.hierarchyNames he
  rw [htext]
  exact (isBracketed_bracketed _).append_pathChars names

theorem member?_fullName (hf : t.forest.WellFormed t.cube trees) (ht : t.Regular) {place : Nat}
    {e : Entry} (he : t.forest.entries[place]? = some e) :
    t.member? e.member.fullName = some e.member := by
  have htrimmed : trimmed e.member.fullName = e.member.fullName := by
    rw [trimmed, (isBracketed_fullName hf ht he).trim_eq, String.ofList_toList]
  have hnamed := ht.memberNames.named? he
  obtain ⟨found, e', hplace, hentry, hmember⟩ := Forest.named?_eq_some_iff.1 hnamed
  rw [CubeTable.member?, htrimmed, CubeTable.resolve?, hplace, Option.some_or, Option.bind_some,
    Forest.member?, hentry, Option.map_some, hmember]

variable {σ : Type} {c : Catalog}

theorem parentChain_run_of_some {cube name : String} {m : Member} {above : List Member}
    (hmember : c.member? cube name = some m) (hancestors : c.ancestors? cube m = some above) (u : σ) :
    (Aggregation.parentChain c.engine cube name).run u = (.ok (m :: above), u) := by
  have hfirst : (c.engine.member cube name).toQuery.run u = (.ok (some m), u) := by
    simp only [Catalog.engine, hmember]
    rfl
  have hrest : (c.engine.ancestors cube m).toQuery.run u = (.ok above, u) := by
    simp only [Catalog.engine, hancestors]
    rfl
  rw [Aggregation.parentChain, Action.bind_run, hfirst]
  dsimp only
  rw [Action.bind_run, hrest]
  rfl

/-- What is fetched for the parent of a member are the members above it in the tree. -/
theorem chain_eq_above (hf : t.forest.WellFormed t.cube trees) (ht : t.Regular) {cube : String}
    (htable : c.table? cube = some t) {place : Nat} {path : List Nat}
    (hpath : t.forest.PathAbove place path) {e : Entry} (he : t.forest.entries[place]? = some e)
    {above : List Entry} (habove : t.forest.EntriesAt path above) {name : String}
    (hname : e.member.parentName = some name) {chain : List Member} {u v : σ}
    (hrun : (Aggregation.parentChain c.engine cube name).run u = (.ok chain, v)) :
    chain = above.map (·.member) := by
  cases hpath with
  | root hnone =>
      rw [(hf.parentName_eq_none_iff he).2 hnone] at hname
      cases hname
  | child hchild hrest =>
      obtain ⟨p, rest, hp, hentries, rfl⟩ := Forest.entriesAt_cons.1 habove
      obtain ⟨p', hp', hchildOf⟩ := hf.childOf hchild he
      rw [hp, Option.some.injEq] at hp'
      rw [hchildOf.parentName, Option.some.injEq, ← hp'] at hname
      have hmember : c.member? cube name = some p.member := by
        rw [Catalog.member?, htable, Option.bind_some, ← hname]
        exact member?_fullName hf ht hp
      have hancestors : c.ancestors? cube p.member = some (rest.map (·.member)) := by
        rw [Catalog.ancestors?, htable]
        exact hrest.ancestors?_eq hf ht.memberNames hp hentries
      rw [parentChain_run_of_some hmember hancestors] at hrun
      cases hrun
      rfl

end Chains

end CubeQuery.Catalog
