import CubeQuery.Proofs.Catalog.Chains
import CubeQuery.Proofs.Mdx.Derivations
import CubeQuery.Proofs.Plan.Leftover

/-!
# Levels by name

A drilldown lands on a level that the cube has under the names the drilldown goes on with, and every
level has an expression that lands on it: its names in brackets, whatever they are
(`drilldowns_name_levels`).
-/

namespace CubeQuery.Plan

open Catalog Mdx Text

/-! ## Paths of names in brackets -/

section Paths

variable {text : String} {first : String} {names : List String}

theorem separated_path (first : String) (names : List String) :
    Separated SegmentAt '.' (bracketed first.toList ++ pathChars names)
      ((first :: names).map (Segment.mk .quoted)) [] := by
  induction names generalizing first with
  | nil => exact .last (.quoted ⟨[], List.forall_mem_nil _, by simp [bracketed, pathChars]⟩)
  | cons name names ih => exact (ih name).bracketed first

theorem parse_path (h : text.toList = bracketed first.toList ++ pathChars names) :
    Identifier.parse text = .ok ⟨(first :: names).map (Segment.mk .quoted)⟩ := by
  apply Identifier.parse_of_separated
  rw [h]
  exact separated_path first names

theorem trimmed_path (h : text.toList = bracketed first.toList ++ pathChars names) :
    trimmed text = text := by
  have hbracketed : IsBracketed text.toList := by
    rw [h]
    exact (isBracketed_bracketed _).append_pathChars names
  rw [trimmed, hbracketed.trim_eq, String.ofList_toList]

end Paths

/-- The names of a dimension, a hierarchy and a level in brackets. -/
def levelExpression (dimension hierarchy level : String) : String :=
  quoteName dimension ++ "." ++ quoteName hierarchy ++ "." ++ quoteName level

section LevelExpression

variable (dimension hierarchy level : String)

theorem toList_levelExpression :
    (levelExpression dimension hierarchy level).toList =
      bracketed dimension.toList ++ pathChars [hierarchy, level] := by
  simp [levelExpression, pathChars]

theorem path_levelExpression :
    Drilldown.path (levelExpression dimension hierarchy level) =
      .ok ⟨dimension, some hierarchy, some level⟩ := by
  rw [Drilldown.path, parse_path (toList_levelExpression dimension hierarchy level)]
  rfl

end LevelExpression

/-! ## Levels of a cube -/

section Cubes

variable {cube : Cube} {d : Dimension} {h : Hierarchy} {l : Level}

theorem resolveLevel_levelExpression (hd : cube.dimension? d.name = some d)
    (hh : d.hierarchy? h.name = some h) (hl : h.level? l.name = some l) :
    Drilldown.resolveLevel cube (levelExpression d.name h.name l.name) = .ok ⟨d, h, l⟩ := by
  have hhierarchy : d.hierarchyOrDefault? (some h.name) = some h := hh
  simp only [Drilldown.resolveLevel, path_levelExpression, bind, Except.bind, hd,
    Drilldown.pathHierarchy, hhierarchy, Drilldown.pathLevel, hl]
  rfl

/-- The expression lands on the level unless it is the name of a set. -/
theorem resolve_levelExpression_iff (hd : cube.dimension? d.name = some d)
    (hh : d.hierarchy? h.name = some h) (hl : h.level? l.name = some l) :
    Drilldown.resolve cube (levelExpression d.name h.name l.name) =
        .ok ⟨levelExpression d.name h.name l.name,
          .level ⟨d.name, h.name, l.name⟩ l.uniqueName l.depth⟩ ↔
      ∀ set ∈ cube.namedSets, set.name ≠ levelExpression d.name h.name l.name := by
  have hunnamed : (∀ set ∈ cube.namedSets, set.name ≠ levelExpression d.name h.name l.name) ↔
      cube.namedSet? (levelExpression d.name h.name l.name) = none := by
    simp [Cube.namedSet?, List.find?_eq_none]
  rw [hunnamed, Drilldown.resolve, trimmed_path (toList_levelExpression _ _ _)]
  cases hset : cube.namedSet? (levelExpression d.name h.name l.name) with
  | some set => simp
  | none =>
      rw [resolveLevel_levelExpression hd hh hl]
      exact iff_of_true rfl rfl

/-- The depth of a level of a completed cube is its place. -/
theorem levelAt?_depth (hd : d ∈ cube.completed.dimensions) (hh : h ∈ d.hierarchies)
    (hl : l ∈ h.levels) : h.levelAt? l.depth = some l := by
  obtain ⟨place, hplace⟩ := List.mem_iff_getElem?.1 hl
  rw [Cube.depth_of_levelAt? hd hh hplace]
  exact hplace

end Cubes

/-- Let the levels of each hierarchy of a completed cube differ in name. Where a drilldown lands on a
level, the cube has the level under those names, outside the measures and at its depth, with the unique
name that the drilldown goes on with. If dimensions, and hierarchies of one dimension, differ in name as
well, the names of a level in brackets land on that very level, unless a set has this text for its
name. -/
theorem drilldowns_name_levels (source cube : Cube) (hcube : cube = source.completed)
    (hlevels : ∀ d ∈ cube.dimensions, ∀ h ∈ d.hierarchies, (h.levels.map (·.name)).Nodup) :
    (∀ (expression : String) (drilldown : Drilldown) (ref : LevelRef) (uniqueName : String) (depth : Nat),
      Drilldown.resolve cube expression = .ok drilldown →
      drilldown.target = .level ref uniqueName depth →
      ∃ r, cube.level? ref = some r ∧ r.level.uniqueName = uniqueName ∧ r.level.depth = depth ∧
        r.dimension ∈ cube.dimensions ∧ r.dimension.kind ≠ .measures ∧
        r.hierarchy ∈ r.dimension.hierarchies ∧ r.hierarchy.levelAt? depth = some r.level) ∧
    ((cube.dimensions.map (·.name)).Nodup →
      (∀ d ∈ cube.dimensions, (d.hierarchies.map (·.name)).Nodup) →
      ∀ d ∈ cube.dimensions, d.kind ≠ .measures → ∀ h ∈ d.hierarchies, ∀ l ∈ h.levels,
        cube.level? ⟨d.name, h.name, l.name⟩ = some ⟨d, h, l⟩ ∧
        (Drilldown.resolve cube (levelExpression d.name h.name l.name) =
            .ok ⟨levelExpression d.name h.name l.name,
              .level ⟨d.name, h.name, l.name⟩ l.uniqueName l.depth⟩ ↔
          ∀ set ∈ cube.namedSets, set.name ≠ levelExpression d.name h.name l.name)) := by
  constructor
  · intro expression drilldown ref uniqueName depth hresolve htarget
    obtain ⟨r, rfl, hunique, hdepth, hdimension, hhierarchy, hlevel⟩ :=
      exists_level_of_resolve hresolve htarget
    have hdmem := (Cube.dimension?_spec hdimension).1
    have hhmem := (Dimension.hierarchy?_spec hhierarchy).1
    have hnamed := Hierarchy.level?_of_nodup (hlevels r.dimension hdmem r.hierarchy hhmem) hlevel
    have hplace : r.hierarchy.levelAt? r.level.depth = some r.level := by
      rw [hcube] at hdmem
      exact levelAt?_depth hdmem hhmem hlevel
    rw [hdepth] at hplace
    exact ⟨r, Cube.level?_eq_some.2 ⟨hdimension, hhierarchy, hnamed⟩, hunique, hdepth, hdmem,
      Cube.kind_of_dimension? hdimension, hhmem, hplace⟩
  · intro hdimensions hhierarchies d hd hkind h hh l hl
    have hdimension := Cube.dimension?_of_nodup hdimensions hd hkind
    have hhierarchy := Dimension.hierarchy?_of_nodup (hhierarchies d hd) hh
    have hlevel := Hierarchy.level?_of_nodup (hlevels d hd h hh) hl
    exact ⟨Cube.level?_eq_some.2 ⟨hdimension, hhierarchy, hlevel⟩,
      resolve_levelExpression_iff hdimension hhierarchy hlevel⟩

/-- A dimension with brackets in its name, a hierarchy without any name and a level the name of which
looks like a path. -/
theorem drilldowns_name_levels_brackets :
    let levels : List Level := ["(All)", "A].[B"].map fun name => ⟨name, "", "", 0, []⟩
    let store : Dimension := ⟨"[St]ore", "", .standard, .empty, [⟨"", "", true, none, levels⟩]⟩
    let source : Cube := ⟨"Sales", .empty, [store], [], [⟨"[[St]]ore]", none⟩]⟩
    let expression := "[[St]]ore].[].[A]].[B]"
    let drilldown : Drilldown :=
      ⟨expression, .level ⟨"[St]ore", "", "A].[B"⟩ "[[St]]ore].[].[A]].[B]" 1⟩
    (∀ d ∈ source.completed.dimensions, ∀ h ∈ d.hierarchies, (h.levels.map (·.name)).Nodup) ∧
      Drilldown.resolve source.completed expression = .ok drilldown ∧
      ∃ r, source.completed.level? ⟨"[St]ore", "", "A].[B"⟩ = some r ∧ r.level.depth = 1 ∧
        r.dimension.kind ≠ .measures ∧ r.hierarchy.levelAt? 1 = some r.level := by
  intro levels store source expression drilldown
  let h : Hierarchy := Hierarchy.completed "[St]ore" ⟨"", "", true, none, levels⟩
  let l : Level := ⟨"A].[B", "[[St]]ore].[].[A]].[B]", "A].[B", 1, []⟩
  have hl : l ∈ h.levels := by decide
  have hlevels : ∀ d ∈ source.completed.dimensions, ∀ h ∈ d.hierarchies,
      (h.levels.map (·.name)).Nodup :=
    List.forall_mem_singleton.2 (List.forall_mem_singleton.2 (by decide))
  obtain ⟨hlands, hnames⟩ := drilldowns_name_levels source source.completed rfl hlevels
  obtain ⟨-, hresolve⟩ := hnames (List.nodup_singleton _)
    (List.forall_mem_singleton.2 (List.nodup_singleton _)) store.completed (List.mem_singleton.2 rfl)
    (by decide) h (List.mem_singleton.2 rfl) l hl
  have hexpression : levelExpression store.completed.name h.name l.name = expression := by decide
  rw [hexpression] at hresolve
  have hdrilldown : Drilldown.resolve source.completed expression = .ok drilldown :=
    hresolve.2 (List.forall_mem_singleton.2 (by decide))
  obtain ⟨r, hr, -, hdepth, -, hkind, -, hplace⟩ :=
    hlands expression drilldown _ _ _ hdrilldown rfl
  exact ⟨hlevels, hdrilldown, r, hr, hdepth, hkind, hplace⟩

end CubeQuery.Plan
