import CubeQuery.Proofs.Catalog.Chains
import CubeQuery.Proofs.Cube.Levels

/-!
# Unique names of levels

Completing a cube gives each level a path of names in brackets, in which a hierarchy of the name of its
dimension has no part. A text is one such path at most, so the paths of two levels differ
(`Cube.completed_names_levels_apart`).
-/

namespace CubeQuery

open Catalog Mdx

/-- The names that follow the one of the dimension on the way to a level. -/
def levelPath (dimension hierarchy level : String) : List String :=
  (if hierarchy = dimension then [] else [hierarchy]) ++ [level]

/-- Paths of two and of three names never meet. -/
theorem levelPath_inj {dimension hierarchy level hierarchy' level' : String}
    (h : levelPath dimension hierarchy level = levelPath dimension hierarchy' level') :
    hierarchy = hierarchy' ∧ level = level' := by
  unfold levelPath at h
  obtain ⟨hbefore, hlevel⟩ := List.append_inj' h rfl
  rw [List.singleton_inj] at hlevel
  refine ⟨?_, hlevel⟩
  by_cases hsame : hierarchy = dimension
  · by_cases hsame' : hierarchy' = dimension
    · rw [hsame, hsame']
    · simp [hsame, hsame'] at hbefore
  · by_cases hsame' : hierarchy' = dimension
    · simp [hsame, hsame'] at hbefore
    · simpa [hsame, hsame'] using hbefore

/-- Dimensions of the cube, hierarchies of one dimension and levels of one hierarchy differ in name. -/
structure Cube.NamesApart (cube : Cube) : Prop where
  dimensions : (cube.dimensions.map (·.name)).Nodup
  hierarchies : ∀ d ∈ cube.dimensions, (d.hierarchies.map (·.name)).Nodup
  levels : ∀ d ∈ cube.dimensions, ∀ h ∈ d.hierarchies, (h.levels.map (·.name)).Nodup

/-- Neither hierarchies nor levels come with a unique name. -/
def Cube.LeavesOutUniqueNames (cube : Cube) : Prop :=
  ∀ d ∈ cube.dimensions, ∀ h ∈ d.hierarchies, h.uniqueName = "" ∧ ∀ l ∈ h.levels, l.uniqueName = ""

theorem exists_of_mem_completeLevels {hierarchyName : String} {depth : Nat} {levels : List Level}
    {l : Level} (hl : l ∈ completeLevels hierarchyName depth levels) :
    ∃ l₀ ∈ levels, ∃ place, l = l₀.completed hierarchyName place := by
  induction levels generalizing depth with
  | nil => cases hl
  | cons first rest ih =>
      rcases List.mem_cons.1 hl with rfl | hl
      · exact ⟨first, List.mem_cons_self, depth, rfl⟩
      · obtain ⟨l₀, hl₀, place, hplace⟩ := ih hl
        exact ⟨l₀, List.mem_cons_of_mem first hl₀, place, hplace⟩

theorem toList_uniqueName_completed {dimension : String} {h : Hierarchy} {l : Level}
    (hhierarchy : h.uniqueName = "") (hlevels : ∀ l ∈ h.levels, l.uniqueName = "")
    (hl : l ∈ (h.completed dimension).levels) :
    l.uniqueName.toList = bracketed dimension.toList ++ pathChars (levelPath dimension h.name l.name) := by
  obtain ⟨l₀, hl₀, place, rfl⟩ := exists_of_mem_completeLevels hl
  simp [Level.completed, orElseText, hlevels l₀ hl₀, hhierarchy, toList_generatedHierarchyName, levelPath,
    pathChars]

/-- Completion keeps the names of levels, so they still tell levels apart. -/
theorem Level.eq_of_name_eq {dimension : String} {h : Hierarchy} (hnames : (h.levels.map (·.name)).Nodup)
    {l l' : Level} (hl : l ∈ (h.completed dimension).levels) (hl' : l' ∈ (h.completed dimension).levels)
    (hname : l.name = l'.name) : l = l' := by
  have hcompleted : ((h.completed dimension).levels.map (·.name)).Nodup := by
    rwa [Hierarchy.completed, map_name_completeLevels]
  exact List.inj_on_of_nodup_map hcompleted hl hl' hname

/-- Completing a completed cube changes nothing. Let dimensions, hierarchies of one dimension and levels
of one hierarchy differ in name, and let all unique names be left out. Then two levels of the completed
cube that differ in their dimension, their hierarchy or themselves have different unique names. -/
theorem Cube.completed_names_levels_apart :
    (∀ cube : Cube, cube.completed.completed = cube.completed) ∧
      ∀ cube : Cube, cube.NamesApart → cube.LeavesOutUniqueNames →
        ∀ d ∈ cube.completed.dimensions, ∀ h ∈ d.hierarchies, ∀ l ∈ h.levels,
        ∀ d' ∈ cube.completed.dimensions, ∀ h' ∈ d'.hierarchies, ∀ l' ∈ h'.levels,
          (d, h, l) ≠ (d', h', l') → l.uniqueName ≠ l'.uniqueName := by
  refine ⟨Cube.completed_completed, fun cube hapart hunnamed => ?_⟩
  intro d hd h hh l hl d' hd' h' hh' l' hl' hne hsame
  obtain ⟨d₁, hd₁, rfl⟩ := List.mem_map.1 hd
  obtain ⟨h₁, hh₁, rfl⟩ := List.mem_map.1 hh
  obtain ⟨d₂, hd₂, rfl⟩ := List.mem_map.1 hd'
  obtain ⟨h₂, hh₂, rfl⟩ := List.mem_map.1 hh'
  obtain ⟨hhierarchy₁, hlevels₁⟩ := hunnamed d₁ hd₁ h₁ hh₁
  obtain ⟨hhierarchy₂, hlevels₂⟩ := hunnamed d₂ hd₂ h₂ hh₂
  have hpaths : pathChars (d₁.name :: levelPath d₁.name h₁.name l.name) =
      pathChars (d₂.name :: levelPath d₂.name h₂.name l'.name) := by
    rw [pathChars_cons, pathChars_cons, ← toList_uniqueName_completed hhierarchy₁ hlevels₁ hl,
      ← toList_uniqueName_completed hhierarchy₂ hlevels₂ hl', hsame]
  obtain ⟨hdimension, hrest⟩ := List.cons.inj (pathChars_inj hpaths)
  obtain rfl : d₁ = d₂ := List.inj_on_of_nodup_map hapart.dimensions hd₁ hd₂ hdimension
  obtain ⟨hhierarchy, hlevel⟩ := levelPath_inj hrest
  obtain rfl : h₁ = h₂ := List.inj_on_of_nodup_map (hapart.hierarchies d₁ hd₁) hh₁ hh₂ hhierarchy
  obtain rfl : l = l' := Level.eq_of_name_eq (hapart.levels d₁ hd₁ h₁ hh₁) hl hl' hlevel
  exact hne rfl

/-- A level whose name looks like the rest of the path to another one, below the hierarchy of the name of
the dimension. -/
theorem Cube.completed_names_levels_apart_brackets :
    let unnamed (name : String) : Level := ⟨name, "", "", 0, []⟩
    let plain : Hierarchy := ⟨"A", "", false, none, [unnamed "B].[C"]⟩
    let other : Hierarchy := ⟨"B", "", false, none, [unnamed "C"]⟩
    let cube : Cube := ⟨"Sales", .empty, [⟨"A", "", .standard, .empty, [plain, other]⟩], [], []⟩
    cube.NamesApart ∧ cube.LeavesOutUniqueNames ∧
      cube.completed.dimensions.map (fun d => d.hierarchies.map fun h => h.levels.map (·.uniqueName)) =
        [[["[A].[B]].[C]"], ["[A].[B].[C]"]]] ∧
      "[A].[B]].[C]" ≠ "[A].[B].[C]" := by
  intro unnamed plain other cube
  have hapart : cube.NamesApart := by
    constructor
    · decide
    · exact List.forall_mem_singleton.2 (by decide)
    · exact List.forall_mem_singleton.2 (by decide)
  have hunnamed : cube.LeavesOutUniqueNames := List.forall_mem_singleton.2 (by decide)
  obtain ⟨-, hnames⟩ := Cube.completed_names_levels_apart
  refine ⟨hapart, hunnamed, by decide, ?_⟩
  exact hnames cube hapart hunnamed _ (List.mem_singleton.2 rfl) (plain.completed "A") (by decide)
    ⟨"B].[C", "[A].[B]].[C]", "B].[C", 0, []⟩ (by decide) _ (List.mem_singleton.2 rfl)
    (other.completed "A") (by decide) ⟨"C", "[A].[B].[C]", "C", 0, []⟩ (by decide) (by simp)

end CubeQuery
