import Mathlib.Data.List.Nodup
import CubeQuery.Cube.Naming

/-!
# Levels of a cube

Look-ups find things under their own names. Where the levels of every hierarchy differ in name and in
depth, a reference is determined by its hierarchy and its depth (`Cube.LevelsApart.eq_of_depth_eq`).
-/

namespace CubeQuery

/-! ## Look-ups -/

/-- Where keys differ, the only element with a key is found by any test that implies the key. -/
theorem find?_of_nodup {α β : Type} {as : List α} {key : α → β} (hkeys : (as.map key).Nodup)
    {test : α → Bool} {a : α} (ha : a ∈ as) (htest : test a = true)
    (hkey : ∀ b ∈ as, test b = true → key b = key a) : as.find? test = some a := by
  obtain ⟨found, hfound⟩ := Option.isSome_iff_exists.1 (List.find?_isSome.2 ⟨a, ha, htest⟩)
  have hmem := List.mem_of_find?_eq_some hfound
  have hsame := hkey found hmem (List.find?_some hfound)
  rw [hfound, List.inj_on_of_nodup_map hkeys hmem ha hsame]

theorem Cube.dimension?_spec {cube : Cube} {name : String} {d : Dimension}
    (h : cube.dimension? name = some d) : d ∈ cube.dimensions ∧ d.name = name := by
  have hfound := List.find?_some h
  simp only [Bool.and_eq_true, beq_iff_eq] at hfound
  exact ⟨List.mem_of_find?_eq_some h, hfound.2⟩

theorem Cube.kind_of_dimension? {cube : Cube} {name : String} {d : Dimension}
    (h : cube.dimension? name = some d) : d.kind ≠ .measures := by
  have hfound := List.find?_some h
  simp only [Bool.and_eq_true, bne_iff_ne] at hfound
  exact hfound.1

theorem Dimension.hierarchy?_spec {d : Dimension} {name : String} {h : Hierarchy}
    (hh : d.hierarchy? name = some h) : h ∈ d.hierarchies ∧ h.name = name :=
  ⟨List.mem_of_find?_eq_some hh, by simpa using List.find?_some hh⟩

theorem Hierarchy.level?_spec {h : Hierarchy} {name : String} {l : Level}
    (hl : h.level? name = some l) : l ∈ h.levels ∧ l.name = name :=
  ⟨List.mem_of_find?_eq_some hl, by simpa using List.find?_some hl⟩

/-- The default hierarchy is the first one of its name. -/
theorem Dimension.hierarchy?_of_defaultHierarchy? {d : Dimension} {h : Hierarchy}
    (hh : d.defaultHierarchy? = some h) : d.hierarchy? h.name = some h := by
  obtain ⟨rest, hrest⟩ := List.head?_eq_some_iff.1 hh
  simp [Dimension.hierarchy?, hrest]

/-- So is a named one. -/
theorem Dimension.hierarchy?_of_hierarchyOrDefault? {d : Dimension} {name : Option String}
    {h : Hierarchy} (hh : d.hierarchyOrDefault? name = some h) : d.hierarchy? h.name = some h := by
  cases name with
  | some name =>
      have hname := (Dimension.hierarchy?_spec hh).2
      rwa [hname]
  | none => exact Dimension.hierarchy?_of_defaultHierarchy? hh

theorem Cube.level?_eq_some {cube : Cube} {ref : LevelRef} {r : ResolvedLevel} :
    cube.level? ref = some r ↔
      cube.dimension? ref.dimension = some r.dimension ∧
        r.dimension.hierarchy? ref.hierarchy = some r.hierarchy ∧
        r.hierarchy.level? ref.level = some r.level := by
  simp only [Cube.level?, bind, Option.bind_eq_some_iff, pure, Option.some.injEq]
  constructor
  · intro h
    obtain ⟨d, hd, h, hh, l, hl, rfl⟩ := h
    exact ⟨hd, hh, hl⟩
  · intro h
    obtain ⟨hd, hh, hl⟩ := h
    exact ⟨_, hd, _, hh, _, hl, rfl⟩

/-! ## Levels that differ -/

/-- No two levels of a hierarchy agree in name or in depth. -/
structure Hierarchy.LevelsApart (h : Hierarchy) : Prop where
  names : (h.levels.map (·.name)).Nodup
  depths : (h.levels.map (·.depth)).Nodup

/-- No two levels of one hierarchy of the cube agree in name or in depth. Of a completed cube only the
names matter (`Cube.completed_levelsApart`). -/
def Cube.LevelsApart (cube : Cube) : Prop :=
  ∀ d ∈ cube.dimensions, ∀ h ∈ d.hierarchies, h.LevelsApart

theorem Hierarchy.level?_of_nodup {h : Hierarchy} (hnames : (h.levels.map (·.name)).Nodup) {l : Level}
    (hl : l ∈ h.levels) : h.level? l.name = some l :=
  find?_of_nodup hnames hl (beq_self_eq_true _) fun _ _ => eq_of_beq

theorem Dimension.hierarchy?_of_nodup {d : Dimension} (hnames : (d.hierarchies.map (·.name)).Nodup)
    {h : Hierarchy} (hh : h ∈ d.hierarchies) : d.hierarchy? h.name = some h :=
  find?_of_nodup hnames hh (beq_self_eq_true _) fun _ _ => eq_of_beq

theorem Cube.dimension?_of_nodup {cube : Cube} (hnames : (cube.dimensions.map (·.name)).Nodup)
    {d : Dimension} (hd : d ∈ cube.dimensions) (hkind : d.kind ≠ .measures) :
    cube.dimension? d.name = some d := by
  refine find?_of_nodup hnames hd (by simp [hkind]) fun b _ hb => ?_
  simp only [Bool.and_eq_true, beq_iff_eq] at hb
  exact hb.2

theorem Hierarchy.LevelsApart.level?_name {h : Hierarchy} (hlevels : h.LevelsApart) {l : Level}
    (hl : l ∈ h.levels) : h.level? l.name = some l :=
  Hierarchy.level?_of_nodup hlevels.names hl

theorem Cube.LevelsApart.eq_of_depth_eq {cube : Cube} (hcube : cube.LevelsApart) {a b : LevelRef}
    {ra rb : ResolvedLevel} (ha : cube.level? a = some ra) (hb : cube.level? b = some rb)
    (hsame : a.sameHierarchy b = true) (hdepth : ra.level.depth = rb.level.depth) : a = b := by
  obtain ⟨hda, hha, hla⟩ := Cube.level?_eq_some.1 ha
  obtain ⟨hdb, hhb, hlb⟩ := Cube.level?_eq_some.1 hb
  simp only [LevelRef.sameHierarchy, Bool.and_eq_true, beq_iff_eq] at hsame
  obtain ⟨hdimension, hhierarchy⟩ := hsame
  rw [hdimension, hdb, Option.some.injEq] at hda
  rw [hhierarchy, ← hda, hhb, Option.some.injEq] at hha
  have hlevels := hcube rb.dimension (Cube.dimension?_spec hdb).1 rb.hierarchy
    (Dimension.hierarchy?_spec hhb).1
  obtain ⟨hmema, hnamea⟩ := Hierarchy.level?_spec hla
  obtain ⟨hmemb, hnameb⟩ := Hierarchy.level?_spec hlb
  rw [← hha] at hmema
  have hlevel : ra.level = rb.level := List.inj_on_of_nodup_map hlevels.depths hmema hmemb hdepth
  have hname : a.level = b.level := by
    rw [← hnamea, ← hnameb, hlevel]
  cases a
  cases b
  simp_all

/-! ## Completed cubes -/

theorem map_name_completeLevels (hierarchyName : String) (depth : Nat) (levels : List Level) :
    (completeLevels hierarchyName depth levels).map (·.name) = levels.map (·.name) := by
  induction levels generalizing depth with
  | nil => rfl
  | cons l rest ih => simp [completeLevels, Level.completed, ih]

theorem map_depth_completeLevels (hierarchyName : String) (depth : Nat) (levels : List Level) :
    (completeLevels hierarchyName depth levels).map (·.depth) = List.range' depth levels.length := by
  induction levels generalizing depth with
  | nil => rfl
  | cons l rest ih => simp [completeLevels, Level.completed, ih, List.range'_succ]

theorem orElseText_orElseText (s other : String) :
    orElseText (orElseText s other) other = orElseText s other := by
  unfold orElseText
  by_cases hs : s.isEmpty = true
  · simp [hs]
  · simp [hs]

theorem completeLevels_completeLevels (hierarchyName : String) (depth : Nat) (levels : List Level) :
    completeLevels hierarchyName depth (completeLevels hierarchyName depth levels) =
      completeLevels hierarchyName depth levels := by
  induction levels generalizing depth with
  | nil => rfl
  | cons l rest ih => simp [completeLevels, Level.completed, orElseText_orElseText, ih]

theorem Dimension.completed_completed (d : Dimension) : d.completed.completed = d.completed := by
  simp [completed, Hierarchy.completed, orElseText_orElseText, completeLevels_completeLevels]

/-- Completing a cube once is enough. -/
theorem Cube.completed_completed (cube : Cube) : cube.completed.completed = cube.completed := by
  simp [completed, Measure.completed, orElseText_orElseText, Dimension.completed_completed]

/-- The depth of a level of a completed cube is its place in the hierarchy. -/
theorem Cube.depth_of_levelAt? {cube : Cube} {d : Dimension} {h : Hierarchy} {l : Level} {depth : Nat}
    (hd : d ∈ cube.completed.dimensions) (hh : h ∈ d.hierarchies) (hl : h.levelAt? depth = some l) :
    l.depth = depth := by
  obtain ⟨d₀, _, rfl⟩ := List.mem_map.1 hd
  obtain ⟨h₀, _, rfl⟩ := List.mem_map.1 hh
  have hdepths := congrArg (·[depth]?) (map_depth_completeLevels
    (orElseText h₀.uniqueName (generatedHierarchyName d₀.name h₀.name)) 0 h₀.levels)
  rw [Hierarchy.levelAt?, Hierarchy.completed] at hl
  simp only [List.getElem?_map, hl, Option.map_some] at hdepths
  obtain ⟨hlt, hvalue⟩ := List.getElem?_eq_some_iff.1 hdepths.symm
  simpa using hvalue.symm

/-- Completing a cube sets levels of different names apart. -/
theorem Cube.completed_levelsApart {cube : Cube}
    (hnames : ∀ d ∈ cube.dimensions, ∀ h ∈ d.hierarchies, (h.levels.map (·.name)).Nodup) :
    cube.completed.LevelsApart := by
  intro d hd h hh
  obtain ⟨d₀, hd₀, rfl⟩ := List.mem_map.1 hd
  obtain ⟨h₀, hh₀, rfl⟩ := List.mem_map.1 hh
  constructor
  · rw [Hierarchy.completed, map_name_completeLevels]
    exact hnames d₀ hd₀ h₀ hh₀
  · rw [Hierarchy.completed, map_depth_completeLevels]
    exact List.nodup_range'

end CubeQuery
