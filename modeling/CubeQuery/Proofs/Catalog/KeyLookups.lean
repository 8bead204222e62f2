import Mathlib.Data.List.Find
import CubeQuery.Describe.Cube
import CubeQuery.Proofs.Catalog.Chains
import CubeQuery.Proofs.Catalog.Expressions
import CubeQuery.Proofs.Engine.Cache
import CubeQuery.Proofs.Mdx.Derivations

/-!
# Look-ups by key

A member is looked up by key in the listing of its level, or by an expression that ends in the level and
the key. Where the hierarchies have generated unique names both lead to the first member of the level
with that key, whatever the names are (`key_lookups_agree`).
-/

namespace CubeQuery.Catalog

open Mdx Text

/-! ## Listings of levels -/

theorem Forest.find?_firstsBy {α : Type} (key : α → String) (name : String) (as : List α) :
    (Forest.firstsBy key as).find? (key · == name) = as.find? (key · == name) := by
  induction as with
  | nil => rfl
  | cons a rest ih =>
      rw [Forest.firstsBy, List.find?_cons, List.find?_cons]
      cases ha : key a == name with
      | true => rfl
      | false =>
          -- What is left out for the sake of the first element has its key, not the one looked for.
          have hkept : ∀ b, decide ((key b != key a) = true ∧ (key b == name) = true) =
              (key b == name) := by
            intro b
            by_cases hb : key b = name
            · have hother : key b ≠ key a := by
                rw [hb]
                exact (beq_eq_false_iff_ne.1 ha).symm
              simp [hother, Bool.beq_eq_decide_eq]
            · simp [hb]
          simp only [List.find?_filter, hkept, ih]

/-- The member found in the listing of a level is the first one of the level with the key. -/
theorem Forest.find?_levelMembers (f : Forest) (level : LevelRef) (key : String) :
    (f.levelMembers level).find? (·.key.display == key) =
      (f.entries.map (·.member)).find? fun m => m.level == level && m.key.display == key := by
  rw [Forest.levelMembers, Forest.find?_firstsBy, List.find?_filter]
  simp only [Bool.decide_and, Bool.decide_eq_true]

/-- So is the member at the place found for the key within the level. -/
theorem onLevel?_bind_member? (t : CubeTable) (level : LevelRef) (key : String) :
    (t.onLevel? level ⟨.key, key⟩).bind t.forest.member? =
      (t.forest.entries.map (·.member)).find? fun m => m.level == level && m.key.display == key := by
  rw [List.find?_map, List.find?_eq_bind_findIdx?_getElem?, Option.map_bind]
  rfl

/-! ## Expressions with a key -/

/-- The names of a dimension, a hierarchy and a level in brackets, and behind them a key in brackets. -/
def keyExpression (dimension hierarchy level key : String) : String :=
  quoteName dimension ++ "." ++ quoteName hierarchy ++ "." ++ quoteName level ++ ".&" ++ quoteName key

section KeyExpression

variable (dimension hierarchy level key : String)

theorem toList_keyExpression :
    (keyExpression dimension hierarchy level key).toList =
      bracketed dimension.toList ++
        (pathChars [hierarchy, level] ++ '.' :: '&' :: bracketed key.toList) := by
  simp [keyExpression, pathChars]

theorem trimmed_keyExpression :
    trimmed (keyExpression dimension hierarchy level key) =
      keyExpression dimension hierarchy level key := by
  have hbracketed : IsBracketed (keyExpression dimension hierarchy level key).toList := by
    rw [toList_keyExpression]
    apply (isBracketed_bracketed _).append
    rw [List.getLast?_append, List.getLast?_cons_cons, List.getLast?_cons,
      (isBracketed_bracketed key.toList).2]
    rfl
  rw [trimmed, hbracketed.trim_eq, String.ofList_toList]

/-- It is no path of names in brackets: an `&` stands where a path has a bracket. -/
theorem keyExpression_ne_path (first : String) (names : List String) :
    (keyExpression dimension hierarchy level key).toList ≠ bracketed first.toList ++ pathChars names := by
  intro h
  have hkey : LeavesPath ('.' :: '&' :: bracketed key.toList) := by simp [LeavesPath]
  rw [toList_keyExpression, ← List.append_nil (pathChars names)] at h
  have hrest := (bracketed_append_inj (hkey.head?_append _) (leavesPath_nil.head?_append _) h).2
  have hend := (pathChars_append_inj hkey leavesPath_nil hrest).2
  cases hend

theorem parse_keyExpression (hkey : key ≠ "") :
    Identifier.parse (keyExpression dimension hierarchy level key) =
      .ok ⟨[⟨.quoted, dimension⟩, ⟨.quoted, hierarchy⟩, ⟨.quoted, level⟩, ⟨.key, key⟩]⟩ := by
  have hlast : Separated SegmentAt '.' ('&' :: bracketed key.toList) [⟨.key, key⟩] [] := by
    refine .last (.quotedKey ?_ ⟨[], List.forall_mem_nil _, rfl⟩)
    rwa [ne_eq, String.toList_eq_nil_iff]
  have hall := ((hlast.bracketed level).bracketed hierarchy).bracketed dimension
  apply Identifier.parse_of_separated
  rw [toList_keyExpression]
  simpa [pathChars] using hall

end KeyExpression

/-! ## Resolution -/

section Table

variable {t : CubeTable} {trees : List MemberTree} {dimension level key : String} {d : Dimension}
  {h : Hierarchy} {l : Level}

/-- The segments of a level of the default hierarchy, and of a member on it. -/
theorem bySegments?_onLevel (hf : t.forest.WellFormed t.cube trees)
    (hd : t.cube.dimension? dimension = some d) (hh : d.defaultHierarchy? = some h)
    (hl : h.level? level = some l) {target : Segment} {place : Nat}
    (hplace : t.onLevel? ⟨d.name, h.name, l.name⟩ target = some place) :
    t.bySegments? [⟨.quoted, dimension⟩, ⟨.quoted, h.name⟩, ⟨.quoted, level⟩, target] =
      some place := by
  have hlevel : t.byLevel? d.name h [⟨.quoted, level⟩, target] = some place := by
    rw [CubeTable.byLevel?, hl, Option.bind_some]
    exact hplace
  obtain ⟨e, he, hlies, -⟩ := byLevel?_sound hlevel
  obtain ⟨r, hr, hroots⟩ := hf.exists_roots he
  have hstart : (t.forest.hierarchies.find? fun r =>
      r.dimension == d.name && r.hierarchy == h.name).isSome := by
    refine List.find?_isSome.2 ⟨r, hr, ?_⟩
    simp [← hroots.1, ← hroots.2, hlies.1, hlies.2]
  obtain ⟨start, hstart⟩ := Option.isSome_iff_exists.1 hstart
  have hwithin : t.within? d.name h [⟨.quoted, level⟩, target] = some place := by
    simp only [CubeTable.within?, hstart, hlevel, Option.some_or]
  have hhierarchy := Dimension.hierarchy?_of_defaultHierarchy? hh
  simp only [CubeTable.bySegments?, hd, Option.bind_some, CubeTable.byHierarchy?, hhierarchy, hwithin,
    Option.some_or]

/-- The expression leads to the first member of the level with the key. -/
theorem member?_keyExpression (hf : t.forest.WellFormed t.cube trees)
    (hnames : ∀ d ∈ t.cube.dimensions, ∀ h ∈ d.hierarchies,
      h.uniqueName = generatedHierarchyName d.name h.name)
    (hd : t.cube.dimension? dimension = some d) (hh : d.defaultHierarchy? = some h)
    (hl : h.level? level = some l) (hkey : key ≠ "") {m : Member}
    (hfirst : (t.forest.entries.map (·.member)).find? (fun m =>
      m.level == ⟨d.name, h.name, l.name⟩ && m.key.display == key) = some m) :
    t.member? (keyExpression dimension h.name level key) = some m := by
  rw [← onLevel?_bind_member?, Option.bind_eq_some_iff] at hfirst
  obtain ⟨place, hplace, hmember⟩ := hfirst
  have hunnamed : t.forest.place? (keyExpression dimension h.name level key) = none := by
    cases hnamed : t.forest.place? (keyExpression dimension h.name level key) with
    | none => rfl
    | some other =>
        obtain ⟨e, he, hname⟩ := Forest.lastPlace_spec hnamed
        obtain ⟨first, names, htext⟩ := exists_path_fullName hf hnames he
        rw [hname] at htext
        exact absurd htext (keyExpression_ne_path _ _ _ _ _ _)
  have hparse := parse_keyExpression dimension h.name level key hkey
  rw [CubeTable.member?, trimmed_keyExpression, CubeTable.resolve?, hunnamed, Option.none_or, hparse]
  simp only [Except.toOption, Option.bind_some]
  rw [bySegments?_onLevel hf hd hh hl hplace, Option.bind_some, hmember]

end Table

/-! ## Look-ups -/

theorem findLevel_eq_ok {cube : Cube} {dimension level : String} {ref : LevelRef}
    (h : Describe.findLevel cube dimension level = .ok ref) :
    ∃ d h l, cube.dimension? dimension = some d ∧ d.defaultHierarchy? = some h ∧
      h.level? level = some l ∧ ref = ⟨d.name, h.name, l.name⟩ := by
  obtain ⟨d, hd, h⟩ := bind_eq_ok.1 h
  have hdimension : cube.dimension? dimension = some d := by
    unfold Describe.findDimension at hd
    split at hd
    · cases hd
      assumption
    · cases hd
  split at h
  · cases h
  · rename_i hierarchy hdefault
    split at h
    · cases h
    · rename_i l hl
      cases h
      exact ⟨d, hierarchy, l, hdimension, hdefault, hl, rfl⟩

section Lookups

variable {σ : Type} {c : Catalog} {t : CubeTable} {dimension level key : String} {s u : σ} {m : Member}

/-- What is found by key is the first member of a level of the default hierarchy with the key. -/
theorem findByKey_run_eq_ok (htable : c.table? t.cube.name = some t)
    (h : (Describe.findByKey c.engine t.cube dimension level key).run s = (.ok m, u)) :
    ∃ d h l, t.cube.dimension? dimension = some d ∧ d.defaultHierarchy? = some h ∧
      h.level? level = some l ∧ (t.forest.entries.map (·.member)).find? (fun m =>
        m.level == ⟨d.name, h.name, l.name⟩ && m.key.display == key) = some m := by
  obtain ⟨ref, v, href, h⟩ := Action.bind_run_eq_ok.1 h
  obtain ⟨hlevel, rfl⟩ := Action.ofExcept_run_eq_ok.1 href
  obtain ⟨d, hierarchy, l, hd, hh, hl, rfl⟩ := findLevel_eq_ok hlevel
  refine ⟨d, hierarchy, l, hd, hh, hl, ?_⟩
  obtain ⟨members, w, hmembers, h⟩ := Action.bind_run_eq_ok.1 h
  have hlisted : t.forest.levelMembers ⟨d.name, hierarchy.name, l.name⟩ = members := by
    rw [← (Action.pure_run_eq_ok.1 (toQuery_run_eq_ok.1 hmembers)).1, Catalog.levelMembers, htable]
    rfl
  rw [← Forest.find?_levelMembers, hlisted]
  split at h
  · rename_i found hfound
    obtain ⟨rfl, -⟩ := Action.pure_run_eq_ok.1 h
    exact hfound
  · cases h

theorem memberByKey_run_eq_ok {engine : Engine σ} {cube : Cube} {options : Describe.MemberOptions}
    {description : Describe.MemberDescription}
    (h : (Describe.memberByKey engine cube dimension level key options).run s = (.ok description, u)) :
    ∃ m v, (Describe.findByKey engine cube dimension level key).run s = (.ok m, v) ∧
      description.member = { m with caption := options.captionOf m } := by
  obtain ⟨m, v, hfind, h⟩ := Action.bind_run_eq_ok.1 h
  refine ⟨m, v, hfind, ?_⟩
  obtain ⟨shown, w, hshown, h⟩ := Action.bind_run_eq_ok.1 h
  obtain ⟨ancestors, x, hancestors, h⟩ := Action.bind_run_eq_ok.1 h
  obtain ⟨rfl, -⟩ := Action.pure_run_eq_ok.1 h
  unfold Describe.withOptions at hshown
  split at hshown
  · obtain ⟨children, y, -, hshown⟩ := Action.bind_run_eq_ok.1 hshown
    obtain ⟨rfl, -⟩ := Action.pure_run_eq_ok.1 hshown
    rfl
  · obtain ⟨rfl, -⟩ := Action.pure_run_eq_ok.1 hshown
    rfl

end Lookups

/-- Where the hierarchies of a cube have generated unique names, a member found by its key is the first
one with the key on a level of the default hierarchy of the dimension, and the expression of the names of
all three and the key leads to it. It is also the member that a description for the key is about. -/
theorem key_lookups_agree {σ : Type} (text : String) (c : Catalog) (h : Catalog.ofText text = .ok c)
    (cube : String) (t : CubeTable) (htable : c.table? cube = some t)
    (hnames : ∀ d ∈ t.cube.dimensions, ∀ h ∈ d.hierarchies,
      h.uniqueName = generatedHierarchyName d.name h.name)
    (dimension level key : String) (hkey : key ≠ "") (s u : σ) (m : Member)
    (hfind : (Describe.findByKey c.engine t.cube dimension level key).run s = (.ok m, u)) :
    ∃ d h l, t.cube.dimension? dimension = some d ∧ d.defaultHierarchy? = some h ∧
      h.level? level = some l ∧
      (t.forest.entries.map (·.member)).find? (fun m =>
        m.level == ⟨dimension, h.name, level⟩ && m.key.display == key) = some m ∧
      (∀ v : σ, (c.engine.member cube (keyExpression dimension h.name level key)).run v =
        (.ok (some m), v)) ∧
      ∀ options description v,
        (Describe.memberByKey c.engine t.cube dimension level key options).run s =
            (.ok description, v) →
          description.member = { m with caption := options.captionOf m } := by
  obtain ⟨rfl, source, trees, -, hf⟩ := exists_source_of_table? h htable
  obtain ⟨d, hierarchy, l, hd, hh, hl, hfirst⟩ := findByKey_run_eq_ok htable hfind
  refine ⟨d, hierarchy, l, hd, hh, hl, ?_, ?_, ?_⟩
  · rw [(Cube.dimension?_spec hd).2, (Hierarchy.level?_spec hl).2] at hfirst
    exact hfirst
  · intro v
    refine Action.pure_run_eq_ok.2 ⟨?_, rfl⟩
    rw [Catalog.member?, htable, Option.bind_some]
    exact member?_keyExpression hf hnames hd hh hl hkey hfirst
  · intro options description v hdescribe
    obtain ⟨m', w, hfind', hdescription⟩ := memberByKey_run_eq_ok hdescribe
    rw [hfind] at hfind'
    cases hfind'
    exact hdescription

def bracketsText : String :=
  "\x7b\"cubes\": [\x7b\"name\": \"Sales\", \"measures\": [], \"dimensions\": [\x7b\"name\": \"St]ore\", \"hierarchies\": [
    \x7b\"name\": \"By.[Area]\", \"has_all\": false, \"levels\": [\x7b\"name\": \"State]\"\x7d]\x7d]\x7d],
    \"members\": [\x7b\"dimension\": \"St]ore\", \"members\": [
      \x7b\"name\": \"CA\", \"key\": 7\x7d, \x7b\"name\": \"OR\", \"key\": \"7\"\x7d]\x7d]\x7d]\x7d"

/-- The first of the two is found by the key and named by the expression. -/
theorem key_lookups_agree_brackets :
    ∃ c t m, Catalog.ofText bracketsText = .ok c ∧ c.table? "Sales" = some t ∧
      (∀ d ∈ t.cube.dimensions, ∀ h ∈ d.hierarchies,
        h.uniqueName = generatedHierarchyName d.name h.name) ∧
      (Describe.findByKey c.engine t.cube "St]ore" "State]" "7").run () = (.ok m, ()) ∧
      m.name = "CA" ∧
      (c.engine.member "Sales" "[St]]ore].[By.[Area]]].[State]]].&[7]").run () = (.ok (some m), ()) := by
  have hload : ((Catalog.ofText bracketsText).toOption.any fun c => (c.table? "Sales").any fun t =>
      (t.cube.dimension? "St]ore").any fun d => d.defaultHierarchy?.any fun h =>
        ((Describe.findByKey c.engine t.cube "St]ore" "State]" "7").run ()).1.toOption.any fun m =>
          decide ((∀ d ∈ t.cube.dimensions, ∀ h ∈ d.hierarchies,
              h.uniqueName = generatedHierarchyName d.name h.name) ∧
            h.name = "By.[Area]" ∧ m.name = "CA")) = true := by
    rw [bracketsText, ofText_ofList]
    decide +kernel
  simp only [Option.any_eq_true, toOption_eq_some_iff, decide_eq_true_eq] at hload
  obtain ⟨c, hc, t, htable, d, hd, h, hh, m, hm, hnames, hname, hmember⟩ := hload
  have hfind : (Describe.findByKey c.engine t.cube "St]ore" "State]" "7").run () = (.ok m, ()) :=
    Prod.ext hm rfl
  obtain ⟨d', h', l, hd', hh', -, -, hnamed, -⟩ := key_lookups_agree bracketsText c hc "Sales" t htable
    hnames "St]ore" "State]" "7" (by decide) () () m hfind
  rw [hd, Option.some.injEq] at hd'
  rw [← hd', hh, Option.some.injEq] at hh'
  have hexpression : keyExpression "St]ore" h'.name "State]" "7" =
      "[St]]ore].[By.[Area]]].[State]]].&[7]" := by
    rw [← hh', hname]
    decide
  rw [← hexpression]
  exact ⟨c, t, m, hc, htable, hnames, hfind, hmember, hnamed ()⟩

end CubeQuery.Catalog
