import Mathlib.Data.List.Perm.Subperm
import CubeQuery.Proofs.Catalog.WellFormed
import CubeQuery.Proofs.Mdx.Quoting

/-!
# Walks over parent names

The ancestors of a member are found by name, and a name stands for the last member that has it. A step
leads to a later tree or to a smaller depth of the same tree, unless the name of an All member stands
for a member below it. Walks end in all other tables (`ancestors?_isSome_iff`).
-/

namespace CubeQuery.Catalog

open Mdx

/-! ## Walks -/

namespace Forest

/-- The members that are reached over parent names, up to one that has no parent in the table. -/
inductive Walk (f : Forest) : Option String → List Member → Prop where
  | stop {name : Option String} (hnone : name.bind f.named? = none) : Walk f name []
  | step {name : Option String} {m : Member} {ms : List Member} (hfound : name.bind f.named? = some m)
      (hrest : f.Walk m.parentName ms) : Walk f name (m :: ms)

variable {f : Forest}

theorem walk_iff_of_none {name : Option String} {ms : List Member} (hname : name.bind f.named? = none) :
    f.Walk name ms ↔ ms = [] := by
  constructor
  · intro h
    cases h with
    | stop _ => rfl
    | step hfound _ => simp [hname] at hfound
  · intro h
    rw [h]
    exact .stop hname

theorem walk_iff_of_some {name : Option String} {m : Member} {ms : List Member}
    (hname : name.bind f.named? = some m) :
    f.Walk name ms ↔ ∃ rest, f.Walk m.parentName rest ∧ m :: rest = ms := by
  constructor
  · intro h
    cases h with
    | stop hnone => simp [hname] at hnone
    | step hfound hrest =>
        rw [hname, Option.some.injEq] at hfound
        subst hfound
        exact ⟨_, hrest, rfl⟩
  · intro h
    obtain ⟨rest, hrest, rfl⟩ := h
    exact .step hname hrest

theorem climb?_eq_some_iff {steps : Nat} {name : Option String} {ms : List Member} :
    f.climb? steps name = some ms ↔ f.Walk name ms ∧ ms.length ≤ steps := by
  induction steps generalizing name ms with
  | zero =>
      cases hname : name.bind f.named? with
      | none =>
          rw [climb?, hname, walk_iff_of_none hname]
          constructor
          · intro h
            cases h
            exact ⟨rfl, Nat.zero_le _⟩
          · intro h
            obtain ⟨rfl, _⟩ := h
            rfl
      | some m =>
          rw [climb?, hname, walk_iff_of_some hname]
          constructor
          · intro h
            cases h
          · intro h
            obtain ⟨⟨rest, _, rfl⟩, hlength⟩ := h
            simp at hlength
  | succ steps ih =>
      cases hname : name.bind f.named? with
      | none =>
          rw [climb?, hname, walk_iff_of_none hname]
          constructor
          · intro h
            cases h
            exact ⟨rfl, Nat.zero_le _⟩
          · intro h
            obtain ⟨rfl, _⟩ := h
            rfl
      | some m =>
          simp only [climb?, hname, walk_iff_of_some hname, Option.map_eq_some_iff, ih]
          constructor
          · intro h
            obtain ⟨rest, ⟨hwalk, hlength⟩, rfl⟩ := h
            exact ⟨⟨rest, hwalk, rfl⟩, Nat.succ_le_succ hlength⟩
          · intro h
            obtain ⟨⟨rest, hwalk, rfl⟩, hlength⟩ := h
            exact ⟨rest, ⟨hwalk, Nat.le_of_succ_le_succ hlength⟩, rfl⟩

theorem Walk.unique {name : Option String} {ms ms' : List Member} (h : f.Walk name ms)
    (h' : f.Walk name ms') : ms = ms' := by
  induction h generalizing ms' with
  | stop hnone => exact ((walk_iff_of_none hnone).1 h').symm
  | step hfound hrest ih =>
      obtain ⟨rest, hrest', rfl⟩ := (walk_iff_of_some hfound).1 h'
      rw [ih hrest']

/-- A walk goes on from each of its members as it would have started there. -/
theorem Walk.exists_of_mem {name : Option String} {ms : List Member} (h : f.Walk name ms) {m : Member}
    (hm : m ∈ ms) : f.named? m.fullName = some m ∧
      ∃ rest, f.Walk m.parentName rest ∧ rest.length < ms.length := by
  induction h with
  | stop hnone => simp at hm
  | @step name first ms hfound hrest ih =>
      obtain rfl | hm := List.mem_cons.1 hm
      · obtain ⟨text, rfl, hnamed⟩ := Option.bind_eq_some_iff.1 hfound
        rw [fullName_of_named? hnamed]
        exact ⟨hnamed, ms, hrest, Nat.lt_succ_self _⟩
      · obtain ⟨hnamed, rest, hwalk, hlength⟩ := ih hm
        exact ⟨hnamed, rest, hwalk, Nat.lt_succ_of_lt hlength⟩

/-- No walk that ends comes to one name twice. -/
theorem Walk.nodup {name : Option String} {ms : List Member} (h : f.Walk name ms) :
    (ms.map (·.fullName)).Nodup := by
  induction h with
  | stop hnone => exact List.nodup_nil
  | @step name m ms hfound hrest ih =>
      refine List.nodup_cons.2 ⟨fun hmem => ?_, ih⟩
      obtain ⟨m', hm', hname : m'.fullName = m.fullName⟩ := List.mem_map.1 hmem
      obtain ⟨hnamed', rest, hwalk, hlength⟩ := hrest.exists_of_mem hm'
      obtain ⟨text, rfl, hnamed⟩ := Option.bind_eq_some_iff.1 hfound
      rw [hname, fullName_of_named? hnamed, hnamed, Option.some.injEq] at hnamed'
      subst hnamed'
      -- From one member there are now two walks of different lengths.
      rw [hwalk.unique hrest] at hlength
      omega

theorem Walk.start_not_mem {m : Member} {ms : List Member} (h : f.Walk m.parentName ms) : m ∉ ms := by
  intro hm
  obtain ⟨-, rest, hwalk, hlength⟩ := h.exists_of_mem hm
  rw [hwalk.unique h] at hlength
  omega

theorem Walk.length_le {name : Option String} {ms : List Member} (h : f.Walk name ms) :
    ms.length ≤ f.entries.length := by
  have hsubset : ms.map (·.fullName) ⊆ f.entries.map (·.member.fullName) := by
    intro text htext
    obtain ⟨m, hm, rfl⟩ := List.mem_map.1 htext
    obtain ⟨e, he, hem⟩ := mem_of_named? (h.exists_of_mem hm).1
    exact List.mem_map.2 ⟨e, he, by rw [hem]⟩
  have hlength := (List.subperm_of_subset h.nodup hsubset).length_le
  rwa [List.length_map, List.length_map] at hlength

/-- The ancestors of a member are those of the walk from it, if that ends. -/
theorem ancestors?_eq_some_iff {m : Member} {ms : List Member} :
    f.ancestors? m = some ms ↔ f.Walk m.parentName ms := by
  rw [ancestors?, climb?_eq_some_iff]
  exact ⟨fun h => h.1, fun h => ⟨h, h.length_le⟩⟩

/-- Where a name stands for a member with a parent of that name, a walk never ends. -/
theorem not_walk_of_own_parent {name : String} {m : Member} (hnamed : f.named? name = some m)
    (hparent : m.parentName = some name) (ms : List Member) : ¬ f.Walk m.parentName ms := by
  intro h
  have hfound : m.parentName.bind f.named? = some m := by
    rw [hparent]
    exact hnamed
  obtain ⟨rest, hrest, rfl⟩ := (walk_iff_of_some hfound).1 h
  have hsame := congrArg List.length (hrest.unique h)
  rw [List.length_cons] at hsame
  omega

end Forest

/-! ## Paths of names -/

/-- Names in brackets, each behind a dot. -/
def pathChars (names : List String) : List Char :=
  names.flatMap fun name => '.' :: bracketed name.toList

theorem pathChars_cons (name : String) (names : List String) :
    pathChars (name :: names) = '.' :: (bracketed name.toList ++ pathChars names) := rfl

theorem pathChars_append (names others : List String) :
    pathChars (names ++ others) = pathChars names ++ pathChars others := List.flatMap_append

/-- What stands at the start of a text belongs neither to a name in brackets before it nor to a path. -/
def LeavesPath (cs : List Char) : Prop := cs.head? ≠ some ']' ∧ ∀ rest, cs ≠ '.' :: '[' :: rest

theorem LeavesPath.head?_append {cs : List Char} (h : LeavesPath cs) (names : List String) :
    (pathChars names ++ cs).head? ≠ some ']' := by
  cases names with
  | nil => exact h.1
  | cons name names => simp [pathChars_cons]

/-- A path of names and what stands behind it are determined by the text. -/
theorem pathChars_append_inj {names others : List String} {x y : List Char} (hx : LeavesPath x)
    (hy : LeavesPath y) (h : pathChars names ++ x = pathChars others ++ y) : names = others ∧ x = y := by
  induction names generalizing others with
  | nil =>
      cases others with
      | nil => exact ⟨rfl, h⟩
      | cons other others => exact absurd h (hx.2 _)
  | cons name names ih =>
      cases others with
      | nil => exact absurd h.symm (hy.2 _)
      | cons other others =>
          rw [pathChars_cons, pathChars_cons, List.cons_append, List.cons_append, List.cons.injEq,
            List.append_assoc, List.append_assoc] at h
          obtain ⟨hname, hrest⟩ :=
            bracketed_append_inj (hx.head?_append names) (hy.head?_append others) h.2
          obtain ⟨hnames, hend⟩ := ih hrest
          rw [String.toList_inj.1 hname, hnames]
          exact ⟨rfl, hend⟩

theorem leavesPath_nil : LeavesPath [] := by simp [LeavesPath]

theorem pathChars_inj {names others : List String} (h : pathChars names = pathChars others) :
    names = others := by
  rw [← List.append_nil (pathChars names), ← List.append_nil (pathChars others)] at h
  exact (pathChars_append_inj leavesPath_nil leavesPath_nil h).1

theorem toList_generatedFullName (h : Hierarchy) (parent : Option Member) (name : String) :
    (generatedFullName h parent name).toList =
      (match parent with
        | some p => if p.allMember then h.uniqueName else p.fullName
        | none => h.uniqueName).toList ++ pathChars [name] := by
  cases parent with
  | none => simp [generatedFullName, pathChars]
  | some p => simp [generatedFullName, pathChars]

section Paths

variable {f : Forest} {dimension : String} {h : Hierarchy} {start first place : Nat}
  {roots : List MemberNode} {top : Option (Nat × Member)}

/-- The unique name of a member is made of the names down to it. Their number tells its depth, and one
name alone that it is a root. -/
theorem Stands.exists_path (htop : f.Top dimension h start roots top first)
    {parent : Option (Nat × Member)} {n : MemberNode}
    (hstands : Stands dimension h top first roots parent place n) (level : Level) :
    ∃ names, (nodeMember dimension h (parent.map (·.2)) level n).fullName.toList =
        h.uniqueName.toList ++ pathChars names ∧
      0 < names.length ∧
      names.length + h.firstRealDepth = depthBelow h (parent.map (·.2)) + 1 ∧
      (names.length = 1 → parent = top) := by
  induction hstands generalizing level with
  | @root place n hmem =>
      refine ⟨[n.name], ?_, Nat.one_pos, ?_, fun _ => rfl⟩
      · rw [fullName_nodeMember, toList_generatedFullName]
        cases htop with
        | all hasAll hlevel hentry => rfl
        | bare hasAll => rfl
      · cases htop with
        | all hasAll hlevel hentry =>
            simp [Hierarchy.firstRealDepth, hasAll, depthBelow, allMemberOf]
        | bare hasAll => simp [Hierarchy.firstRealDepth, hasAll, depthBelow]
  | @child parent above place n m level' habove hlevel hmem ih =>
      obtain ⟨names, htext, hpos, hlength, -⟩ := ih level'
      refine ⟨names ++ [m.name], ?_, by simp, ?_, fun hone => ?_⟩
      · rw [fullName_nodeMember, toList_generatedFullName]
        simp only [Option.map_some, allMember_nodeMember, Bool.false_eq_true, if_false]
        rw [htext, List.append_assoc, ← pathChars_append]
      · simp only [List.length_append, List.length_singleton, Option.map_some, depthBelow,
          depth_nodeMember]
        simp only [depthBelow] at hlength
        omega
      · simp only [List.length_append, List.length_singleton] at hone
        omega

namespace Forest.Top

/-- The paths of all members of a tree; the All member has one name alone, as the roots have. -/
theorem exists_path (htop : f.Top dimension h start roots top first)
    (hall : f.HoldsAll dimension h top first roots) {e : Entry} (he : f.entries[place]? = some e)
    (hlow : start ≤ place) (hhigh : place < first + MemberNode.weights roots) :
    ∃ names, e.member.fullName.toList = h.uniqueName.toList ++ pathChars names ∧
      ((names.length = 1 ∧ top = some (place, e.member)) ∨
        (names.length + h.firstRealDepth = e.member.depth + 1 ∧
          (names.length = 1 → e.member.parentName = top.map (·.2.fullName)))) := by
  obtain ⟨m, rfl⟩ | ⟨parent, n, hn⟩ := htop.exists_origin hall hlow hhigh
  · cases htop with
    | all hasAll hlevel hentry =>
        rw [he, Option.some.injEq] at hentry
        subst hentry
        refine ⟨[allName h], ?_, .inl ⟨rfl, rfl⟩⟩
        simp [allMemberOf, pathChars]
  · obtain ⟨level, -, hentry⟩ := hn.exists_entry hall
    obtain ⟨names, htext, -, hlength, hone⟩ := hn.exists_path htop level
    rw [he, Option.some.injEq] at hentry
    subst hentry
    refine ⟨names, htext, .inr ⟨?_, fun h => ?_⟩⟩
    · rw [depth_nodeMember, hlength]
    · rw [parentName_nodeMember, hone h, Option.map_map]
      rfl

/-- Of two members of a tree with one name none is the deeper one, but for a root with the name of the
All member above it. -/
theorem depth_le_or (htop : f.Top dimension h start roots top first)
    (hall : f.HoldsAll dimension h top first roots) {place' : Nat} {e e' : Entry}
    (he : f.entries[place]? = some e) (hlow : start ≤ place)
    (hhigh : place < first + MemberNode.weights roots) (he' : f.entries[place']? = some e')
    (hlow' : start ≤ place') (hhigh' : place' < first + MemberNode.weights roots)
    (hname : e'.member.fullName = e.member.fullName) :
    e'.member.depth ≤ e.member.depth ∨
      e.member.allMember = true ∧ e'.member.parentName = some e.member.fullName := by
  obtain ⟨names, htext, hpath⟩ := htop.exists_path hall he hlow hhigh
  obtain ⟨names', htext', hpath'⟩ := htop.exists_path hall he' hlow' hhigh'
  -- One hierarchy, one prefix: equal names are equal paths, and a path has the length of its depth.
  have hnames : names' = names := by
    rw [hname, htext, List.append_cancel_left_eq] at htext'
    exact (pathChars_inj htext').symm
  subst hnames
  obtain ⟨hone, hplace⟩ | ⟨hlength, -⟩ := hpath
  · rw [hplace] at htop
    obtain ⟨-, -, hflag, hdepth, -, -⟩ := htop.spec
    obtain ⟨-, hplace'⟩ | ⟨-, hparent⟩ := hpath'
    · rw [hplace, Option.some.injEq, Prod.mk.injEq] at hplace'
      rw [hplace'.2]
      exact .inl (Nat.le_refl _)
    · rw [hparent hone, hplace]
      exact .inr ⟨hflag, rfl⟩
  · obtain ⟨-, hplace'⟩ | ⟨hlength', -⟩ := hpath'
    · rw [hplace'] at htop
      obtain ⟨-, -, -, hdepth, -, -⟩ := htop.spec
      omega
    · omega

/-- A parent is in the same tree, before its child and less deep. -/
theorem exists_parent (htop : f.Top dimension h start roots top first)
    (hall : f.HoldsAll dimension h top first roots) {e : Entry} (he : f.entries[place]? = some e)
    (hlow : start ≤ place) (hhigh : place < first + MemberNode.weights roots) {name : String}
    (hname : e.member.parentName = some name) :
    ∃ above p, start ≤ above ∧ above < place ∧ f.entries[above]? = some p ∧
      p.member.fullName = name ∧ e.member.depth = p.member.depth + 1 := by
  obtain ⟨m, rfl⟩ | ⟨parent, n, hn⟩ := htop.exists_origin hall hlow hhigh
  · obtain ⟨rfl, -, -, -, hnone, hentry⟩ := htop.spec
    rw [he, Option.some.injEq] at hentry
    subst hentry
    rw [hnone] at hname
    cases hname
  · obtain ⟨level, -, hentry⟩ := hn.exists_entry hall
    rw [he, Option.some.injEq] at hentry
    subst hentry
    simp only [parentName_nodeMember, Option.map_map, Option.map_eq_some_iff] at hname
    obtain ⟨⟨above, m⟩, rfl, rfl⟩ := hname
    simp only [depth_nodeMember, Option.map_some, depthBelow]
    cases hn with
    | root hmem =>
        have hbounds := bounds_of_mem_treePlaces (List.of_mem_zip hmem).1
        obtain ⟨rfl, hfirst, -, -, -, hentry⟩ := htop.spec
        exact ⟨above, _, Nat.le_refl _, by omega, hentry, rfl, rfl⟩
    | child habove hlevel hmem =>
        have hbounds := bounds_of_mem_treePlaces (List.of_mem_zip hmem).1
        have hle := habove.le_place
        obtain ⟨level', hlevel', hentry⟩ := habove.exists_entry hall
        rw [hlevel, Option.some.injEq] at hlevel'
        subst hlevel'
        exact ⟨above, _, by have := htop.le_first; omega, by omega, hentry, rfl, rfl⟩

end Forest.Top

end Paths

/-! ## Walks that end -/

namespace Forest

/-- The unique name of an All member does not stand for a member below it. -/
def AllNamesKept (f : Forest) : Prop :=
  ∀ p ∈ f.entries, p.member.allMember = true → ∀ m, f.named? p.member.fullName = some m →
    m.parentName ≠ some p.member.fullName

variable {f : Forest} {cube : Cube}

/-- A step of a walk leads to a later tree, or to a smaller depth of the same. -/
theorem HoldsTree.exists_step {start stop : Nat} {tree : MemberTree} {roots : HierarchyRoots}
    (htree : f.HoldsTree cube start tree roots stop) (hkept : f.AllNamesKept) {place : Nat} {e : Entry}
    (he : f.entries[place]? = some e) (hlow : start ≤ place) (hhigh : place < stop) {name : String}
    (hname : e.member.parentName = some name) :
    ∃ found e', f.entries[found]? = some e' ∧ f.named? name = some e'.member ∧
      (stop ≤ found ∨ start ≤ found ∧ found < stop ∧ e'.member.depth < e.member.depth) := by
  cases htree with
  | @intro d h top first hdimension hhierarchy htop hall =>
      obtain ⟨above, p, hstart, habove, hp, rfl, hdepth⟩ :=
        htop.exists_parent hall he hlow hhigh hname
      obtain ⟨found, e', he', hnamed, hsame, hle⟩ := exists_named hp
      refine ⟨found, e', he', hnamed, ?_⟩
      by_cases hfound : found < first + MemberNode.weights tree.members
      · have hdepth' := htop.depth_le_or hall hp hstart (by omega) he' (by omega) hfound hsame
        obtain hdepth' | ⟨hflag, hparent⟩ := hdepth'
        · exact .inr ⟨by omega, hfound, by omega⟩
        · exact absurd hparent (hkept p (List.mem_of_getElem? hp) hflag _ hnamed)
      · exact .inl (Nat.le_of_not_lt hfound)

/-- From the trees on that start at a place every walk ends: the last trees first, and in one tree the
members of smaller depth first. -/
theorem HoldsTrees.exists_walk {start last : Nat} {trees : List MemberTree}
    {roots : List HierarchyRoots} (htrees : f.HoldsTrees cube start trees roots last)
    (hlast : last = f.entries.length) (hkept : f.AllNamesKept) {place : Nat} {e : Entry}
    (he : f.entries[place]? = some e) (hlow : start ≤ place) :
    ∃ ms, f.Walk e.member.parentName ms := by
  induction htrees generalizing place e with
  | nil start =>
      obtain ⟨hplace, _⟩ := List.getElem?_eq_some_iff.1 he
      omega
  | @cons start stop last tree trees r rest hfirst hrest ih =>
      by_cases hplace : place < stop
      -- Later trees are done, so inside this one the depth decreases until the walk leaves it.
      · induction hdepth : e.member.depth using Nat.strongRecOn generalizing place e with
        | _ depth ihdepth =>
            cases hname : e.member.parentName with
            | none => exact ⟨[], .stop rfl⟩
            | some name =>
                obtain ⟨found, e', he', hnamed, hnext⟩ :=
                  hfirst.exists_step hkept he hlow hplace hname
                obtain ⟨ms, hms⟩ : ∃ ms, f.Walk e'.member.parentName ms := by
                  obtain hlater | ⟨hlow', hhigh', hless⟩ := hnext
                  · exact ih hlast he' hlater
                  · exact ihdepth e'.member.depth (hdepth ▸ hless) he' hlow' hhigh' rfl
                exact ⟨e'.member :: ms, .step hnamed hms⟩
      · exact ih hlast he (by omega)

end Forest

/-- In the tables of a catalog that loads, all members have ancestors that come to an end, without the
member itself and each of a name of its own, exactly if no name of an All member stands for a member
below it. -/
theorem ancestors?_isSome_iff (text : String) (c : Catalog) (h : Catalog.ofText text = .ok c) :
    ∀ t ∈ c.tables,
      (∀ e ∈ t.forest.entries, ∃ ms, t.forest.ancestors? e.member = some ms ∧ e.member ∉ ms ∧
        (ms.map (·.fullName)).Nodup) ↔ t.forest.AllNamesKept := by
  intro t ht
  obtain ⟨source, -, htables⟩ := ofText_eq_ok h
  obtain ⟨s, -, htable⟩ := exists_of_mem_mapM htables ht
  obtain ⟨-, hforest⟩ := table_eq_ok htable
  have htrees := Forest.holdsTrees_of_ofTrees hforest
  constructor
  · intro hends p hp hflag m hnamed hparent
    obtain ⟨e, he, rfl⟩ := Forest.mem_of_named? hnamed
    obtain ⟨ms, hms, _⟩ := hends e he
    exact Forest.not_walk_of_own_parent hnamed hparent ms (Forest.ancestors?_eq_some_iff.1 hms)
  · intro hkept e he
    obtain ⟨place, he⟩ := List.mem_iff_getElem?.1 he
    obtain ⟨ms, hms⟩ := htrees.exists_walk rfl hkept he (Nat.zero_le place)
    exact ⟨ms, Forest.ancestors?_eq_some_iff.2 hms, hms.start_not_mem, hms.nodup⟩

def twinStatesText : String :=
  "\x7b\"cubes\": [\x7b\"name\": \"Sales\", \"measures\": [], \"dimensions\": [\x7b\"name\": \"Store\", \"hierarchies\": [
    \x7b\"name\": \"Store\", \"has_all\": true, \"levels\": [\x7b\"name\": \"All\"\x7d, \x7b\"name\": \"State\"\x7d, \x7b\"name\": \"City\"\x7d]\x7d]\x7d],
    \"members\": [\x7b\"dimension\": \"Store\", \"members\": [
      \x7b\"name\": \"CA\", \"children\": [\x7b\"name\": \"Napa\"\x7d]\x7d, \x7b\"name\": \"CA\"\x7d]\x7d]\x7d]\x7d"

/-- The walk from the city leads over the other state, which has no children. -/
theorem ancestors?_isSome_iff_twin_states :
    ∃ c, Catalog.ofText twinStatesText = .ok c ∧
      (c.tables.map fun t => t.forest.entries.map fun e =>
        (t.forest.ancestors? e.member).map fun ms => ms.map fun m => (m.name, m.numChildren)) =
        [[some [], some [("All Stores", 2)], some [("CA", 0), ("All Stores", 2)],
          some [("All Stores", 2)]]] ∧
      ∀ t ∈ c.tables, t.forest.AllNamesKept := by
  have hload : (Catalog.ofText twinStatesText).toOption.map (fun c =>
      c.tables.map fun t => t.forest.entries.map fun e =>
        (t.forest.ancestors? e.member).map fun ms => ms.map fun m => (m.name, m.numChildren)) =
        some [[some [], some [("All Stores", 2)], some [("CA", 0), ("All Stores", 2)],
          some [("All Stores", 2)]]] := by
    rw [twinStatesText, ofText_ofList]
    decide +kernel
  obtain ⟨c, hc, hwalks⟩ := Option.map_eq_some_iff.1 hload
  have hc := toOption_eq_some_iff.1 hc
  refine ⟨c, hc, hwalks, fun t ht => (ancestors?_isSome_iff twinStatesText c hc t ht).1 fun e he => ?_⟩
  have hends : ∀ walks ∈ c.tables.map fun t => t.forest.entries.map fun e =>
      (t.forest.ancestors? e.member).map fun ms => ms.map fun m => (m.name, m.numChildren),
      ∀ walk ∈ walks, walk.isSome = true := by
    rw [hwalks]
    decide
  have hsome := hends _ (List.mem_map_of_mem ht) _ (List.mem_map_of_mem he)
  rw [Option.isSome_map, Option.isSome_iff_exists] at hsome
  obtain ⟨ms, hms⟩ := hsome
  have hwalk := Forest.ancestors?_eq_some_iff.1 hms
  exact ⟨ms, hms, hwalk.start_not_mem, hwalk.nodup⟩

def allStateText : String :=
  "\x7b\"cubes\": [\x7b\"name\": \"Sales\", \"measures\": [], \"dimensions\": [\x7b\"name\": \"Store\", \"hierarchies\": [
    \x7b\"name\": \"Store\", \"has_all\": true, \"levels\": [\x7b\"name\": \"All\"\x7d, \x7b\"name\": \"State\"\x7d, \x7b\"name\": \"City\"\x7d]\x7d]\x7d],
    \"members\": [\x7b\"dimension\": \"Store\", \"members\": [
      \x7b\"name\": \"All Stores\"\x7d]\x7d]\x7d]\x7d"

/-- From that state no walk ends. -/
theorem not_walk_of_state_named_all :
    ∃ c, Catalog.ofText allStateText = .ok c ∧
      ∃ t ∈ c.tables, ∃ e ∈ t.forest.entries, t.forest.ancestors? e.member = none ∧
        ∀ ms, ¬ t.forest.Walk e.member.parentName ms := by
  have hload : (Catalog.ofText allStateText).toOption.map (fun c =>
      c.tables.any fun t => t.forest.entries.any fun e =>
        (t.forest.ancestors? e.member).isNone) = some true := by
    rw [allStateText, ofText_ofList]
    decide +kernel
  obtain ⟨c, hc, hany⟩ := Option.map_eq_some_iff.1 hload
  obtain ⟨t, ht, hany⟩ := List.any_eq_true.1 hany
  obtain ⟨e, he, hnone⟩ := List.any_eq_true.1 hany
  rw [Option.isNone_iff_eq_none] at hnone
  refine ⟨c, toOption_eq_some_iff.1 hc, t, ht, e, he, hnone, fun ms hwalk => ?_⟩
  rw [← Forest.ancestors?_eq_some_iff, hnone] at hwalk
  cases hwalk

end CubeQuery.Catalog
