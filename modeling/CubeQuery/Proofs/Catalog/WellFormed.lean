import CubeQuery.Catalog.Engine
import CubeQuery.Proofs.Catalog.Layout
import CubeQuery.Proofs.Cube.Levels

/-!
# Well-formed tables

Every entry of a loaded table has a seat in one of the trees (`Forest.HoldsTrees.exists_seat`): it lies
on a level of its hierarchy, lists the places of its children, and is listed by its parent. From the
seats it follows that a loaded catalog is a forest (`ofText_wellFormed`).
-/

namespace CubeQuery.Catalog

/-! ## Seats -/

/-- An entry at a place, above the trees of the given nodes in a hierarchy. -/
structure Forest.Seat (f : Forest) (cube : Cube) (place : Nat) (e : Entry) (d : Dimension)
    (h : Hierarchy) (nodes : List MemberNode) : Prop where
  dimension : cube.dimension? d.name = some d
  hierarchy : d.hierarchy? h.name = some h
  level : ∃ level, h.levelAt? e.member.depth = some level ∧
    e.member.level = ⟨d.name, h.name, level.name⟩
  numChildren : e.member.numChildren = nodes.length
  drillable : e.member.drillable = !nodes.isEmpty
  children : e.children = treePlaces (place + 1) nodes
  below : f.HoldsAll d.name h (some (place, e.member)) (place + 1) nodes
  /-- What has a parent is listed by it. -/
  parent : (e.parent = none ∧ e.member.parentName = none) ∨
    ∃ above p, e.parent = some above ∧ e.member.parentName = some p.member.fullName ∧
      f.entries[above]? = some p ∧ place ∈ p.children

/-- The parent, if there is one, is in the table and lists the place. -/
def Forest.Lists (f : Forest) (parent : Option (Nat × Member)) (place : Nat) : Prop :=
  ∀ above m, parent = some (above, m) →
    ∃ p, f.entries[above]? = some p ∧ p.member = m ∧ place ∈ p.children

section Seats

variable {f : Forest} {cube : Cube} {d : Dimension} {h : Hierarchy} {top : Option (Nat × Member)}
  {start : Nat} {roots : List MemberNode}

/-- A node stands at a place that its parent lists. -/
theorem Stands.lists (hall : f.HoldsAll d.name h top start roots)
    (htop : ∀ place ∈ treePlaces start roots, f.Lists top place) {parent : Option (Nat × Member)}
    {place : Nat} {n : MemberNode} (hstands : Stands d.name h top start roots parent place n) :
    f.Lists parent place := by
  cases hstands with
  | root hmem => exact htop place (List.of_mem_zip hmem).1
  | child habove hlevel hmem =>
      intro above m hparent
      cases hparent
      obtain ⟨level', hlevel', hentry⟩ := habove.exists_entry hall
      rw [hlevel, Option.some.injEq] at hlevel'
      subst hlevel'
      exact ⟨_, hentry, rfl, (List.of_mem_zip hmem).1⟩

theorem Forest.Top.lists {first place : Nat} (htop : f.Top d.name h start roots top first)
    (hmem : place ∈ treePlaces first roots) : f.Lists top place := by
  intro above m hparent
  rw [hparent] at htop
  obtain ⟨rfl, _, _, _, _, hentry⟩ := htop.spec
  exact ⟨_, hentry, rfl, hmem⟩

theorem Forest.Holds.seat (hdimension : cube.dimension? d.name = some d)
    (hhierarchy : d.hierarchy? h.name = some h) {parent : Option (Nat × Member)} {place : Nat}
    {n : MemberNode} (hholds : f.Holds d.name h parent place n) (hlists : f.Lists parent place) :
    ∃ e, f.entries[place]? = some e ∧ f.Seat cube place e d h n.children ∧
      e.member.allMember = false := by
  cases hholds with
  | @node _ _ _ level hlevel hentry hbelow =>
      obtain ⟨name, caption, key, properties, children⟩ := n
      refine ⟨_, hentry, ?_, rfl⟩
      constructor
      · exact hdimension
      · exact hhierarchy
      · exact ⟨level, hlevel, rfl⟩
      · rfl
      · rfl
      · rfl
      · exact hbelow
      · cases parent with
        | none => exact .inl ⟨rfl, rfl⟩
        | some pair =>
            obtain ⟨above, m⟩ := pair
            obtain ⟨p, hp, rfl, hmem⟩ := hlists above m rfl
            exact .inr ⟨above, p, rfl, rfl, hp, hmem⟩

theorem Forest.Top.seat (hdimension : cube.dimension? d.name = some d)
    (hhierarchy : d.hierarchy? h.name = some h) {first place : Nat} {m : Member}
    (htop : f.Top d.name h start roots (some (place, m)) first)
    (hall : f.HoldsAll d.name h (some (place, m)) first roots) :
    ∃ e, f.entries[place]? = some e ∧ f.Seat cube place e d h roots := by
  cases htop with
  | @all level hasAll hlevel hentry =>
      refine ⟨_, hentry, ?_⟩
      constructor
      · exact hdimension
      · exact hhierarchy
      · exact ⟨level, by rw [← hlevel, List.head?_eq_getElem?]; rfl, rfl⟩
      · rfl
      · rfl
      · rfl
      · exact hall
      · exact .inl ⟨rfl, rfl⟩

end Seats

namespace Forest

variable {f : Forest} {cube : Cube}

/-- Every place of a tree has an entry with a seat, and only the first may have the All member. -/
theorem HoldsTree.exists_seat {start stop place : Nat} {tree : MemberTree} {roots : HierarchyRoots}
    (htree : f.HoldsTree cube start tree roots stop) (hlow : start ≤ place) (hhigh : place < stop) :
    ∃ e, f.entries[place]? = some e ∧ (∃ d h nodes, f.Seat cube place e d h nodes) ∧
      (e.member.allMember = true → roots.allMember = some place) := by
  cases htree with
  | @intro d h top first hd hh htop hall =>
      have hdimension : cube.dimension? d.name = some d := by
        rwa [(Cube.dimension?_spec hd).2]
      have hhierarchy := Dimension.hierarchy?_of_hierarchyOrDefault? hh
      obtain ⟨m, rfl⟩ | ⟨parent, n, hn⟩ := htop.exists_origin hall hlow hhigh
      · obtain ⟨e, he, hseat⟩ := htop.seat hdimension hhierarchy hall
        exact ⟨e, he, ⟨d, h, tree.members, hseat⟩, fun _ => rfl⟩
      · obtain ⟨e, he, hseat, hplain⟩ :=
          (hn.holds hall).seat hdimension hhierarchy (hn.lists hall fun p hp => htop.lists hp)
        exact ⟨e, he, ⟨d, h, n.children, hseat⟩, by simp [hplain]⟩

theorem HoldsTrees.exists_tree {start last place : Nat} {trees : List MemberTree}
    {roots : List HierarchyRoots} (htrees : f.HoldsTrees cube start trees roots last)
    (hlow : start ≤ place) (hhigh : place < last) :
    ∃ start', ∃ tree ∈ trees, ∃ r ∈ roots, ∃ stop, f.HoldsTree cube start' tree r stop ∧
      start' ≤ place ∧ place < stop := by
  induction htrees with
  | nil start => omega
  | @cons start stop last tree trees r rest hfirst hrest ih =>
      by_cases hplace : place < stop
      · exact ⟨start, tree, List.mem_cons_self, r, List.mem_cons_self, stop, hfirst, hlow, hplace⟩
      · obtain ⟨start', tree', htree', r', hr', found⟩ := ih (by omega) hhigh
        exact ⟨start', tree', List.mem_cons_of_mem _ htree', r', List.mem_cons_of_mem _ hr', found⟩

theorem HoldsTrees.exists_seat {trees : List MemberTree} {roots : List HierarchyRoots}
    (htrees : f.HoldsTrees cube 0 trees roots f.entries.length) {place : Nat} {e : Entry}
    (he : f.entries[place]? = some e) :
    (∃ d h nodes, f.Seat cube place e d h nodes) ∧
      (e.member.allMember = true → ∃ r ∈ roots, r.allMember = some place) := by
  obtain ⟨hplace, _⟩ := List.getElem?_eq_some_iff.1 he
  obtain ⟨start, tree, _, r, hr, stop, htree, hlow, hhigh⟩ := htrees.exists_tree (by omega) hplace
  obtain ⟨e', he', hseat, hall⟩ := htree.exists_seat hlow hhigh
  rw [he, Option.some.injEq] at he'
  subst he'
  exact ⟨hseat, fun h => ⟨r, hr, hall h⟩⟩

end Forest

/-! ## Members and their children -/

/-- The first entry is that of a child of the second one, as far as the members say. -/
structure Entry.ChildOf (c p : Entry) : Prop where
  parentName : c.member.parentName = some p.member.fullName
  depth : c.member.depth = p.member.depth + 1
  dimension : c.member.level.dimension = p.member.level.dimension
  hierarchy : c.member.level.hierarchy = p.member.level.hierarchy

namespace Forest.Seat

variable {f : Forest} {cube : Cube} {place : Nat} {e : Entry} {d : Dimension} {h : Hierarchy}
  {nodes : List MemberNode}

/-- The places that an entry lists come after it, and hold its children. -/
theorem childOf (hseat : f.Seat cube place e d h nodes) {below : Nat} (hbelow : below ∈ e.children) :
    place < below ∧ ∃ c, f.entries[below]? = some c ∧ c.parent = some place ∧ c.ChildOf e := by
  rw [hseat.children] at hbelow
  have hbounds := bounds_of_mem_treePlaces hbelow
  obtain ⟨n, hn⟩ := exists_mem_zip_treePlaces hbelow
  obtain ⟨level, _, hlevel⟩ := hseat.level
  cases hseat.below.of_mem_zip hn with
  | node hlevel' hentry hrest =>
      obtain ⟨name, caption, key, properties, children⟩ := n
      refine ⟨by omega, _, hentry, rfl, ?_⟩
      constructor
      · rfl
      · rfl
      · rw [hlevel]
        rfl
      · rw [hlevel]
        rfl

theorem pairwise_children (hseat : f.Seat cube place e d h nodes) : e.children.Pairwise (· < ·) := by
  rw [hseat.children]
  exact pairwise_treePlaces (place + 1) nodes

theorem length_children (hseat : f.Seat cube place e d h nodes) :
    e.children.length = nodes.length := by
  rw [hseat.children, length_treePlaces]

end Forest.Seat

/-! ## Names -/

theorem Forest.exists_lastPlace {entries : List Entry} {place : Nat} {e : Entry}
    (he : entries[place]? = some e) :
    ∃ found, lastPlace e.member.fullName entries = some found ∧ place ≤ found := by
  induction entries generalizing place with
  | nil => simp at he
  | cons first rest ih =>
      cases place with
      | zero =>
          simp only [List.getElem?_cons_zero, Option.some.injEq] at he
          rw [lastPlace, he]
          split
          · exact ⟨_, rfl, Nat.zero_le _⟩
          · exact ⟨0, by simp, Nat.le_refl 0⟩
      | succ place =>
          obtain ⟨found, hfound, hle⟩ := ih (by simpa using he)
          rw [lastPlace, hfound]
          exact ⟨found + 1, rfl, by omega⟩

theorem Forest.named?_eq_some_iff {f : Forest} {name : String} {m : Member} :
    f.named? name = some m ↔
      ∃ place e, f.place? name = some place ∧ f.entries[place]? = some e ∧ e.member = m := by
  simp only [named?, member?, Option.bind_eq_some_iff, Option.map_eq_some_iff]
  constructor
  · intro h
    obtain ⟨place, hplace, e, he, hm⟩ := h
    exact ⟨place, e, hplace, he, hm⟩
  · intro h
    obtain ⟨place, e, hplace, he, hm⟩ := h
    exact ⟨place, hplace, e, he, hm⟩

theorem Forest.fullName_of_named? {f : Forest} {name : String} {m : Member} (h : f.named? name = some m) :
    m.fullName = name := by
  obtain ⟨place, e, hplace, he, rfl⟩ := named?_eq_some_iff.1 h
  obtain ⟨e', he', hname⟩ := lastPlace_spec hplace
  rw [he, Option.some.injEq] at he'
  rw [he', hname]

theorem Forest.mem_of_named? {f : Forest} {name : String} {m : Member} (h : f.named? name = some m) :
    ∃ e ∈ f.entries, e.member = m := by
  obtain ⟨place, e, -, he, hm⟩ := named?_eq_some_iff.1 h
  exact ⟨e, List.mem_of_getElem? he, hm⟩

/-- A name leads to an entry that has it, at or behind every other such entry. -/
theorem Forest.exists_named {f : Forest} {place : Nat} {e : Entry} (he : f.entries[place]? = some e) :
    ∃ found e', f.entries[found]? = some e' ∧ f.named? e.member.fullName = some e'.member ∧
      e'.member.fullName = e.member.fullName ∧ place ≤ found := by
  obtain ⟨found, hfound, hle⟩ := exists_lastPlace he
  obtain ⟨e', he', hname⟩ := lastPlace_spec hfound
  exact ⟨found, e', he', named?_eq_some_iff.2 ⟨found, e', hfound, he', rfl⟩, hname, hle⟩

/-! ## Tables that are forests -/

/-- The roots of a tree and its All member, which there is exactly if the hierarchy has an All level. -/
structure Forest.RootsOf (f : Forest) (cube : Cube) (tree : MemberTree) (roots : HierarchyRoots) :
    Prop where
  hierarchy : ∃ d h, cube.dimension? tree.dimension = some d ∧
    d.hierarchyOrDefault? tree.hierarchy = some h ∧ roots.dimension = d.name ∧
    roots.hierarchy = h.name ∧ roots.allMember.isSome = h.hasAll
  allMember : ∀ place, roots.allMember = some place →
    ∃ e, f.entries[place]? = some e ∧ e.member.allMember = true ∧ e.member.depth = 0 ∧
      e.member.parentName = none ∧ e.children = roots.roots

/-- The entry of a child is in exactly one list of children, once: in that of its parent, before it. -/
def Forest.ListedOnce (f : Forest) (place : Nat) (e : Entry) : Prop :=
  ∃ above p, above < place ∧ f.entries[above]? = some p ∧ e.ChildOf p ∧
    p.children.count place = 1 ∧
    ∀ (other : Nat) (o : Entry), f.entries[other]? = some o → place ∈ o.children → other = above

/-- The table of a cube is a forest: one table of members and of the places of their children. -/
structure Forest.WellFormed (f : Forest) (cube : Cube) (trees : List MemberTree) : Prop where
  /-- Every member lies on the level that its hierarchy has at its depth. -/
  level : ∀ e ∈ f.entries, ∃ d h level, cube.dimension? e.member.level.dimension = some d ∧
    d.hierarchy? e.member.level.hierarchy = some h ∧ h.levelAt? e.member.depth = some level ∧
    level.name = e.member.level.level
  counts : ∀ e ∈ f.entries, e.member.numChildren = e.children.length ∧
    (e.member.drillable = true ↔ e.children.length ≠ 0)
  parent : ∀ (place : Nat) (e : Entry), f.entries[place]? = some e →
    e.member.parentName.isSome = true → f.ListedOnce place e
  /-- A list of children holds nothing else, and in ascending order. -/
  children : ∀ e ∈ f.entries, e.children.Pairwise (· < ·) ∧
    ∀ place ∈ e.children, ∃ c, f.entries[place]? = some c ∧ c.ChildOf e
  /-- The places are those of the declared trees, every list of children in the order of declaration. -/
  places : f.HoldsTrees cube 0 trees f.hierarchies f.entries.length
  roots : List.Forall₂ (f.RootsOf cube) trees f.hierarchies
  allMember : ∀ (place : Nat) (e : Entry), f.entries[place]? = some e → e.member.allMember = true →
    ∃ roots ∈ f.hierarchies, roots.allMember = some place
  /-- Every unique name leads to a member that has it. -/
  named : ∀ e ∈ f.entries, ∃ m, f.named? e.member.fullName = some m ∧
    m.fullName = e.member.fullName

namespace Forest

variable {f : Forest} {cube : Cube}

theorem HoldsTree.rootsOf {start stop : Nat} {tree : MemberTree} {roots : HierarchyRoots}
    (htree : f.HoldsTree cube start tree roots stop) : f.RootsOf cube tree roots := by
  cases htree with
  | @intro d h top first hd hh htop hall =>
      cases htop with
      | bare hasAll =>
          exact ⟨⟨d, h, hd, hh, rfl, rfl, by simp [hasAll]⟩, fun place hplace => by cases hplace⟩
      | all hasAll hlevel hentry =>
          refine ⟨⟨d, h, hd, hh, rfl, rfl, by simp [hasAll]⟩, fun place hplace => ?_⟩
          cases hplace
          exact ⟨_, hentry, rfl, rfl, rfl, rfl⟩

theorem HoldsTrees.forall₂_rootsOf {start last : Nat} {trees : List MemberTree}
    {roots : List HierarchyRoots} (htrees : f.HoldsTrees cube start trees roots last) :
    List.Forall₂ (f.RootsOf cube) trees roots := by
  induction htrees with
  | nil start => exact .nil
  | cons hfirst hrest ih => exact .cons hfirst.rootsOf ih

theorem HoldsTrees.listedOnce {trees : List MemberTree} {roots : List HierarchyRoots}
    (htrees : f.HoldsTrees cube 0 trees roots f.entries.length) {place : Nat} {e : Entry}
    (he : f.entries[place]? = some e) (hparent : e.member.parentName.isSome = true) :
    f.ListedOnce place e := by
  obtain ⟨⟨d, h, nodes, hseat⟩, -⟩ := htrees.exists_seat he
  obtain ⟨-, hnone⟩ | ⟨above, p, habove, -, hp, hmem⟩ := hseat.parent
  · rw [hnone] at hparent
    cases hparent
  -- An entry names its parent by place, and each list that holds it agrees with that.
  have hchild : ∀ other o, f.entries[other]? = some o → place ∈ o.children →
      other < place ∧ e.parent = some other ∧ e.ChildOf o := by
    intro other o ho hplace
    obtain ⟨⟨d', h', nodes', hseat'⟩, -⟩ := htrees.exists_seat ho
    obtain ⟨hlt, c, hc, hcparent, hcchild⟩ := hseat'.childOf hplace
    rw [he, Option.some.injEq] at hc
    subst hc
    exact ⟨hlt, hcparent, hcchild⟩
  obtain ⟨hlt, -, hchildOf⟩ := hchild above p hp hmem
  obtain ⟨⟨d', h', nodes', hseat'⟩, -⟩ := htrees.exists_seat hp
  have hnodup : p.children.Nodup := hseat'.pairwise_children.imp fun hlt => Nat.ne_of_lt hlt
  refine ⟨above, p, hlt, hp, hchildOf, List.count_eq_one_of_mem hnodup hmem, ?_⟩
  intro other o ho hplace
  obtain ⟨-, hother, -⟩ := hchild other o ho hplace
  rw [habove, Option.some.injEq] at hother
  exact hother.symm

theorem wellFormed_of_ofTrees {trees : List MemberTree} (hrun : ofTrees cube trees = .ok f) :
    f.WellFormed cube trees := by
  have htrees := holdsTrees_of_ofTrees hrun
  constructor
  · intro e he
    obtain ⟨place, he⟩ := List.mem_iff_getElem?.1 he
    obtain ⟨⟨d, h, nodes, hseat⟩, -⟩ := htrees.exists_seat he
    obtain ⟨level, hlevel, href⟩ := hseat.level
    rw [href]
    exact ⟨d, h, level, hseat.dimension, hseat.hierarchy, hlevel, rfl⟩
  · intro e he
    obtain ⟨place, he⟩ := List.mem_iff_getElem?.1 he
    obtain ⟨⟨d, h, nodes, hseat⟩, -⟩ := htrees.exists_seat he
    rw [hseat.numChildren, hseat.drillable, hseat.length_children]
    exact ⟨rfl, by simp⟩
  · intro place e he hparent
    exact htrees.listedOnce he hparent
  · intro e he
    obtain ⟨place, he⟩ := List.mem_iff_getElem?.1 he
    obtain ⟨⟨d, h, nodes, hseat⟩, -⟩ := htrees.exists_seat he
    refine ⟨hseat.pairwise_children, fun below hbelow => ?_⟩
    obtain ⟨-, c, hc, -, hchildOf⟩ := hseat.childOf hbelow
    exact ⟨c, hc, hchildOf⟩
  · exact htrees
  · exact htrees.forall₂_rootsOf
  · intro place e he
    exact (htrees.exists_seat he).2
  · intro e he
    obtain ⟨place, he⟩ := List.mem_iff_getElem?.1 he
    obtain ⟨_, e', _, hnamed, hname, _⟩ := exists_named he
    exact ⟨e'.member, hnamed, hname⟩

end Forest

/-! ## Loaded catalogs -/

theorem table_eq_ok {s : CubeSource} {t : CubeTable} (hrun : s.table = .ok t) :
    t.cube = s.cube.completed ∧ Forest.ofTrees t.cube s.trees = .ok t.forest := by
  obtain ⟨f, hf, hrun⟩ := bind_eq_ok.1 hrun
  cases hrun
  exact ⟨rfl, hf⟩

theorem ofText_eq_ok {text : String} {c : Catalog} (hrun : Catalog.ofText text = .ok c) :
    ∃ source, (Json.scan text).bind Source.ofJson? = some source ∧
      source.cubes.mapM (·.table) = .ok c.tables := by
  rw [Catalog.ofText] at hrun
  split at hrun
  · rename_i j hj
    rw [Catalog.ofJson] at hrun
    split at hrun
    · rename_i source hsource
      obtain ⟨tables, htables, hrun⟩ := bind_eq_ok.1 hrun
      obtain ⟨answers, _, hrun⟩ := bind_eq_ok.1 hrun
      cases hrun
      exact ⟨source, by rw [hj, Option.bind_some, hsource], htables⟩
    · cases hrun
  · cases hrun

theorem ofText_ofList (cs : List Char) :
    Catalog.ofText (String.ofList cs) =
      ((Json.value (cs.length + 1) Json.maxDepth (Json.skipGap cs)).bind fun (v, rest) =>
        if (Json.skipGap rest).isEmpty then some v else none).elim (.error .undecodable)
          Catalog.ofJson := by
  rw [Catalog.ofText, Json.scan_ofList]
  cases (Json.value (cs.length + 1) Json.maxDepth (Json.skipGap cs)).bind fun (v, rest) =>
    if (Json.skipGap rest).isEmpty then some v else none <;> rfl

theorem exists_source_of_table? {text : String} {c : Catalog} (hload : Catalog.ofText text = .ok c)
    {name : String} {t : CubeTable} (htable : c.table? name = some t) :
    t.cube.name = name ∧ ∃ (source : Cube) (trees : List MemberTree),
      t.cube = source.completed ∧ t.forest.WellFormed t.cube trees := by
  obtain ⟨source, _, htables⟩ := ofText_eq_ok hload
  obtain ⟨s, _, hs⟩ := exists_of_mem_mapM htables (List.mem_of_find?_eq_some htable)
  obtain ⟨hcube, hforest⟩ := table_eq_ok hs
  have hname : t.cube.name = name := by simpa using List.find?_some htable
  exact ⟨hname, s.cube, s.trees, hcube, Forest.wellFormed_of_ofTrees hforest⟩

/-- Every cube of a catalog that loads has a well-formed table of the trees that the text declares. -/
theorem ofText_wellFormed (text : String) (c : Catalog) (h : Catalog.ofText text = .ok c) :
    ∃ source, (Json.scan text).bind Source.ofJson? = some source ∧
      List.Forall₂ (fun s t => t.cube = s.cube.completed ∧ t.forest.WellFormed t.cube s.trees)
        source.cubes c.tables := by
  obtain ⟨source, hsource, htables⟩ := ofText_eq_ok h
  refine ⟨source, hsource, (mapM_eq_ok.1 htables).imp fun s t hrun => ?_⟩
  obtain ⟨hcube, hforest⟩ := table_eq_ok hrun
  exact ⟨hcube, Forest.wellFormed_of_ofTrees hforest⟩

def statesText : String :=
  "\x7b\"cubes\": [\x7b\"name\": \"Sales\", \"measures\": [], \"dimensions\": [\x7b\"name\": \"Store\", \"hierarchies\": [
    \x7b\"name\": \"Store\", \"has_all\": true,
     \"levels\": [\x7b\"name\": \"All\"\x7d, \x7b\"name\": \"State\"\x7d, \x7b\"name\": \"City\"\x7d]\x7d]\x7d],
    \"members\": [\x7b\"dimension\": \"Store\", \"members\": [
      \x7b\"name\": \"CA\", \"children\": [\x7b\"name\": \"Napa\"\x7d]\x7d, \x7b\"name\": \"OR\"\x7d]\x7d]\x7d]\x7d"

/-- The states are below an All member, and are listed before and behind the city. -/
theorem ofText_wellFormed_states :
    ∃ c, Catalog.ofText statesText = .ok c ∧
      c.tables.map (fun t => t.forest.entries.map fun e => (e.member.fullName, e.children)) =
        [[("[Store].[All Stores]", [1, 3]), ("[Store].[CA]", [2]), ("[Store].[CA].[Napa]", []),
          ("[Store].[OR]", [])]] ∧
      ∃ source, (Json.scan statesText).bind Source.ofJson? = some source ∧
        List.Forall₂ (fun s t => t.cube = s.cube.completed ∧ t.forest.WellFormed t.cube s.trees)
          source.cubes c.tables := by
  have hload : (Catalog.ofText statesText).toOption.map (fun c => c.tables.map fun t =>
      t.forest.entries.map fun e => (e.member.fullName, e.children)) =
        some [[("[Store].[All Stores]", [1, 3]), ("[Store].[CA]", [2]), ("[Store].[CA].[Napa]", []),
          ("[Store].[OR]", [])]] := by
    rw [statesText, ofText_ofList]
    decide +kernel
  obtain ⟨c, hc, htables⟩ := Option.map_eq_some_iff.1 hload
  have hload := toOption_eq_some_iff.1 hc
  exact ⟨c, hload, htables, ofText_wellFormed statesText c hload⟩

end CubeQuery.Catalog
