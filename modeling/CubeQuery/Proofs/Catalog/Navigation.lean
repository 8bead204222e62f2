import CubeQuery.Proofs.Catalog.Paths

/-!
# Navigation along the declared trees

A lineage is a line of declared nodes from one node up to a root. Every entry of a loaded table is the
member at the lower end of a lineage, and every lineage has such an entry. Where no two members have
one name, the ancestors of a member are the members further up its lineage, and its children are those
of the nodes that prolong it (`navigation_follows_trees`).
-/

namespace CubeQuery.Catalog

/-! ## Lineages -/

/-- The nodes that a lineage can be prolonged by: the roots, or the children of its lowest node. -/
def nodesBelow (roots : List MemberNode) : List MemberNode → List MemberNode
  | [] => roots
  | n :: _ => n.children

/-- The nodes lead from the first one up to a root, each of them to its parent. -/
inductive IsLineage (roots : List MemberNode) : List MemberNode → Prop where
  | nil : IsLineage roots []
  | cons {n : MemberNode} {above : List MemberNode} (hmem : n ∈ nodesBelow roots above)
      (habove : IsLineage roots above) : IsLineage roots (n :: above)

/-- The member at the lower end of a lineage; above all nodes there is the All member, if the hierarchy
has one. -/
def lineageMember? (dimension : String) (h : Hierarchy) (roots : List MemberNode) :
    List MemberNode → Option Member
  | [] => if h.hasAll then h.levels.head?.map fun level => allMemberOf dimension h level roots else none
  | n :: above =>
    let parent := lineageMember? dimension h roots above
    (h.levelAt? (depthBelow h parent)).map fun level => nodeMember dimension h parent level n

/-- The members above the lower end of a lineage, nearest first and the All member last. -/
def membersAbove (dimension : String) (h : Hierarchy) (roots : List MemberNode) :
    List MemberNode → List Member
  | [] => []
  | _ :: above =>
    (lineageMember? dimension h roots above).toList ++ membersAbove dimension h roots above

/-! ## Lineages in a table -/

section Lineages

variable {f : Forest} {dimension : String} {h : Hierarchy} {roots : List MemberNode}
  {top : Option (Nat × Member)} {start first : Nat}

theorem Forest.Top.lineageMember?_nil (htop : f.Top dimension h start roots top first) :
    lineageMember? dimension h roots [] = top.map (·.2) := by
  cases htop with
  | all hasAll hlevel hentry => simp [lineageMember?, hasAll, hlevel]
  | bare hasAll => simp [lineageMember?, hasAll]

/-- What stands in the table at the lower end of a lineage, and the place from which the trees of the
nodes that prolong it follow. -/
structure Forest.Ends (f : Forest) (dimension : String) (h : Hierarchy) (roots : List MemberNode)
    (lineage : List MemberNode) (parent : Option (Nat × Member)) (first : Nat) : Prop where
  member : lineageMember? dimension h roots lineage = parent.map (·.2)
  below : f.HoldsAll dimension h parent first (nodesBelow roots lineage)
  entry : ∀ place m, parent = some (place, m) → ∃ e, f.entries[place]? = some e ∧ e.member = m ∧
    e.children = treePlaces first (nodesBelow roots lineage)
  isSome : lineage ≠ [] → parent.isSome = true

theorem Forest.Top.ends (htop : f.Top dimension h start roots top first)
    (hall : f.HoldsAll dimension h top first roots) : f.Ends dimension h roots [] top first where
  member := htop.lineageMember?_nil
  below := hall
  entry := by
    rintro place m rfl
    obtain ⟨rfl, -, -, -, -, hentry⟩ := htop.spec
    exact ⟨_, hentry, rfl, rfl⟩
  isSome := by simp

/-- A node that prolongs a lineage stands below its end. -/
theorem Forest.Ends.cons {lineage : List MemberNode} {parent : Option (Nat × Member)}
    (hends : f.Ends dimension h roots lineage parent first) {n : MemberNode}
    (hmem : n ∈ nodesBelow roots lineage) :
    ∃ place m, f.Ends dimension h roots (n :: lineage) (some (place, m)) (place + 1) := by
  obtain ⟨i, hi, rfl⟩ := List.mem_iff_getElem.1 hmem
  have hzip :
      i < ((treePlaces first (nodesBelow roots lineage)).zip (nodesBelow roots lineage)).length := by
    rwa [List.length_zip, length_treePlaces, Nat.min_self]
  have hpair := List.getElem_mem hzip
  rw [List.getElem_zip] at hpair
  cases hends.below.of_mem_zip hpair with
  | @node _ place n level hlevel hentry hbelow =>
      refine ⟨_, _, ?_, hbelow, ?_, fun _ => rfl⟩
      · rw [lineageMember?, hends.member, hlevel]
        rfl
      · rintro _ _ ⟨⟩
        exact ⟨_, hentry, rfl, rfl⟩

theorem Forest.Top.exists_ends (htop : f.Top dimension h start roots top first)
    (hall : f.HoldsAll dimension h top first roots) {lineage : List MemberNode}
    (hlineage : IsLineage roots lineage) :
    ∃ parent next, f.Ends dimension h roots lineage parent next := by
  induction hlineage with
  | nil => exact ⟨top, first, htop.ends hall⟩
  | cons hmem _ ih =>
      obtain ⟨parent, next, hends⟩ := ih
      obtain ⟨place, m, hcons⟩ := hends.cons hmem
      exact ⟨_, _, hcons⟩

/-- Every node of a tree stands at the lower end of a lineage. -/
theorem Stands.exists_lineage (htop : f.Top dimension h start roots top first)
    {parent : Option (Nat × Member)} {place : Nat} {n : MemberNode}
    (hstands : Stands dimension h top first roots parent place n) :
    ∃ above, IsLineage roots (n :: above) ∧
      lineageMember? dimension h roots above = parent.map (·.2) := by
  induction hstands with
  | root hmem =>
      exact ⟨[], .cons (List.of_mem_zip hmem).2 .nil, htop.lineageMember?_nil⟩
  | @child parent _ _ n _ level _ hlevel hmem ih =>
      obtain ⟨above, hlineage, hparent⟩ := ih
      refine ⟨n :: above, .cons (List.of_mem_zip hmem).2 hlineage, ?_⟩
      rw [lineageMember?, hparent, hlevel]
      rfl

/-- Every entry of a tree is the member at the lower end of a lineage. -/
theorem Forest.Top.exists_lineage (htop : f.Top dimension h start roots top first)
    (hall : f.HoldsAll dimension h top first roots) {place : Nat} {e : Entry}
    (he : f.entries[place]? = some e) (hlow : start ≤ place)
    (hhigh : place < first + MemberNode.weights roots) :
    ∃ lineage, IsLineage roots lineage ∧
      lineageMember? dimension h roots lineage = some e.member := by
  obtain ⟨m, rfl⟩ | ⟨parent, n, hn⟩ := htop.exists_origin hall hlow hhigh
  · refine ⟨[], .nil, ?_⟩
    obtain ⟨rfl, -, -, -, -, hentry⟩ := htop.spec
    rw [he, Option.some.injEq] at hentry
    rw [htop.lineageMember?_nil, hentry]
    rfl
  · obtain ⟨above, hlineage, hparent⟩ := hn.exists_lineage htop
    obtain ⟨level, hlevel, hentry⟩ := hn.exists_entry hall
    rw [he, Option.some.injEq] at hentry
    refine ⟨n :: above, hlineage, ?_⟩
    rw [lineageMember?, hparent, hlevel, hentry]
    rfl

/-! ## Members along a lineage -/

theorem Forest.Ends.eq_nil {lineage : List MemberNode} {parent : Option (Nat × Member)}
    (hends : f.Ends dimension h roots lineage parent first)
    (hnone : lineageMember? dimension h roots lineage = none) : lineage = [] := by
  by_contra hne
  have hsome := hends.isSome hne
  rw [hends.member, Option.map_eq_none_iff] at hnone
  simp [hnone] at hsome

theorem Forest.Ends.exists_entry {lineage : List MemberNode} {parent : Option (Nat × Member)}
    (hends : f.Ends dimension h roots lineage parent first) {m : Member}
    (hm : lineageMember? dimension h roots lineage = some m) :
    ∃ place e, parent = some (place, m) ∧ f.entries[place]? = some e ∧ e.member = m ∧
      e.children = treePlaces first (nodesBelow roots lineage) := by
  rw [hends.member, Option.map_eq_some_iff] at hm
  obtain ⟨⟨place, _⟩, rfl, rfl⟩ := hm
  obtain ⟨e, he⟩ := hends.entry place _ rfl
  exact ⟨place, e, rfl, he⟩

/-- The walk from the member of a lineage leads over the members above it. -/
theorem Forest.Top.walk_membersAbove (htop : f.Top dimension h start roots top first)
    (hall : f.HoldsAll dimension h top first roots) (hnames : f.NamesApart)
    {lineage : List MemberNode} (hlineage : IsLineage roots lineage) {m : Member}
    (hm : lineageMember? dimension h roots lineage = some m) :
    f.Walk m.parentName (membersAbove dimension h roots lineage) := by
  induction hlineage generalizing m with
  | nil =>
      rw [htop.lineageMember?_nil, Option.map_eq_some_iff] at hm
      obtain ⟨⟨place, _⟩, rfl, rfl⟩ := hm
      obtain ⟨-, -, -, -, hroot, -⟩ := htop.spec
      rw [hroot]
      exact .stop rfl
  | @cons n above hmem habove ih =>
      obtain ⟨parent, next, hends⟩ := htop.exists_ends hall habove
      rw [lineageMember?, Option.map_eq_some_iff] at hm
      obtain ⟨level, -, rfl⟩ := hm
      rw [parentName_nodeMember, membersAbove]
      cases hparent : lineageMember? dimension h roots above with
      | none =>
          obtain rfl := hends.eq_nil hparent
          exact .stop rfl
      | some p =>
          obtain ⟨place, e, -, he, rfl, -⟩ := hends.exists_entry hparent
          exact .step (hnames.named? he) (ih hparent)

/-- From a member up the depths are all the smaller ones. -/
theorem Forest.Top.depths_membersAbove (htop : f.Top dimension h start roots top first)
    (hall : f.HoldsAll dimension h top first roots) {lineage : List MemberNode}
    (hlineage : IsLineage roots lineage) {m : Member}
    (hm : lineageMember? dimension h roots lineage = some m) :
    (membersAbove dimension h roots lineage).map (·.depth) = (List.range m.depth).reverse := by
  induction hlineage generalizing m with
  | nil =>
      rw [htop.lineageMember?_nil, Option.map_eq_some_iff] at hm
      obtain ⟨⟨place, _⟩, rfl, rfl⟩ := hm
      obtain ⟨-, -, -, hdepth, -, -⟩ := htop.spec
      rw [hdepth]
      rfl
  | @cons n above hmem habove ih =>
      obtain ⟨parent, next, hends⟩ := htop.exists_ends hall habove
      rw [lineageMember?, Option.map_eq_some_iff] at hm
      obtain ⟨level, -, rfl⟩ := hm
      rw [depth_nodeMember, membersAbove]
      cases hparent : lineageMember? dimension h roots above with
      | none =>
          -- Nothing is above the roots only where there is no All level, and then they have depth 0.
          obtain rfl := hends.eq_nil hparent
          rw [htop.lineageMember?_nil, Option.map_eq_none_iff] at hparent
          subst hparent
          cases htop with
          | bare hasAll => simp [depthBelow, Hierarchy.firstRealDepth, hasAll, membersAbove]
      | some p =>
          rw [Option.toList_some, List.singleton_append, List.map_cons, ih hparent, depthBelow,
            List.range_succ, List.reverse_append]
          rfl

theorem Forest.HoldsAll.map_member? {parent : Option (Nat × Member)} {nodes : List MemberNode}
    (hall : f.HoldsAll dimension h parent first nodes) :
    ((treePlaces first nodes).filterMap f.member?).map some = nodes.map fun n =>
      (h.levelAt? (depthBelow h (parent.map (·.2)))).map fun level =>
        nodeMember dimension h (parent.map (·.2)) level n := by
  induction nodes generalizing first with
  | nil => rfl
  | cons n rest ih =>
      cases hall with
      | cons hfirst hrest =>
          cases hfirst with
          | @node _ _ _ level hlevel hentry hbelow =>
              have hmember : f.member? first =
                  some (nodeMember dimension h (parent.map (·.2)) level n) := by
                rw [Forest.member?, hentry, Option.map_some]
              rw [treePlaces, List.filterMap_cons_some hmember, List.map_cons, List.map_cons, ih hrest,
                hlevel, Option.map_some]

theorem Forest.NamesApart.children_eq (hnames : f.NamesApart) {place : Nat} {e : Entry}
    (he : f.entries[place]? = some e) : f.children e.member = e.children.filterMap f.member? := by
  obtain ⟨found, hfound, -⟩ := Forest.exists_lastPlace he
  obtain ⟨e', he', hname⟩ := Forest.lastPlace_spec hfound
  have hsame : e' = e := List.inj_on_of_nodup_map hnames (List.mem_of_getElem? he')
    (List.mem_of_getElem? he) hname
  rw [Forest.children, Forest.place?, hfound, Option.bind_some, he', hsame]

/-- The children of the member of a lineage are those of the nodes that prolong it. -/
theorem Forest.Top.children_eq (htop : f.Top dimension h start roots top first)
    (hall : f.HoldsAll dimension h top first roots) (hnames : f.NamesApart)
    {lineage : List MemberNode} (hlineage : IsLineage roots lineage) {m : Member}
    (hm : lineageMember? dimension h roots lineage = some m) :
    (f.children m).map some =
      (nodesBelow roots lineage).map fun n => lineageMember? dimension h roots (n :: lineage) := by
  obtain ⟨parent, next, hends⟩ := htop.exists_ends hall hlineage
  obtain ⟨place, e, rfl, he, rfl, hchildren⟩ := hends.exists_entry hm
  rw [hnames.children_eq he, hchildren, hends.below.map_member?]
  simp only [lineageMember?, hm, Option.map_some]

end Lineages

/-! ## Navigation -/

namespace Forest

structure FollowsTree (f : Forest) (dimension : String) (h : Hierarchy) (roots : List MemberNode) :
    Prop where
  /-- Every node has its member in the table, and an All level its All member. -/
  member : ∀ lineage, IsLineage roots lineage → lineage ≠ [] ∨ h.hasAll = true →
    ∃ e ∈ f.entries, lineageMember? dimension h roots lineage = some e.member
  /-- The ancestors of a member are the path of the tree from its parent up to the root. -/
  ancestors : ∀ lineage m, IsLineage roots lineage →
    lineageMember? dimension h roots lineage = some m →
    f.ancestors? m = some (membersAbove dimension h roots lineage) ∧
      (membersAbove dimension h roots lineage).length = m.depth ∧
      (membersAbove dimension h roots lineage).map (·.depth) = (List.range m.depth).reverse
  /-- The children of a member are the members of the child nodes, in the order of declaration. -/
  children : ∀ lineage m, IsLineage roots lineage →
    lineageMember? dimension h roots lineage = some m →
    (f.children m).map some =
      (nodesBelow roots lineage).map fun n => lineageMember? dimension h roots (n :: lineage)

/-- Navigation follows the trees of a cube, and no member is outside of them. -/
structure FollowsTrees (f : Forest) (cube : Cube) (trees : List MemberTree) : Prop where
  tree : ∀ tree ∈ trees, ∃ d h, cube.dimension? tree.dimension = some d ∧
    d.hierarchyOrDefault? tree.hierarchy = some h ∧ f.FollowsTree d.name h tree.members
  lineage : ∀ e ∈ f.entries, ∃ tree ∈ trees, ∃ d h lineage,
    cube.dimension? tree.dimension = some d ∧ d.hierarchyOrDefault? tree.hierarchy = some h ∧
      IsLineage tree.members lineage ∧
      lineageMember? d.name h tree.members lineage = some e.member
  /-- The children of a member are the members whose first ancestor it is. -/
  parent : ∀ x ∈ f.entries, ∀ p ∈ f.entries, x.member ∈ f.children p.member ↔
    (f.ancestors? x.member).bind (·.head?) = some p.member

variable {f : Forest} {cube : Cube} {trees : List MemberTree}

theorem Top.followsTree {dimension : String} {h : Hierarchy} {roots : List MemberNode}
    {top : Option (Nat × Member)} {start first : Nat}
    (htop : f.Top dimension h start roots top first)
    (hall : f.HoldsAll dimension h top first roots) (hnames : f.NamesApart) :
    f.FollowsTree dimension h roots where
  member lineage hlineage hsome := by
    obtain ⟨parent, next, hends⟩ := htop.exists_ends hall hlineage
    cases hm : lineageMember? dimension h roots lineage with
    | some m =>
        obtain ⟨place, e, -, he, rfl, -⟩ := hends.exists_entry hm
        exact ⟨e, List.mem_of_getElem? he, rfl⟩
    | none =>
        obtain rfl := hends.eq_nil hm
        obtain hne | hasAll := hsome
        · exact absurd rfl hne
        · rw [htop.lineageMember?_nil, Option.map_eq_none_iff] at hm
          subst hm
          cases htop with
          | bare hasNone => simp [hasAll] at hasNone
  ancestors lineage m hlineage hm := by
    have hdepths := htop.depths_membersAbove hall hlineage hm
    refine ⟨ancestors?_eq_some_iff.2 (htop.walk_membersAbove hall hnames hlineage hm), ?_, hdepths⟩
    simpa using congrArg List.length hdepths
  children lineage m hlineage hm := htop.children_eq hall hnames hlineage hm

theorem HoldsTrees.exists_of_mem {start last : Nat} {roots : List HierarchyRoots}
    (htrees : f.HoldsTrees cube start trees roots last) {tree : MemberTree} (hmem : tree ∈ trees) :
    ∃ start' r stop, f.HoldsTree cube start' tree r stop := by
  induction htrees with
  | nil start => cases hmem
  | cons hfirst _ ih =>
      obtain rfl | hmem := List.mem_cons.1 hmem
      · exact ⟨_, _, _, hfirst⟩
      · exact ih hmem

section FollowsTree

variable {dimension : String} {h : Hierarchy} {roots lineage : List MemberNode}

theorem FollowsTree.mem_children_iff (hf : f.FollowsTree dimension h roots)
    (hlineage : IsLineage roots lineage) {p x : Member}
    (hp : lineageMember? dimension h roots lineage = some p) :
    x ∈ f.children p ↔
      ∃ n ∈ nodesBelow roots lineage, lineageMember? dimension h roots (n :: lineage) = some x := by
  have hmem : x ∈ f.children p ↔ some x ∈ (f.children p).map some := by simp
  rw [hmem, hf.children lineage p hlineage hp, List.mem_map]

theorem FollowsTree.head?_membersAbove (hf : f.FollowsTree dimension h roots)
    (hlineage : IsLineage roots lineage) (n : MemberNode) :
    (membersAbove dimension h roots (n :: lineage)).head? =
      lineageMember? dimension h roots lineage := by
  rw [membersAbove]
  cases hm : lineageMember? dimension h roots lineage with
  | some m => rfl
  | none =>
      cases hlineage with
      | nil => rfl
      | cons hmem habove =>
          obtain ⟨e, -, he⟩ := hf.member _ (.cons hmem habove) (.inl (List.cons_ne_nil _ _))
          rw [hm] at he
          cases he

end FollowsTree

theorem WellFormed.followsTrees (hf : f.WellFormed cube trees) (hnames : f.NamesApart) :
    f.FollowsTrees cube trees := by
  have hentry : ∀ e ∈ f.entries, ∃ tree ∈ trees, ∃ d h lineage,
      cube.dimension? tree.dimension = some d ∧ d.hierarchyOrDefault? tree.hierarchy = some h ∧
        IsLineage tree.members lineage ∧
        lineageMember? d.name h tree.members lineage = some e.member ∧
        f.FollowsTree d.name h tree.members := by
    intro e he
    obtain ⟨place, he⟩ := List.mem_iff_getElem?.1 he
    obtain ⟨hplace, _⟩ := List.getElem?_eq_some_iff.1 he
    obtain ⟨start, tree, hmem, r, _, stop, hholds, hlow, hhigh⟩ :=
      hf.places.exists_tree (Nat.zero_le place) hplace
    cases hholds with
    | intro hd hh htop hall =>
        obtain ⟨lineage, hlineage, hmember⟩ := htop.exists_lineage hall he hlow hhigh
        exact ⟨tree, hmem, _, _, lineage, hd, hh, hlineage, hmember, htop.followsTree hall hnames⟩
  constructor
  · intro tree hmem
    obtain ⟨start, r, stop, hholds⟩ := hf.places.exists_of_mem hmem
    cases hholds with
    | intro hd hh htop hall => exact ⟨_, _, hd, hh, htop.followsTree hall hnames⟩
  · intro e he
    obtain ⟨tree, hmem, d, h, lineage, hd, hh, hlineage, hmember, -⟩ := hentry e he
    exact ⟨tree, hmem, d, h, lineage, hd, hh, hlineage, hmember⟩
  · intro x hx p hp
    constructor
    · intro hchild
      obtain ⟨tree, -, d, h, lineage, -, -, hlineage, hmember, hfollows⟩ := hentry p hp
      obtain ⟨n, hn, hx⟩ := (hfollows.mem_children_iff hlineage hmember).1 hchild
      obtain ⟨hancestors, -⟩ := hfollows.ancestors _ _ (.cons hn hlineage) hx
      rw [hancestors, Option.bind_some, hfollows.head?_membersAbove hlineage, hmember]
    · intro hfirst
      obtain ⟨tree, -, d, h, lineage, -, -, hlineage, hmember, hfollows⟩ := hentry x hx
      obtain ⟨hancestors, -⟩ := hfollows.ancestors lineage _ hlineage hmember
      rw [hancestors, Option.bind_some] at hfirst
      cases hlineage with
      | nil => cases hfirst
      | cons hn habove =>
          rw [hfollows.head?_membersAbove habove] at hfirst
          exact (hfollows.mem_children_iff habove hfirst).2 ⟨_, hn, hmember⟩

end Forest

/-- Every cube of a catalog that loads is navigated along the trees that the text declares, if no two of
its members have one unique name. -/
theorem navigation_follows_trees (text : String) (c : Catalog) (h : Catalog.ofText text = .ok c) :
    ∃ source, (Json.scan text).bind Source.ofJson? = some source ∧
      List.Forall₂ (fun s t => t.cube = s.cube.completed ∧
          (t.forest.NamesApart → t.forest.FollowsTrees t.cube s.trees))
        source.cubes c.tables := by
  obtain ⟨source, hsource, htables⟩ := ofText_eq_ok h
  refine ⟨source, hsource, (mapM_eq_ok.1 htables).imp fun s t hrun => ?_⟩
  obtain ⟨hcube, hforest⟩ := table_eq_ok hrun
  exact ⟨hcube, (Forest.wellFormed_of_ofTrees hforest).followsTrees⟩

/-- The city has its state and the All member above it; the All member has both states as children. -/
theorem navigation_follows_trees_states :
    ∃ c source s t, Catalog.ofText statesText = .ok c ∧
      (Json.scan statesText).bind Source.ofJson? = some source ∧ source.cubes = [s] ∧ c.tables = [t] ∧
      t.forest.NamesApart ∧ t.forest.FollowsTrees t.cube s.trees ∧
      (t.forest.entries.map fun e => (e.member.name,
        (t.forest.ancestors? e.member).map (·.map (·.name)),
        (t.forest.children e.member).map (·.name))) =
        [("All Stores", some [], ["CA", "OR"]), ("CA", some ["All Stores"], ["Napa"]),
          ("Napa", some ["CA", "All Stores"], []), ("OR", some ["All Stores"], [])] := by
  have hload : (Catalog.ofText statesText).toOption.map (fun c => c.tables.map fun t =>
      decide (t.forest.NamesApart ∧ (t.forest.entries.map fun e => (e.member.name,
        (t.forest.ancestors? e.member).map (·.map (·.name)),
        (t.forest.children e.member).map (·.name))) =
        [("All Stores", some [], ["CA", "OR"]), ("CA", some ["All Stores"], ["Napa"]),
          ("Napa", some ["CA", "All Stores"], []), ("OR", some ["All Stores"], [])])) =
        some [true] := by
    rw [statesText, ofText_ofList]
    decide +kernel
  obtain ⟨c, hc, htables⟩ := Option.map_eq_some_iff.1 hload
  have hc := toOption_eq_some_iff.1 hc
  obtain ⟨t, ht, hvalues⟩ := List.map_eq_singleton_iff.1 htables
  obtain ⟨hnames, hvalues⟩ := of_decide_eq_true hvalues
  obtain ⟨source, hsource, hall⟩ := navigation_follows_trees statesText c hc
  rw [ht] at hall
  obtain ⟨s, rest, ⟨-, hfollows⟩, hrest, hs⟩ := List.forall₂_cons_right_iff.1 hall
  rw [List.forall₂_nil_right_iff.1 hrest] at hs
  exact ⟨c, source, s, t, hc, hsource, hs, ht, hnames, hfollows hnames, hvalues⟩

end CubeQuery.Catalog
