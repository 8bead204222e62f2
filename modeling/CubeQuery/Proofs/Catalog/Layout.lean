import Mathlib.Data.List.Pairwise
import CubeQuery.Catalog.Forest
import CubeQuery.Proofs.Outcome

/-!
# Trees in a table

A tree that has been entered takes consecutive places of the table (`Forest.Holds`): a node, and behind
it the trees of its children in order. Every place of the table belongs to a node of one of the trees,
which stands below the node that lists the place (`Forest.HoldsAll.exists_stands`).
-/

namespace CubeQuery.Catalog

/-! ## Places of consecutive trees -/

theorem MemberNode.weight_eq (n : MemberNode) : n.weight = MemberNode.weights n.children + 1 := by
  cases n with
  | node name caption key properties children => rfl

theorem length_treePlaces (index : Nat) (nodes : List MemberNode) :
    (treePlaces index nodes).length = nodes.length := by
  induction nodes generalizing index with
  | nil => rfl
  | cons n rest ih => simp [treePlaces, ih]

theorem bounds_of_mem_treePlaces {index place : Nat} {nodes : List MemberNode}
    (h : place ∈ treePlaces index nodes) :
    index ≤ place ∧ place < index + MemberNode.weights nodes := by
  induction nodes generalizing index with
  | nil => simp [treePlaces] at h
  | cons n rest ih =>
      have hweight := n.weight_eq
      rw [MemberNode.weights]
      obtain rfl | h := List.mem_cons.1 h
      · omega
      · have hrest := ih h
        omega

theorem exists_mem_zip_treePlaces {first place : Nat} {nodes : List MemberNode}
    (hmem : place ∈ treePlaces first nodes) : ∃ n, (place, n) ∈ (treePlaces first nodes).zip nodes := by
  obtain ⟨i, hi, hplace⟩ := List.getElem_of_mem hmem
  have hi' : i < nodes.length := by rwa [length_treePlaces] at hi
  have hzip : i < ((treePlaces first nodes).zip nodes).length := by
    rw [List.length_zip]
    omega
  refine ⟨nodes[i], List.mem_iff_getElem.2 ⟨i, hzip, ?_⟩⟩
  rw [List.getElem_zip, hplace]

theorem pairwise_treePlaces (index : Nat) (nodes : List MemberNode) :
    (treePlaces index nodes).Pairwise (· < ·) := by
  induction nodes generalizing index with
  | nil => exact .nil
  | cons n rest ih =>
      refine .cons (fun place hplace => ?_) (ih _)
      have hbounds := bounds_of_mem_treePlaces hplace
      have hweight := n.weight_eq
      omega

/-! ## Members of nodes -/

section NodeMember

variable (dimension : String) (h : Hierarchy) (parent : Option Member) (level : Level) (n : MemberNode)

theorem fullName_nodeMember :
    (nodeMember dimension h parent level n).fullName = generatedFullName h parent n.name := by
  cases n with
  | node name caption key properties children => rfl

theorem depth_nodeMember : (nodeMember dimension h parent level n).depth = depthBelow h parent := by
  cases n with
  | node name caption key properties children => rfl

theorem allMember_nodeMember : (nodeMember dimension h parent level n).allMember = false := by
  cases n with
  | node name caption key properties children => rfl

theorem parentName_nodeMember :
    (nodeMember dimension h parent level n).parentName = parent.map (·.fullName) := by
  cases n with
  | node name caption key properties children => rfl

end NodeMember

/-! ## Entering a tree -/

section Enter

variable {dimension : String} {h : Hierarchy} {parent : Option (Nat × Member)} {index : Nat}
  {entries : List Entry}

theorem enterNode_eq_ok {n : MemberNode} :
    enterNode dimension h parent index n = .ok entries ↔
      ∃ level below, h.levelAt? (depthBelow h (parent.map (·.2))) = some level ∧
        enterNodes dimension h (some (index, nodeMember dimension h (parent.map (·.2)) level n))
          (index + 1) n.children = .ok below ∧
        entries = ⟨nodeMember dimension h (parent.map (·.2)) level n, parent.map (·.1),
          treePlaces (index + 1) n.children⟩ :: below := by
  obtain ⟨name, caption, key, properties, children⟩ := n
  rw [enterNode, MemberNode.children]
  cases hlevel : h.levelAt? (depthBelow h (parent.map (·.2))) with
  | none => simp
  | some level =>
      simp only [bind_eq_ok, Option.some.injEq]
      constructor
      · intro hrun
        obtain ⟨below, hbelow, hrun⟩ := hrun
        cases hrun
        exact ⟨level, below, rfl, hbelow, rfl⟩
      · intro hrun
        obtain ⟨_, below, rfl, hbelow, rfl⟩ := hrun
        exact ⟨below, hbelow, rfl⟩

theorem enterNodes_cons_eq_ok {n : MemberNode} {rest : List MemberNode} :
    enterNodes dimension h parent index (n :: rest) = .ok entries ↔
      ∃ first others, enterNode dimension h parent index n = .ok first ∧
        enterNodes dimension h parent (index + n.weight) rest = .ok others ∧
        entries = first ++ others := by
  simp only [enterNodes, bind_eq_ok]
  constructor
  · intro hrun
    obtain ⟨first, hfirst, others, hothers, hrun⟩ := hrun
    cases hrun
    exact ⟨first, others, hfirst, hothers, rfl⟩
  · intro hrun
    obtain ⟨first, others, hfirst, hothers, rfl⟩ := hrun
    exact ⟨first, hfirst, others, hothers, rfl⟩

end Enter

mutual

theorem length_of_enterNode {dimension : String} {h : Hierarchy} {parent : Option (Nat × Member)}
    {index : Nat} {entries : List Entry} : (n : MemberNode) →
    enterNode dimension h parent index n = .ok entries → entries.length = n.weight
  | .node name caption key properties children, hrun => by
    obtain ⟨level, below, _, hbelow, rfl⟩ := enterNode_eq_ok.1 hrun
    have hlength := length_of_enterNodes children hbelow
    rw [List.length_cons, hlength, MemberNode.weight]

theorem length_of_enterNodes {dimension : String} {h : Hierarchy} {parent : Option (Nat × Member)}
    {index : Nat} {entries : List Entry} : (nodes : List MemberNode) →
    enterNodes dimension h parent index nodes = .ok entries →
    entries.length = MemberNode.weights nodes
  | [], hrun => by
    cases hrun
    rfl
  | n :: rest, hrun => by
    obtain ⟨first, others, hfirst, hothers, rfl⟩ := enterNodes_cons_eq_ok.1 hrun
    have hn := length_of_enterNode n hfirst
    have hrest := length_of_enterNodes rest hothers
    rw [List.length_append, hn, hrest, MemberNode.weights]

end

/-! ## Entries in a table -/

/-- The entries take the places of the table from `start` on. -/
def Forest.HasAt (f : Forest) (start : Nat) (entries : List Entry) : Prop :=
  ∀ i e, entries[i]? = some e → f.entries[start + i]? = some e

namespace Forest

variable {f : Forest} {start : Nat}

theorem hasAt_cons {e : Entry} {entries : List Entry} :
    f.HasAt start (e :: entries) ↔ f.entries[start]? = some e ∧ f.HasAt (start + 1) entries := by
  constructor
  · intro h
    refine ⟨h 0 e rfl, fun i e' he' => ?_⟩
    have hnext := h (i + 1) e' he'
    rwa [← Nat.add_assoc, Nat.add_right_comm] at hnext
  · intro h i e' he'
    cases i with
    | zero =>
        cases he'
        exact h.1
    | succ i =>
        have hnext := h.2 i e' he'
        rwa [Nat.add_right_comm, Nat.add_assoc] at hnext

theorem hasAt_append {first others : List Entry} :
    f.HasAt start (first ++ others) ↔
      f.HasAt start first ∧ f.HasAt (start + first.length) others := by
  induction first generalizing start with
  | nil => simp [HasAt]
  | cons e first ih =>
      rw [List.cons_append, hasAt_cons, hasAt_cons, ih, List.length_cons, and_assoc]
      rw [show start + 1 + first.length = start + (first.length + 1) by omega]

theorem hasAt_of_entries_eq {before entries after : List Entry}
    (h : f.entries = before ++ entries ++ after) : f.HasAt before.length entries := by
  intro i e he
  obtain ⟨hi, _⟩ := List.getElem?_eq_some_iff.1 he
  rw [h, List.append_assoc, List.getElem?_append_right (by omega), Nat.add_sub_cancel_left,
    List.getElem?_append_left hi, he]

end Forest

/-! ## Trees held by a table -/

mutual

/-- The tree of a node starts at a place: the entry there has the data of the node below its parent, and
lists the places of the trees of the children, which follow. -/
inductive Forest.Holds (f : Forest) (dimension : String) (h : Hierarchy) :
    Option (Nat × Member) → Nat → MemberNode → Prop where
  | node {parent : Option (Nat × Member)} {place : Nat} {n : MemberNode} {level : Level}
      (hlevel : h.levelAt? (depthBelow h (parent.map (·.2))) = some level)
      (hentry : f.entries[place]? = some ⟨nodeMember dimension h (parent.map (·.2)) level n,
        parent.map (·.1), treePlaces (place + 1) n.children⟩)
      (hbelow : f.HoldsAll dimension h
        (some (place, nodeMember dimension h (parent.map (·.2)) level n)) (place + 1) n.children) :
      Holds f dimension h parent place n

inductive Forest.HoldsAll (f : Forest) (dimension : String) (h : Hierarchy) :
    Option (Nat × Member) → Nat → List MemberNode → Prop where
  | nil (parent : Option (Nat × Member)) (place : Nat) : HoldsAll f dimension h parent place []
  | cons {parent : Option (Nat × Member)} {place : Nat} {n : MemberNode} {rest : List MemberNode}
      (hfirst : f.Holds dimension h parent place n)
      (hrest : f.HoldsAll dimension h parent (place + n.weight) rest) :
      HoldsAll f dimension h parent place (n :: rest)

end

mutual

theorem Forest.HasAt.holds {f : Forest} {dimension : String} {h : Hierarchy}
    {parent : Option (Nat × Member)} {place : Nat} {entries : List Entry} : (n : MemberNode) →
    enterNode dimension h parent place n = .ok entries → f.HasAt place entries →
    f.Holds dimension h parent place n
  | .node name caption key properties children, hrun, hat => by
    obtain ⟨level, below, hlevel, hbelow, rfl⟩ := enterNode_eq_ok.1 hrun
    obtain ⟨hentry, hat⟩ := Forest.hasAt_cons.1 hat
    exact .node hlevel hentry (Forest.HasAt.holdsAll children hbelow hat)

theorem Forest.HasAt.holdsAll {f : Forest} {dimension : String} {h : Hierarchy}
    {parent : Option (Nat × Member)} {place : Nat} {entries : List Entry} :
    (nodes : List MemberNode) → enterNodes dimension h parent place nodes = .ok entries →
    f.HasAt place entries → f.HoldsAll dimension h parent place nodes
  | [], _, _ => .nil parent place
  | n :: rest, hrun, hat => by
    obtain ⟨first, others, hfirst, hothers, rfl⟩ := enterNodes_cons_eq_ok.1 hrun
    obtain ⟨hat, hatrest⟩ := Forest.hasAt_append.1 hat
    rw [length_of_enterNode n hfirst] at hatrest
    exact .cons (Forest.HasAt.holds n hfirst hat) (Forest.HasAt.holdsAll rest hothers hatrest)

end

/-! ## Nodes that stand somewhere -/

/-- A node stands at a place below a parent: the roots stand below the top, and the children of a node
that stands below it. -/
inductive Stands (dimension : String) (h : Hierarchy) (top : Option (Nat × Member)) (start : Nat)
    (roots : List MemberNode) : Option (Nat × Member) → Nat → MemberNode → Prop where
  | root {place : Nat} {n : MemberNode} (hmem : (place, n) ∈ (treePlaces start roots).zip roots) :
      Stands dimension h top start roots top place n
  | child {parent : Option (Nat × Member)} {above place : Nat} {n m : MemberNode} {level : Level}
      (habove : Stands dimension h top start roots parent above n)
      (hlevel : h.levelAt? (depthBelow h (parent.map (·.2))) = some level)
      (hmem : (place, m) ∈ (treePlaces (above + 1) n.children).zip n.children) :
      Stands dimension h top start roots
        (some (above, nodeMember dimension h (parent.map (·.2)) level n)) place m

section Stands

variable {f : Forest} {dimension : String} {h : Hierarchy} {top : Option (Nat × Member)} {start : Nat}
  {roots : List MemberNode}

theorem Forest.HoldsAll.of_mem_zip {parent : Option (Nat × Member)} {first place : Nat}
    {nodes : List MemberNode} {n : MemberNode} (hall : f.HoldsAll dimension h parent first nodes)
    (hmem : (place, n) ∈ (treePlaces first nodes).zip nodes) :
    f.Holds dimension h parent place n := by
  induction nodes generalizing first with
  | nil => simp [treePlaces] at hmem
  | cons m rest ih =>
      cases hall with
      | cons hfirst hrest =>
          rw [treePlaces, List.zip_cons_cons] at hmem
          obtain hmem | hmem := List.mem_cons.1 hmem
          · cases hmem
            exact hfirst
          · exact ih hrest hmem

theorem Stands.holds (hall : f.HoldsAll dimension h top start roots) {parent : Option (Nat × Member)}
    {place : Nat} {n : MemberNode} (hstands : Stands dimension h top start roots parent place n) :
    f.Holds dimension h parent place n := by
  induction hstands with
  | root hmem => exact hall.of_mem_zip hmem
  | child habove hlevel hmem ih =>
      cases ih with
      | node hlevel' hentry hbelow =>
          rw [hlevel, Option.some.injEq] at hlevel'
          subst hlevel'
          exact hbelow.of_mem_zip hmem

theorem Stands.le_place {parent : Option (Nat × Member)} {place : Nat} {n : MemberNode}
    (hstands : Stands dimension h top start roots parent place n) : start ≤ place := by
  induction hstands with
  | root hmem => exact (bounds_of_mem_treePlaces (List.of_mem_zip hmem).1).1
  | child habove hlevel hmem ih =>
      have hbounds := bounds_of_mem_treePlaces (List.of_mem_zip hmem).1
      omega

theorem Stands.exists_entry (hall : f.HoldsAll dimension h top start roots)
    {parent : Option (Nat × Member)} {place : Nat} {n : MemberNode}
    (hstands : Stands dimension h top start roots parent place n) :
    ∃ level, h.levelAt? (depthBelow h (parent.map (·.2))) = some level ∧
      f.entries[place]? = some ⟨nodeMember dimension h (parent.map (·.2)) level n,
        parent.map (·.1), treePlaces (place + 1) n.children⟩ := by
  cases hstands.holds hall with
  | node hlevel hentry hbelow => exact ⟨_, hlevel, hentry⟩

end Stands

mutual

theorem exists_stands_of_node {f : Forest} {dimension : String} {h : Hierarchy}
    {top : Option (Nat × Member)} {start : Nat} {roots : List MemberNode}
    {parent : Option (Nat × Member)} {first place : Nat} : (n : MemberNode) →
    f.Holds dimension h parent first n → Stands dimension h top start roots parent first n →
    first ≤ place → place < first + n.weight →
    ∃ parent' m, Stands dimension h top start roots parent' place m
  | .node name caption key properties children, hholds, hstands, hlow, hhigh => by
    by_cases heq : place = first
    · exact ⟨parent, _, heq ▸ hstands⟩
    · cases hholds with
      | node hlevel hentry hbelow =>
          rw [MemberNode.weight] at hhigh
          exact exists_stands_of_nodes children hbelow (fun p m hmem => .child hstands hlevel hmem)
            (by omega) (by omega)

theorem exists_stands_of_nodes {f : Forest} {dimension : String} {h : Hierarchy}
    {top : Option (Nat × Member)} {start : Nat} {roots : List MemberNode}
    {parent : Option (Nat × Member)} {first place : Nat} : (nodes : List MemberNode) →
    f.HoldsAll dimension h parent first nodes →
    (∀ p m, (p, m) ∈ (treePlaces first nodes).zip nodes →
      Stands dimension h top start roots parent p m) →
    first ≤ place → place < first + MemberNode.weights nodes →
    ∃ parent' m, Stands dimension h top start roots parent' place m
  | [], _, _, hlow, hhigh => by
    rw [MemberNode.weights] at hhigh
    omega
  | n :: rest, hall, hstands, hlow, hhigh => by
    cases hall with
    | cons hfirst hrest =>
        rw [MemberNode.weights] at hhigh
        simp only [treePlaces, List.zip_cons_cons, List.mem_cons, Prod.mk.injEq] at hstands
        by_cases hplace : place < first + n.weight
        · exact exists_stands_of_node n hfirst (hstands first n (.inl ⟨rfl, rfl⟩)) hlow hplace
        · exact exists_stands_of_nodes rest hrest (fun p m hmem => hstands p m (.inr hmem))
            (by omega) (by omega)

end

theorem Forest.HoldsAll.exists_stands {f : Forest} {dimension : String} {h : Hierarchy}
    {top : Option (Nat × Member)} {start place : Nat} {roots : List MemberNode}
    (hall : f.HoldsAll dimension h top start roots) (hlow : start ≤ place)
    (hhigh : place < start + MemberNode.weights roots) :
    ∃ parent n, Stands dimension h top start roots parent place n :=
  exists_stands_of_nodes roots hall (fun _ _ hmem => .root hmem) hlow hhigh

/-! ## All trees of a cube -/

namespace Forest

/-- What the roots of a hierarchy stand below, its All member or nothing, and the place of the first. -/
inductive Top (f : Forest) (dimension : String) (h : Hierarchy) (start : Nat)
    (roots : List MemberNode) : Option (Nat × Member) → Nat → Prop where
  | all {level : Level} (hasAll : h.hasAll = true) (hlevel : h.levels.head? = some level)
      (hentry : f.entries[start]? =
        some ⟨allMemberOf dimension h level roots, none, treePlaces (start + 1) roots⟩) :
      Top f dimension h start roots (some (start, allMemberOf dimension h level roots)) (start + 1)
  | bare (hasAll : h.hasAll = false) : Top f dimension h start roots none start

section Top

variable {f : Forest} {dimension : String} {h : Hierarchy} {start first place : Nat}
  {roots : List MemberNode} {top : Option (Nat × Member)}

theorem Top.spec {m : Member} (htop : f.Top dimension h start roots (some (place, m)) first) :
    place = start ∧ first = start + 1 ∧ m.allMember = true ∧ m.depth = 0 ∧ m.parentName = none ∧
      f.entries[start]? = some ⟨m, none, treePlaces first roots⟩ := by
  cases htop with
  | all hasAll hlevel hentry => exact ⟨rfl, rfl, rfl, rfl, rfl, hentry⟩

theorem Top.le_first (htop : f.Top dimension h start roots top first) : start ≤ first := by
  cases htop with
  | all hasAll hlevel hentry => omega
  | bare hasAll => exact Nat.le_refl _

/-- Every place of the tree of a hierarchy is that of the All member or of a node. -/
theorem Top.exists_origin (htop : f.Top dimension h start roots top first)
    (hall : f.HoldsAll dimension h top first roots) (hlow : start ≤ place)
    (hhigh : place < first + MemberNode.weights roots) :
    (∃ m, top = some (place, m)) ∨
      ∃ parent n, Stands dimension h top first roots parent place n := by
  cases htop with
  | bare hasAll => exact .inr (hall.exists_stands hlow hhigh)
  | all hasAll hlevel hentry =>
      by_cases hplace : place = start
      · exact .inl ⟨_, by rw [hplace]⟩
      · exact .inr (hall.exists_stands (by omega) hhigh)

end Top

/-- The members of one hierarchy take the places from `start` up to the last number. -/
inductive HoldsTree (f : Forest) (cube : Cube) (start : Nat) (tree : MemberTree) :
    HierarchyRoots → Nat → Prop where
  | intro {d : Dimension} {h : Hierarchy} {top : Option (Nat × Member)} {first : Nat}
      (hdimension : cube.dimension? tree.dimension = some d)
      (hhierarchy : d.hierarchyOrDefault? tree.hierarchy = some h)
      (htop : f.Top d.name h start tree.members top first)
      (hall : f.HoldsAll d.name h top first tree.members) :
      HoldsTree f cube start tree ⟨d.name, h.name, top.map (·.1), treePlaces first tree.members⟩
        (first + MemberNode.weights tree.members)

inductive HoldsTrees (f : Forest) (cube : Cube) :
    Nat → List MemberTree → List HierarchyRoots → Nat → Prop where
  | nil (start : Nat) : HoldsTrees f cube start [] [] start
  | cons {start stop last : Nat} {tree : MemberTree} {trees : List MemberTree}
      {roots : HierarchyRoots} {rest : List HierarchyRoots}
      (hfirst : f.HoldsTree cube start tree roots stop)
      (hrest : f.HoldsTrees cube stop trees rest last) :
      HoldsTrees f cube start (tree :: trees) (roots :: rest) last

theorem HasAt.holdsTree {f : Forest} {cube : Cube} {start : Nat} {tree : MemberTree} {d : Dimension}
    {h : Hierarchy} {entries : List Entry} {roots : HierarchyRoots}
    (hdimension : cube.dimension? tree.dimension = some d)
    (hhierarchy : d.hierarchyOrDefault? tree.hierarchy = some h)
    (hrun : enterHierarchy d.name h start tree.members = .ok (entries, roots))
    (hat : f.HasAt start entries) : f.HoldsTree cube start tree roots (start + entries.length) := by
  rw [enterHierarchy] at hrun
  split at hrun
  · rename_i hasAll
    split at hrun
    · cases hrun
    · rename_i level hlevel
      obtain ⟨below, hbelow, hrun⟩ := bind_eq_ok.1 hrun
      cases hrun
      obtain ⟨hentry, hat⟩ := hasAt_cons.1 hat
      have hlength : start + (⟨allMemberOf d.name h level tree.members, none,
          treePlaces (start + 1) tree.members⟩ :: below).length =
          start + 1 + MemberNode.weights tree.members := by
        rw [List.length_cons, length_of_enterNodes tree.members hbelow]
        omega
      rw [hlength]
      exact .intro hdimension hhierarchy (.all hasAll hlevel hentry)
        (hat.holdsAll tree.members hbelow)
  · rename_i hasAll
    obtain ⟨entries, hentries, hrun⟩ := bind_eq_ok.1 hrun
    cases hrun
    rw [length_of_enterNodes tree.members hentries]
    exact .intro hdimension hhierarchy (.bare (by simpa using hasAll))
      (hat.holdsAll tree.members hentries)

theorem addTree_eq_ok {cube : Cube} {f f' : Forest} {tree : MemberTree}
    (hrun : addTree cube f tree = .ok f') :
    ∃ d h entries roots, cube.dimension? tree.dimension = some d ∧
      d.hierarchyOrDefault? tree.hierarchy = some h ∧
      enterHierarchy d.name h f.entries.length tree.members = .ok (entries, roots) ∧
      f' = ⟨f.entries ++ entries, f.hierarchies ++ [roots]⟩ := by
  rw [addTree] at hrun
  split at hrun
  · cases hrun
  · rename_i d hd
    split at hrun
    · cases hrun
    · rename_i h hh
      obtain ⟨⟨entries, roots⟩, hentries, hrun⟩ := bind_eq_ok.1 hrun
      cases hrun
      exact ⟨d, h, entries, roots, hd, hh, hentries, rfl⟩

/-- Adding trees keeps the entries there are, and the table at the end holds all trees. -/
theorem holdsTrees_of_foldlM {cube : Cube} {trees : List MemberTree} {f f' : Forest}
    (hrun : trees.foldlM (addTree cube) f = .ok f') :
    ∃ entries roots, f'.entries = f.entries ++ entries ∧ f'.hierarchies = f.hierarchies ++ roots ∧
      f'.HoldsTrees cube f.entries.length trees roots f'.entries.length := by
  induction trees generalizing f with
  | nil =>
      cases hrun
      exact ⟨[], [], by simp, by simp, .nil _⟩
  | cons tree trees ih =>
      rw [List.foldlM_cons, bind_eq_ok] at hrun
      obtain ⟨next, hstep, hrun⟩ := hrun
      obtain ⟨d, h, entries, roots, hd, hh, hentries, rfl⟩ := addTree_eq_ok hstep
      obtain ⟨more, rest, hmore, hrest, hholds⟩ := ih hrun
      refine ⟨entries ++ more, roots :: rest, by simpa using hmore, by simpa using hrest, ?_⟩
      have hat : f'.HasAt f.entries.length entries := hasAt_of_entries_eq hmore
      have hfirst := hat.holdsTree hd hh hentries
      rw [List.length_append] at hholds
      exact .cons hfirst hholds

/-- The table of a cube holds all its trees, and nothing else. -/
theorem holdsTrees_of_ofTrees {cube : Cube} {trees : List MemberTree} {f : Forest}
    (hrun : ofTrees cube trees = .ok f) :
    f.HoldsTrees cube 0 trees f.hierarchies f.entries.length := by
  obtain ⟨entries, roots, -, hroots, hholds⟩ := holdsTrees_of_foldlM hrun
  rw [empty, List.nil_append] at hroots
  rw [hroots]
  exact hholds

end Forest

end CubeQuery.Catalog
