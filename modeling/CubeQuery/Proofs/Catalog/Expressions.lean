import CubeQuery.Proofs.Catalog.Paths

/-!
# Member expressions

An expression that leads to a member says where the member is. It is the unique name of the member, or
it names the dimension, possibly the hierarchy, and then the level and the member on it, or the members
from a root, or from the All member, down to it (`member_expression_sound`).
-/

namespace CubeQuery.Catalog

open Mdx Text

/-! ## Segments -/

/-- A key stands for the members with that displayed key, any other segment for those with its name. -/
def Names (s : Segment) (m : Member) : Prop :=
  (s.quoting = .key → m.key.display = s.name) ∧ (s.quoting ≠ .key → m.name = s.name)

theorem matchesSegment_iff {s : Segment} {m : Member} : matchesSegment s m = true ↔ Names s m := by
  unfold matchesSegment Names Segment.isKey
  by_cases hkey : s.quoting = .key
  · simp [hkey]
  · simp [hkey]

/-! ## Members of a hierarchy -/

def Entry.LiesIn (e : Entry) (dimension hierarchy : String) : Prop :=
  e.member.level.dimension = dimension ∧ e.member.level.hierarchy = hierarchy

theorem liesIn_nodeMember (dimension : String) (h : Hierarchy) (parent : Option Member) (level : Level)
    (n : MemberNode) (above : Option Nat) (children : List Nat) :
    (⟨nodeMember dimension h parent level n, above, children⟩ : Entry).LiesIn dimension h.name := by
  cases n with
  | node name caption key properties nodes => exact ⟨rfl, rfl⟩

namespace Forest

variable {f : Forest} {cube : Cube} {trees : List MemberTree}

/-- The All member of a hierarchy and its roots stand where the table says. -/
structure Heads (f : Forest) (r : HierarchyRoots) : Prop where
  allMember : ∀ place, r.allMember = some place → ∃ e, f.entries[place]? = some e ∧
    e.member.allMember = true ∧ e.member.parentName = none ∧ e.LiesIn r.dimension r.hierarchy ∧
    e.children = r.roots
  root : ∀ place ∈ r.roots, ∃ e, f.entries[place]? = some e ∧ e.member.allMember = false ∧
    e.LiesIn r.dimension r.hierarchy ∧ (r.allMember = none → e.member.parentName = none)

theorem HoldsTree.heads {start stop : Nat} {tree : MemberTree} {r : HierarchyRoots}
    (htree : f.HoldsTree cube start tree r stop) : f.Heads r := by
  cases htree with
  | @intro d h top first hd hh htop hall =>
      constructor
      · intro place hplace
        cases htop with
        | bare hasAll => cases hplace
        | all hasAll hlevel hentry =>
            cases hplace
            exact ⟨_, hentry, rfl, rfl, ⟨rfl, rfl⟩, rfl⟩
      · intro place hplace
        obtain ⟨n, hn⟩ := exists_mem_zip_treePlaces hplace
        cases hall.of_mem_zip hn with
        | node hlevel hentry hbelow =>
            refine ⟨_, hentry, allMember_nodeMember .., liesIn_nodeMember .., ?_⟩
            intro hnone
            rw [parentName_nodeMember, Option.map_eq_none_iff.1 hnone]
            rfl

theorem HoldsTrees.heads {start last : Nat} {roots : List HierarchyRoots}
    (htrees : f.HoldsTrees cube start trees roots last) : ∀ r ∈ roots, f.Heads r := by
  induction htrees with
  | nil start => exact List.forall_mem_nil _
  | cons hfirst hrest ih => exact List.forall_mem_cons.2 ⟨hfirst.heads, ih⟩

/-- All that a tree holds belongs to its hierarchy. -/
theorem HoldsTree.liesIn {start stop place : Nat} {tree : MemberTree} {r : HierarchyRoots} {e : Entry}
    (htree : f.HoldsTree cube start tree r stop) (hlow : start ≤ place) (hhigh : place < stop)
    (he : f.entries[place]? = some e) : e.LiesIn r.dimension r.hierarchy := by
  cases htree with
  | @intro d h top first hd hh htop hall =>
      rcases htop.exists_origin hall hlow hhigh with ⟨m, rfl⟩ | ⟨parent, n, hn⟩
      · cases htop with
        | all hasAll hlevel hentry =>
            rw [he, Option.some.injEq] at hentry
            rw [hentry]
            exact ⟨rfl, rfl⟩
      · obtain ⟨level, hlevel, hentry⟩ := hn.exists_entry hall
        rw [he, Option.some.injEq] at hentry
        rw [hentry]
        exact liesIn_nodeMember ..

/-- Every member is in a hierarchy of the table. -/
theorem WellFormed.exists_roots (hf : f.WellFormed cube trees) {place : Nat} {e : Entry}
    (he : f.entries[place]? = some e) : ∃ r ∈ f.hierarchies, e.LiesIn r.dimension r.hierarchy := by
  have hplace : place < f.entries.length := (List.getElem?_eq_some_iff.1 he).1
  obtain ⟨start, tree, -, r, hr, stop, htree, hlow, hhigh⟩ :=
    hf.places.exists_tree (Nat.zero_le place) hplace
  exact ⟨r, hr, htree.liesIn hlow hhigh he⟩

/-- No All member is below another member. -/
theorem WellFormed.allMember_of_hasChild (hf : f.WellFormed cube trees) {above place : Nat} {e : Entry}
    (h : f.HasChild above place) (he : f.entries[place]? = some e) : e.member.allMember = false := by
  by_contra hall
  rw [Bool.not_eq_false] at hall
  obtain ⟨r, hr, hplace⟩ := hf.allMember place e he hall
  obtain ⟨e', he', -, hnone, -⟩ := (hf.places.heads r hr).allMember place hplace
  rw [he, Option.some.injEq] at he'
  rw [← he'] at hnone
  exact (hf.parentName_eq_none_iff he).1 hnone above h

theorem WellFormed.liesIn_of_reaches (hf : f.WellFormed cube trees) {above place : Nat}
    (h : Relation.ReflTransGen f.HasChild above place) {p e : Entry}
    (hp : f.entries[above]? = some p) (he : f.entries[place]? = some e) {dimension hierarchy : String}
    (hlies : p.LiesIn dimension hierarchy) : e.LiesIn dimension hierarchy := by
  induction h generalizing e with
  | refl =>
      rw [hp, Option.some.injEq] at he
      rw [← he]
      exact hlies
  | tail hreach hchild ih =>
      obtain ⟨q, hq, hchildOf⟩ := hf.childOf hchild he
      have hparent := ih hq
      exact ⟨hchildOf.dimension.trans hparent.1, hchildOf.hierarchy.trans hparent.2⟩

/-! ## Lines -/

/-- The members from a root of the hierarchy down to a place, without the All member above the root. -/
def Line (f : Forest) (place : Nat) (line : List Member) : Prop :=
  ∃ path entries, f.PathAbove place path ∧ f.EntriesAt (place :: path) entries ∧
    line = ((entries.map (·.member)).filter (!·.allMember)).reverse

theorem Line.of_no_parent {place : Nat} {e : Entry} (he : f.entries[place]? = some e)
    (hnone : ∀ above, ¬ f.HasChild above place) : f.Line place ([e.member].filter (!·.allMember)) := by
  refine ⟨[], [e], .root hnone, entriesAt_cons.2 ⟨e, [], he, rfl, rfl⟩, ?_⟩
  cases hall : e.member.allMember with
  | false => simp [hall]
  | true => simp [hall]

theorem Line.child {above place : Nat} {line : List Member} {e : Entry} (h : f.Line above line)
    (hchild : f.HasChild above place) (he : f.entries[place]? = some e)
    (hplain : e.member.allMember = false) : f.Line place (line ++ [e.member]) := by
  obtain ⟨path, entries, hpath, hentries, rfl⟩ := h
  refine ⟨above :: path, e :: entries, .child hchild hpath, ?_, by simp [hplain]⟩
  exact entriesAt_cons.2 ⟨e, entries, he, hentries, rfl⟩

theorem Line.exists_entry {place : Nat} {line : List Member} (h : f.Line place line) :
    ∃ e, f.entries[place]? = some e := by
  obtain ⟨path, entries, -, hentries, -⟩ := h
  obtain ⟨e, -, he, -⟩ := entriesAt_cons.1 hentries
  exact ⟨e, he⟩

/-- All of the places hold members just below the end of a line. -/
def Continues (f : Forest) (line : List Member) (places : List Nat) : Prop :=
  ∀ place ∈ places, ∀ e, f.entries[place]? = some e → f.Line place (line ++ [e.member])

theorem Line.continues (hf : f.WellFormed cube trees) {above : Nat} {line : List Member} {p : Entry}
    (h : f.Line above line) (hp : f.entries[above]? = some p) : f.Continues line p.children := by
  intro place hplace e he
  have hchild : f.HasChild above place := ⟨p, hp, hplace⟩
  exact h.child hchild he (hf.allMember_of_hasChild hchild he)

/-- Lines begin with a root. -/
theorem Heads.continues (hf : f.WellFormed cube trees) {r : HierarchyRoots} (hr : f.Heads r) :
    f.Continues [] r.roots := by
  cases hall : r.allMember with
  | some top =>
      obtain ⟨a, ha, hallMember, hnone, -, hchildren⟩ := hr.allMember top hall
      have hline := Line.of_no_parent ha ((hf.parentName_eq_none_iff ha).1 hnone)
      rw [List.filter_singleton, hallMember] at hline
      rw [← hchildren]
      exact hline.continues hf ha
  | none =>
      intro place hplace e he
      obtain ⟨e', he', hplain, -, hnone⟩ := hr.root place hplace
      rw [he, Option.some.injEq] at he'
      subst he'
      have hline := Line.of_no_parent he ((hf.parentName_eq_none_iff he).1 (hnone hall))
      rwa [List.filter_singleton, hplain] at hline

end Forest

/-! ## Paths of segments -/

section Table

variable {t : CubeTable} {trees : List MemberTree}

theorem pick?_eq_some {s : Segment} {places : List Nat} {place : Nat}
    (h : t.pick? s places = some place) :
    place ∈ places ∧ ∃ e, t.forest.entries[place]? = some e ∧ Names s e.member := by
  have hmatches := List.find?_some h
  refine ⟨List.mem_of_find?_eq_some h, ?_⟩
  unfold Forest.member? at hmatches
  cases he : t.forest.entries[place]? with
  | none =>
      rw [he] at hmatches
      cases hmatches
  | some e =>
      rw [he] at hmatches
      exact ⟨e, rfl, matchesSegment_iff.1 hmatches⟩

theorem childPlaces_eq {place : Nat} {e : Entry} (he : t.forest.entries[place]? = some e) :
    t.childPlaces place = e.children := by
  unfold CubeTable.childPlaces
  rw [he]
  rfl

theorem descend?_cons_eq_some {s : Segment} {rest : List Segment} {places : List Nat} {place : Nat}
    {current : Option Nat} :
    t.descend? (s :: rest) places current = some place ↔
      ∃ first, t.pick? s places = some first ∧
        t.descend? rest (t.childPlaces first) (some first) = some place := by
  rw [CubeTable.descend?]
  cases t.pick? s places with
  | none => simp
  | some first => simp

/-- A path of segments leads down from one of the places where it starts. -/
theorem descend?_reaches {s : Segment} {rest : List Segment} {places : List Nat} {place : Nat}
    {current : Option Nat} (h : t.descend? (s :: rest) places current = some place) :
    ∃ first ∈ places, Relation.ReflTransGen t.forest.HasChild first place := by
  induction rest generalizing s places current with
  | nil =>
      obtain ⟨first, hfirst, hrest⟩ := descend?_cons_eq_some.1 h
      rw [CubeTable.descend?, Option.some.injEq] at hrest
      rw [← hrest]
      exact ⟨first, (pick?_eq_some hfirst).1, .refl⟩
  | cons next rest ih =>
      obtain ⟨first, hfirst, hrest⟩ := descend?_cons_eq_some.1 h
      obtain ⟨hmem, e, he, -⟩ := pick?_eq_some hfirst
      obtain ⟨second, hsecond, hreach⟩ := ih hrest
      rw [childPlaces_eq he] at hsecond
      exact ⟨first, hmem, hreach.head ⟨e, he, hsecond⟩⟩

/-- It names, one by one, the members of the line that it goes down. -/
theorem descend?_line (hf : t.forest.WellFormed t.cube trees) {s : Segment} {rest : List Segment}
    {line : List Member} {places : List Nat} (hplaces : t.forest.Continues line places) {place : Nat}
    {current : Option Nat} (h : t.descend? (s :: rest) places current = some place) :
    ∃ more, t.forest.Line place (line ++ more) ∧ List.Forall₂ Names (s :: rest) more := by
  induction rest generalizing s line places current with
  | nil =>
      obtain ⟨first, hfirst, hrest⟩ := descend?_cons_eq_some.1 h
      obtain ⟨hmem, e, he, hnames⟩ := pick?_eq_some hfirst
      rw [CubeTable.descend?, Option.some.injEq] at hrest
      subst hrest
      exact ⟨[e.member], hplaces first hmem e he, .cons hnames .nil⟩
  | cons next rest ih =>
      obtain ⟨first, hfirst, hrest⟩ := descend?_cons_eq_some.1 h
      obtain ⟨hmem, e, he, hnames⟩ := pick?_eq_some hfirst
      have hnext : t.forest.Continues (line ++ [e.member]) (t.childPlaces first) := by
        rw [childPlaces_eq he]
        exact (hplaces first hmem e he).continues hf he
      obtain ⟨more, hline, hmore⟩ := ih hnext hrest
      rw [List.append_assoc] at hline
      exact ⟨e.member :: more, hline, .cons hnames hmore⟩

/-! ## Segments within a hierarchy -/

/-- What segments behind the dimension and the hierarchy say of the member at a place. -/
inductive NamesWithin (f : Forest) (h : Hierarchy) (place : Nat) (m : Member) :
    List Segment → Prop where
  /-- A level of the hierarchy, and the member, which lies on it. -/
  | onLevel {head target : Segment} {level : Level} (hlevel : level ∈ h.levels)
      (hhead : head.name = level.name) (hm : m.level.level = level.name) (htarget : Names target m) :
      NamesWithin f h place m [head, target]
  /-- The All member alone. -/
  | allMember {s : Segment} (hall : m.allMember = true) (hs : Names s m) : NamesWithin f h place m [s]
  /-- All members from a root down to the member. -/
  | path {segments : List Segment} {line : List Member} (hne : segments ≠ [])
      (hline : f.Line place line) (hnames : List.Forall₂ Names segments line) :
      NamesWithin f h place m segments
  /-- The All member, and then all members from the root below it. -/
  | throughAll {s : Segment} {segments : List Segment} {line : List Member} {top : Nat} {a : Entry}
      (htop : f.entries[top]? = some a) (hall : a.member.allMember = true)
      (hreaches : Relation.ReflTransGen f.HasChild top place) (hs : Names s a.member)
      (hne : segments ≠ []) (hline : f.Line place line) (hnames : List.Forall₂ Names segments line) :
      NamesWithin f h place m (s :: segments)

variable {dimension : String} {h : Hierarchy} {path : List Segment} {place : Nat}

theorem byLevel?_sound (hfound : t.byLevel? dimension h path = some place) :
    ∃ e, t.forest.entries[place]? = some e ∧ e.LiesIn dimension h.name ∧
      NamesWithin t.forest h place e.member path := by
  unfold CubeTable.byLevel? at hfound
  split at hfound
  · rename_i head target
    obtain ⟨level, hlevel, hfound⟩ := Option.bind_eq_some_iff.1 hfound
    obtain ⟨hmem, hname⟩ := Hierarchy.level?_spec hlevel
    unfold CubeTable.onLevel? at hfound
    obtain ⟨hplace, hmatches, -⟩ := List.findIdx?_eq_some_iff_getElem.1 hfound
    have he := List.getElem?_eq_getElem hplace
    have hboth := Bool.and_eq_true_iff.1 hmatches
    have href := beq_iff_eq.1 hboth.1
    refine ⟨_, he, ⟨by rw [href], by rw [href]⟩, ?_⟩
    exact .onLevel hmem hname.symm (by rw [href]) (matchesSegment_iff.1 hboth.2)
  · cases hfound

/-- A path from the roots of a hierarchy names a line of it. -/
theorem descend?_roots_sound (hf : t.forest.WellFormed t.cube trees) {r : HierarchyRoots}
    (hr : t.forest.Heads r) {s : Segment} {rest : List Segment}
    (hfound : t.descend? (s :: rest) r.roots none = some place) :
    ∃ e line, t.forest.entries[place]? = some e ∧ e.LiesIn r.dimension r.hierarchy ∧
      t.forest.Line place line ∧ List.Forall₂ Names (s :: rest) line := by
  obtain ⟨line, hline, hnames⟩ := descend?_line hf (hr.continues hf) hfound
  obtain ⟨e, he⟩ := hline.exists_entry
  obtain ⟨first, hfirst, hreaches⟩ := descend?_reaches hfound
  obtain ⟨root, hroot, -, hlies, -⟩ := hr.root first hfirst
  exact ⟨e, line, he, hf.liesIn_of_reaches hreaches hroot he hlies, hline, hnames⟩

theorem byPath?_sound (hf : t.forest.WellFormed t.cube trees) {r : HierarchyRoots}
    (hr : t.forest.Heads r) (hfound : t.byPath? r path = some place) :
    ∃ e, t.forest.entries[place]? = some e ∧ e.LiesIn r.dimension r.hierarchy ∧
      NamesWithin t.forest h place e.member path := by
  cases path with
  | nil => cases hfound
  | cons head tail =>
      have hpath : t.descend? (head :: tail) r.roots none = some place →
          ∃ e, t.forest.entries[place]? = some e ∧ e.LiesIn r.dimension r.hierarchy ∧
            NamesWithin t.forest h place e.member (head :: tail) := by
        intro hdown
        obtain ⟨e, line, he, hlies, hline, hnames⟩ := descend?_roots_sound hf hr hdown
        exact ⟨e, he, hlies, .path (List.cons_ne_nil _ _) hline hnames⟩
      cases hall : r.allMember with
      | none =>
          simp only [CubeTable.byPath?, hall] at hfound
          exact hpath hfound
      | some top =>
          obtain ⟨a, ha, hallMember, -, hlies, hchildren⟩ := hr.allMember top hall
          have hmember : t.forest.member? top = some a.member := by
            rw [Forest.member?, ha, Option.map_some]
          simp only [CubeTable.byPath?, hall, hmember, Option.any_some] at hfound
          by_cases hhead : matchesSegment head a.member = true
          · have hs := matchesSegment_iff.1 hhead
            rw [if_pos hhead] at hfound
            cases tail with
            | nil =>
                simp only [List.isEmpty_nil, if_true, Option.some.injEq] at hfound
                subst hfound
                exact ⟨a, ha, hlies, .allMember hallMember hs⟩
            | cons next rest =>
                simp only [List.isEmpty_cons, Bool.false_eq_true, if_false] at hfound
                obtain ⟨e, line, he, hbelow, hline, hnames⟩ := descend?_roots_sound hf hr hfound
                obtain ⟨first, hfirst, hreaches⟩ := descend?_reaches hfound
                have hchild : t.forest.HasChild top first := ⟨a, ha, by rwa [hchildren]⟩
                exact ⟨e, he, hbelow, .throughAll ha hallMember (hreaches.head hchild) hs
                  (List.cons_ne_nil _ _) hline hnames⟩
          · rw [if_neg hhead] at hfound
            exact hpath hfound

theorem within?_sound (hf : t.forest.WellFormed t.cube trees)
    (hfound : t.within? dimension h path = some place) :
    ∃ e, t.forest.entries[place]? = some e ∧ e.LiesIn dimension h.name ∧
      NamesWithin t.forest h place e.member path := by
  unfold CubeTable.within? at hfound
  split at hfound
  · cases hfound
  · rename_i r hr
    have hsame := List.find?_some hr
    simp only [Bool.and_eq_true, beq_iff_eq] at hsame
    have hheads := hf.places.heads r (List.mem_of_find?_eq_some hr)
    rcases Option.or_eq_some_iff.1 hfound with hlevel | ⟨-, hpath⟩
    · exact byLevel?_sound hlevel
    · rw [← hsame.1, ← hsame.2]
      exact byPath?_sound hf hheads hpath

/-! ## Expressions -/

/-- What the segments of an identifier say of the member at a place: the first one names its dimension,
the next one may name its hierarchy, and the others name it within that. -/
def NamedBy (t : CubeTable) (place : Nat) (m : Member) (segments : List Segment) : Prop :=
  ∃ first rest d h path, segments = first :: rest ∧ t.cube.dimension? first.name = some d ∧
    d.hierarchy? h.name = some h ∧ m.level.dimension = first.name ∧ m.level.hierarchy = h.name ∧
    ((rest = path ∧ d.defaultHierarchy? = some h) ∨
      ∃ second, rest = second :: path ∧ second.name = h.name) ∧
    NamesWithin t.forest h place m path

theorem bySegments?_sound (hf : t.forest.WellFormed t.cube trees) {segments : List Segment}
    (hfound : t.bySegments? segments = some place) :
    ∃ e, t.forest.entries[place]? = some e ∧ NamedBy t place e.member segments := by
  cases segments with
  | nil => cases hfound
  | cons first rest =>
      rw [CubeTable.bySegments?] at hfound
      obtain ⟨d, hd, hfound⟩ := Option.bind_eq_some_iff.1 hfound
      have hname := (Cube.dimension?_spec hd).2
      rcases Option.or_eq_some_iff.1 hfound with hnamed | ⟨-, hdefault⟩
      · cases rest with
        | nil => cases hnamed
        | cons second tail =>
            rw [CubeTable.byHierarchy?] at hnamed
            obtain ⟨h, hh, hwithin⟩ := Option.bind_eq_some_iff.1 hnamed
            have hsecond := (Dimension.hierarchy?_spec hh).2
            obtain ⟨e, he, hlies, hnames⟩ := within?_sound hf hwithin
            refine ⟨e, he, first, _, d, h, tail, rfl, hd, ?_, ?_, hlies.2, ?_, hnames⟩
            · rwa [hsecond]
            · rw [hlies.1, hname]
            · exact .inr ⟨second, rfl, hsecond.symm⟩
      · obtain ⟨h, hh, hwithin⟩ := Option.bind_eq_some_iff.1 hdefault
        obtain ⟨e, he, hlies, hnames⟩ := within?_sound hf hwithin
        have hhierarchy := Dimension.hierarchy?_of_defaultHierarchy? hh
        refine ⟨e, he, first, rest, d, h, rest, rfl, hd, hhierarchy, ?_, hlies.2, ?_, hnames⟩
        · rw [hlies.1, hname]
        · exact .inl ⟨rfl, hh⟩

theorem member?_sound (hf : t.forest.WellFormed t.cube trees) {expression : String} {m : Member}
    (hfound : t.member? expression = some m) :
    ∃ place, t.forest.member? place = some m ∧
      (m.fullName = trimmed expression ∨
        ∃ segments, Identifier.parse (trimmed expression) = .ok ⟨segments⟩ ∧
          NamedBy t place m segments) := by
  unfold CubeTable.member? at hfound
  obtain ⟨place, hplace, hmember⟩ := Option.bind_eq_some_iff.1 hfound
  refine ⟨place, hmember, ?_⟩
  obtain ⟨e, he, rfl⟩ := Option.map_eq_some_iff.1 hmember
  unfold CubeTable.resolve? at hplace
  rcases Option.or_eq_some_iff.1 hplace with hnamed | ⟨-, hsegments⟩
  · left
    obtain ⟨e', he', hname⟩ := Forest.lastPlace_spec hnamed
    rw [he, Option.some.injEq] at he'
    rw [he', hname]
  · right
    obtain ⟨i, hi, hfound⟩ := Option.bind_eq_some_iff.1 hsegments
    obtain ⟨e', he', hnamedBy⟩ := bySegments?_sound hf hfound
    rw [he, Option.some.injEq] at he'
    rw [← he'] at hnamedBy
    exact ⟨i.segments, toOption_eq_some_iff.1 hi, hnamedBy⟩

end Table

/-- What an expression leads to in a catalog is a member of the cube, and the expression is its unique
name or consists of segments that it is named by. -/
theorem member_expression_sound {σ : Type} (text : String) (c : Catalog)
    (h : Catalog.ofText text = .ok c) (cube expression : String) (s u : σ) (m : Member)
    (hfound : (c.engine.member cube expression).run s = (.ok (some m), u)) :
    ∃ t place, c.table? cube = some t ∧ t.forest.member? place = some m ∧
      (m.fullName = trimmed expression ∨
        ∃ segments, Identifier.parse (trimmed expression) = .ok ⟨segments⟩ ∧
          NamedBy t place m segments) := by
  have hmember : c.member? cube expression = some m := (Action.pure_run_eq_ok.1 hfound).1
  obtain ⟨t, htable, hexpression⟩ := Option.bind_eq_some_iff.1 hmember
  obtain ⟨-, source, trees, -, hf⟩ := exists_source_of_table? h htable
  obtain ⟨place, hplace, hnamed⟩ := member?_sound hf hexpression
  exact ⟨t, place, htable, hplace, hnamed⟩

/-- The path to a city through the All member, the last part by key. -/
theorem member_expression_sound_napa :
    ∃ c m t place segments, Catalog.ofText statesText = .ok c ∧
      (c.engine.member "Sales" " Store.[All Stores].CA.&Napa").run () = (.ok (some m), ()) ∧
      m.fullName = "[Store].[CA].[Napa]" ∧ c.table? "Sales" = some t ∧
      t.forest.member? place = some m ∧
      Identifier.parse (trimmed " Store.[All Stores].CA.&Napa") = .ok ⟨segments⟩ ∧
      NamedBy t place m segments := by
  have hload : (Catalog.ofText statesText).toOption.map (fun c =>
      (c.member? "Sales" " Store.[All Stores].CA.&Napa").map (·.fullName)) =
        some (some "[Store].[CA].[Napa]") := by
    rw [statesText, ofText_ofList]
    decide +kernel
  obtain ⟨c, hc, hmember⟩ := Option.map_eq_some_iff.1 hload
  obtain ⟨m, hm, hname⟩ := Option.map_eq_some_iff.1 hmember
  have hc := toOption_eq_some_iff.1 hc
  have hrun : (c.engine.member "Sales" " Store.[All Stores].CA.&Napa").run () = (.ok (some m), ()) :=
    Action.pure_run_eq_ok.2 ⟨hm, rfl⟩
  obtain ⟨t, place, htable, hplace, hnamed⟩ :=
    member_expression_sound statesText c hc "Sales" " Store.[All Stores].CA.&Napa" () () m hrun
  rcases hnamed with hfull | ⟨segments, hparse, hnamedBy⟩
  · rw [hname] at hfull
    exact absurd hfull (by decide +kernel)
  · exact ⟨c, m, t, place, segments, hc, hrun, hname, htable, hplace, hparse, hnamedBy⟩

end CubeQuery.Catalog
