import Mathlib.Logic.Relation
import CubeQuery.Proofs.Catalog.Ancestors

/-!
# Paths in a forest

Every entry of a well-formed table has one path up to a root, on which every smaller depth occurs once.
Where no two members have one name, the ancestors of a member are the members of that path
(`PathAbove.ancestors?_eq`).
-/

namespace CubeQuery.Catalog

namespace Forest

def HasChild (f : Forest) (above place : Nat) : Prop :=
  ∃ p, f.entries[above]? = some p ∧ place ∈ p.children

/-- The places from the parent of a place up to a root. -/
inductive PathAbove (f : Forest) : Nat → List Nat → Prop where
  | root {place : Nat} (h : ∀ above, ¬ f.HasChild above place) : PathAbove f place []
  | child {place above : Nat} {path : List Nat} (h : f.HasChild above place)
      (hrest : f.PathAbove above path) : PathAbove f place (above :: path)

def NamesApart (f : Forest) : Prop := (f.entries.map (·.member.fullName)).Nodup

instance (f : Forest) : Decidable f.NamesApart := inferInstanceAs (Decidable (List.Nodup _))

variable {f : Forest} {cube : Cube} {trees : List MemberTree}

/-! ## Parents in the tree -/

theorem WellFormed.childOf (hf : f.WellFormed cube trees) {above place : Nat} {e : Entry}
    (h : f.HasChild above place) (he : f.entries[place]? = some e) :
    ∃ p, f.entries[above]? = some p ∧ e.ChildOf p := by
  obtain ⟨p, hp, hmem⟩ := h
  obtain ⟨c, hc, hchild⟩ := (hf.children p (List.mem_of_getElem? hp)).2 place hmem
  rw [he, Option.some.injEq] at hc
  rw [← hc] at hchild
  exact ⟨p, hp, hchild⟩

theorem WellFormed.exists_entry (hf : f.WellFormed cube trees) {above place : Nat}
    (h : f.HasChild above place) : ∃ e, f.entries[place]? = some e := by
  obtain ⟨p, hp, hmem⟩ := h
  obtain ⟨c, hc, -⟩ := (hf.children p (List.mem_of_getElem? hp)).2 place hmem
  exact ⟨c, hc⟩

theorem WellFormed.parent_unique (hf : f.WellFormed cube trees) {above other place : Nat}
    (h : f.HasChild above place) (hother : f.HasChild other place) :
    other = above ∧ above < place := by
  obtain ⟨e, he⟩ := hf.exists_entry h
  obtain ⟨_, _, hchild⟩ := hf.childOf h he
  have hsome : e.member.parentName.isSome = true := by
    rw [hchild.parentName]
    rfl
  obtain ⟨parent, _, hlt, _, _, _, hunique⟩ := hf.parent place e he hsome
  have hparent : ∀ q, f.HasChild q place → q = parent := by
    intro q hq
    obtain ⟨o, ho, hmem⟩ := hq
    exact hunique q o ho hmem
  rw [hparent above h, hparent other hother]
  exact ⟨rfl, hlt⟩

theorem WellFormed.hasChild_of_parentName (hf : f.WellFormed cube trees) {place : Nat} {e : Entry}
    (he : f.entries[place]? = some e) (hname : e.member.parentName.isSome = true) :
    ∃ above, f.HasChild above place := by
  obtain ⟨above, p, _, hp, _, hcount, _⟩ := hf.parent place e he hname
  have hmem : place ∈ p.children := List.count_pos_iff.1 (by omega)
  exact ⟨above, p, hp, hmem⟩

theorem WellFormed.parentName_eq_none_iff (hf : f.WellFormed cube trees) {place : Nat} {e : Entry}
    (he : f.entries[place]? = some e) :
    e.member.parentName = none ↔ ∀ above, ¬ f.HasChild above place := by
  constructor
  · intro hnone above h
    obtain ⟨p, _, hchild⟩ := hf.childOf h he
    rw [hchild.parentName] at hnone
    cases hnone
  · intro h
    by_contra hne
    obtain ⟨above, habove⟩ := hf.hasChild_of_parentName he (Option.isSome_iff_ne_none.2 hne)
    exact h above habove

/-! ## Roots -/

section Roots

variable {dimension : String} {h : Hierarchy} {start first place : Nat} {roots : List MemberNode}
  {top : Option (Nat × Member)}

theorem Top.depth_of_parentName (htop : f.Top dimension h start roots top first)
    (hall : f.HoldsAll dimension h top first roots) {e : Entry} (he : f.entries[place]? = some e)
    (hlow : start ≤ place) (hhigh : place < first + MemberNode.weights roots)
    (hnone : e.member.parentName = none) : e.member.depth = 0 := by
  obtain ⟨m, rfl⟩ | ⟨parent, n, hn⟩ := htop.exists_origin hall hlow hhigh
  · obtain ⟨rfl, -, -, hdepth, -, hentry⟩ := htop.spec
    rw [he, Option.some.injEq] at hentry
    rw [hentry]
    exact hdepth
  · obtain ⟨level, -, hentry⟩ := hn.exists_entry hall
    rw [he, Option.some.injEq] at hentry
    subst hentry
    rw [parentName_nodeMember, Option.map_map, Option.map_eq_none_iff] at hnone
    subst hnone
    -- Nothing stands below nothing but the roots of a hierarchy without an All level.
    cases hn with
    | root _ =>
        cases htop with
        | bare hasAll => simp [depth_nodeMember, depthBelow, Hierarchy.firstRealDepth, hasAll]

end Roots

theorem WellFormed.depth_of_parentName (hf : f.WellFormed cube trees) {place : Nat} {e : Entry}
    (he : f.entries[place]? = some e) (hnone : e.member.parentName = none) : e.member.depth = 0 := by
  obtain ⟨hplace, _⟩ := List.getElem?_eq_some_iff.1 he
  obtain ⟨start, tree, _, r, _, stop, htree, hlow, hhigh⟩ :=
    hf.places.exists_tree (Nat.zero_le place) hplace
  cases htree with
  | intro _ _ htop hall => exact htop.depth_of_parentName hall he hlow hhigh hnone

/-! ## Paths -/

theorem WellFormed.exists_pathAbove (hf : f.WellFormed cube trees) (place : Nat) :
    ∃ path, f.PathAbove place path := by
  -- A parent comes before its children, so the places above a place are fewer.
  induction place using Nat.strongRecOn with
  | _ place ih =>
      by_cases h : ∃ above, f.HasChild above place
      · obtain ⟨above, habove⟩ := h
        obtain ⟨path, hpath⟩ := ih above (hf.parent_unique habove habove).2
        exact ⟨above :: path, .child habove hpath⟩
      · exact ⟨[], .root fun above habove => h ⟨above, habove⟩⟩

theorem PathAbove.mem_iff (hf : f.WellFormed cube trees) {place : Nat} {path : List Nat}
    (h : f.PathAbove place path) (other : Nat) :
    other ∈ place :: path ↔ Relation.ReflTransGen f.HasChild other place := by
  constructor
  · intro hmem
    induction h with
    | root _ =>
        rw [List.mem_singleton] at hmem
        rw [hmem]
    | child habove _ ih =>
        obtain rfl | hmem := List.mem_cons.1 hmem
        · exact .refl
        · exact (ih hmem).tail habove
  · intro hreach
    induction hreach generalizing path with
    | refl => exact List.mem_cons_self
    | tail _ hchild ih =>
        cases h with
        | root hnone => exact absurd hchild (hnone _)
        | child habove hrest =>
            have hsame := (hf.parent_unique habove hchild).1
            rw [hsame] at ih
            exact List.mem_cons_of_mem _ (ih hrest)

def EntriesAt (f : Forest) (places : List Nat) (entries : List Entry) : Prop :=
  places.map (f.entries[·]?) = entries.map some

theorem entriesAt_nil {entries : List Entry} : f.EntriesAt [] entries ↔ entries = [] := by
  rw [EntriesAt, List.map_nil, eq_comm, List.map_eq_nil_iff]

theorem entriesAt_cons {place : Nat} {places : List Nat} {entries : List Entry} :
    f.EntriesAt (place :: places) entries ↔
      ∃ e rest, f.entries[place]? = some e ∧ f.EntriesAt places rest ∧ e :: rest = entries := by
  cases entries with
  | nil => simp [EntriesAt]
  | cons e rest => simp [EntriesAt]

theorem EntriesAt.map_depth {places : List Nat} {entries : List Entry}
    (h : f.EntriesAt places entries) :
    places.map (fun place => (f.entries[place]?).map (·.member.depth)) =
      (entries.map (·.member.depth)).map some := by
  have hmap := congrArg (List.map (Option.map fun e : Entry => e.member.depth)) h
  simpa only [List.map_map, Function.comp_def, Option.map_some] using hmap

theorem PathAbove.exists_entries {place : Nat} {path : List Nat}
    (h : f.PathAbove place path) : ∃ above, f.EntriesAt path above := by
  induction h with
  | root _ => exact ⟨[], rfl⟩
  | child hchild _ ih =>
      obtain ⟨p, hp, _⟩ := hchild
      obtain ⟨above, habove⟩ := ih
      exact ⟨p :: above, entriesAt_cons.2 ⟨p, above, hp, habove, rfl⟩⟩

theorem PathAbove.depths (hf : f.WellFormed cube trees) {place : Nat} {path : List Nat}
    (h : f.PathAbove place path) {e : Entry} (he : f.entries[place]? = some e) {above : List Entry}
    (habove : f.EntriesAt path above) :
    above.map (·.member.depth) = (List.range e.member.depth).reverse := by
  induction h generalizing e above with
  | root hnone =>
      have hname := (hf.parentName_eq_none_iff he).2 hnone
      rw [entriesAt_nil.1 habove, hf.depth_of_parentName he hname]
      rfl
  | child hchild _ ih =>
      obtain ⟨p, rest, hp, hrest, rfl⟩ := entriesAt_cons.1 habove
      obtain ⟨p', hp', hchildOf⟩ := hf.childOf hchild he
      rw [hp, Option.some.injEq] at hp'
      rw [List.map_cons, ih hp hrest, hchildOf.depth, ← hp', List.range_succ, List.reverse_append]
      rfl

/-- The place is the given one or above it and has an entry of the depth, as no other such place has. -/
structure AncestorAt (f : Forest) (place n above : Nat) (p : Entry) : Prop where
  entry : f.entries[above]? = some p
  reaches : Relation.ReflTransGen f.HasChild above place
  depth : p.member.depth = n
  unique : ∀ other o, Relation.ReflTransGen f.HasChild other place → f.entries[other]? = some o →
    o.member.depth = n → other = above

theorem PathAbove.nodup_depths (hf : f.WellFormed cube trees) {place : Nat} {path : List Nat}
    (h : f.PathAbove place path) {e : Entry} (he : f.entries[place]? = some e) {above : List Entry}
    (habove : f.EntriesAt path above) : ((e :: above).map (·.member.depth)).Nodup := by
  rw [List.map_cons, h.depths hf he habove, List.nodup_cons]
  exact ⟨by simp, List.nodup_reverse.2 List.nodup_range⟩

/-- What lies above a member belongs to its hierarchy. -/
theorem PathAbove.sameHierarchy (hf : f.WellFormed cube trees) {place : Nat} {path : List Nat}
    (h : f.PathAbove place path) {e : Entry} (he : f.entries[place]? = some e) {above : List Entry}
    (habove : f.EntriesAt path above) :
    ∀ p ∈ e :: above, p.member.level.dimension = e.member.level.dimension ∧
      p.member.level.hierarchy = e.member.level.hierarchy := by
  induction h generalizing e above with
  | root hnone =>
      rw [entriesAt_nil.1 habove]
      simp
  | child hchild _ ih =>
      obtain ⟨p, rest, hp, hrest, rfl⟩ := entriesAt_cons.1 habove
      obtain ⟨p', hp', hchildOf⟩ := hf.childOf hchild he
      rw [hp, Option.some.injEq] at hp'
      intro q hq
      obtain rfl | hq := List.mem_cons.1 hq
      · exact ⟨rfl, rfl⟩
      · obtain ⟨hdimension, hhierarchy⟩ := ih hp hrest q hq
        rw [hdimension, hhierarchy, hchildOf.dimension, hchildOf.hierarchy, hp']
        exact ⟨rfl, rfl⟩

theorem PathAbove.exists_depth (hf : f.WellFormed cube trees) {place : Nat} {path : List Nat}
    (h : f.PathAbove place path) {e : Entry} (he : f.entries[place]? = some e) {above : List Entry}
    (habove : f.EntriesAt path above) {n : Nat} (hn : n ≤ e.member.depth) :
    ∃ p ∈ e :: above, p.member.depth = n := by
  have hmem : n ∈ (e :: above).map (·.member.depth) := by
    rw [List.map_cons, h.depths hf he habove, List.mem_cons, List.mem_reverse, List.mem_range]
    omega
  exact List.mem_map.1 hmem

theorem PathAbove.exists_ancestorAt (hf : f.WellFormed cube trees) {place : Nat} {path : List Nat}
    (h : f.PathAbove place path) {e : Entry} (he : f.entries[place]? = some e) {above : List Entry}
    (habove : f.EntriesAt path above) {p : Entry} (hp : p ∈ e :: above) :
    ∃ found, f.AncestorAt place p.member.depth found p := by
  have hentries : f.EntriesAt (place :: path) (e :: above) :=
    entriesAt_cons.2 ⟨e, above, he, habove, rfl⟩
  have hmem : some p ∈ (place :: path).map (f.entries[·]?) := by
    rw [hentries]
    exact List.mem_map_of_mem hp
  obtain ⟨found, hfound, hentry⟩ := List.mem_map.1 hmem
  refine ⟨found, hentry, (h.mem_iff hf found).1 hfound, rfl, fun other o hother ho hdepth => ?_⟩
  have hnodup : ((place :: path).map fun q => (f.entries[q]?).map (·.member.depth)).Nodup := by
    rw [hentries.map_depth]
    exact (h.nodup_depths hf he habove).map fun _ _ => Option.some.inj
  refine List.inj_on_of_nodup_map hnodup ((h.mem_iff hf other).2 hother) hfound ?_
  rw [ho, hentry, Option.map_some, Option.map_some, hdepth]

/-! ## Names that differ -/

theorem NamesApart.named? (hnames : f.NamesApart) {place : Nat} {e : Entry}
    (he : f.entries[place]? = some e) : f.named? e.member.fullName = some e.member := by
  obtain ⟨found, e', he', hnamed, hname, -⟩ := exists_named he
  have hsame : e' = e := List.inj_on_of_nodup_map hnames (List.mem_of_getElem? he')
    (List.mem_of_getElem? he) hname
  rw [hnamed, hsame]

theorem PathAbove.walk (hf : f.WellFormed cube trees) (hnames : f.NamesApart) {place : Nat}
    {path : List Nat} (h : f.PathAbove place path) {e : Entry} (he : f.entries[place]? = some e)
    {above : List Entry} (habove : f.EntriesAt path above) :
    f.Walk e.member.parentName (above.map (·.member)) := by
  induction h generalizing e above with
  | root hnone =>
      rw [(hf.parentName_eq_none_iff he).2 hnone, entriesAt_nil.1 habove]
      exact .stop rfl
  | child hchild _ ih =>
      obtain ⟨p, rest, hp, hrest, rfl⟩ := entriesAt_cons.1 habove
      obtain ⟨p', hp', hchildOf⟩ := hf.childOf hchild he
      rw [hp, Option.some.injEq] at hp'
      have hfound : e.member.parentName.bind f.named? = some p.member := by
        rw [hchildOf.parentName, ← hp']
        exact hnames.named? hp
      exact .step hfound (ih hp hrest)

/-- Where names differ, the ancestors of a member are those of the tree, nearest first. -/
theorem PathAbove.ancestors?_eq (hf : f.WellFormed cube trees) (hnames : f.NamesApart) {place : Nat}
    {path : List Nat} (h : f.PathAbove place path) {e : Entry} (he : f.entries[place]? = some e)
    {above : List Entry} (habove : f.EntriesAt path above) :
    f.ancestors? e.member = some (above.map (·.member)) :=
  ancestors?_eq_some_iff.2 (h.walk hf hnames he habove)

end Forest

end CubeQuery.Catalog
