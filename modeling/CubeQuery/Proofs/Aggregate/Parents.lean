import CubeQuery.Aggregate
import CubeQuery.Proofs.NameMap
import CubeQuery.Proofs.Outcome

/-!
# Fetched ancestors

The parents of the members of all drilldown axes are asked for by name, each once. Whatever is fetched
for a name is what every member with that parent gets (`Aggregation.chain_of_fetchParents`).
-/

namespace CubeQuery

/-! ## All actions of a list -/

theorem Action.all_run_eq_ok {ε σ α : Type} {actions : List (Action ε σ α)} {as : List α} {s t : σ}
    (h : (Action.all actions).run s = (.ok as, t)) :
    List.Forall₂ (fun action a => ∃ u v, action.run u = (.ok a, v)) actions as := by
  induction actions generalizing as s with
  | nil =>
      cases h
      exact .nil
  | cons action rest ih =>
      obtain ⟨a, u, others, hfirst, hrest, rfl⟩ := Action.all_cons_run_eq_ok.1 h
      exact .cons ⟨s, u, hfirst⟩ (ih hrest)

theorem exists_find?_zip {α : Type} {P : String → α → Prop} {names : List String} {values : List α}
    (h : List.Forall₂ P names values) {name : String} (hmem : name ∈ names) :
    ∃ value, (names.zip values).find? (·.1 == name) = some (name, value) ∧ P name value := by
  induction h with
  | nil => cases hmem
  | @cons first value names values hfirst _ ih =>
      rw [List.zip_cons_cons]
      by_cases hname : first = name
      · subst hname
        exact ⟨value, List.find?_cons_of_pos (by simp), hfirst⟩
      · have hrest : name ∈ names := (List.mem_cons.1 hmem).resolve_left (Ne.symm hname)
        obtain ⟨value', hfound, hvalue⟩ := ih hrest
        exact ⟨value', by rw [List.find?_cons_of_neg (by simpa using hname), hfound], hvalue⟩

namespace Aggregation

/-! ## Axes with ancestors -/

theorem find?_insert_chain (chains : List (String × List Member)) (parents : NameMap (List Member))
    (other : String) {name : String} (hne : name ≠ other) :
    NameMap.find? (match chains.find? (·.1 == other) with
      | some (_, chain) => parents.insert other chain
      | none => parents) name = parents.find? name := by
  split
  · exact NameMap.find?_insert_of_ne parents _ hne
  · rfl

theorem find?_parents_withParents {chains : List (String × List Member)} {a : ResultAxis} {m : Member}
    (hm : m ∈ a.members) {name : String} (hname : m.parentName = some name) {chain : List Member}
    (hchain : chains.find? (·.1 == name) = some (name, chain)) :
    (withParents chains a).parents.find? name = some chain := by
  have hmem : name ∈ a.members.filterMap (·.parentName) := List.mem_filterMap.2 ⟨m, hm, hname⟩
  rw [withParents]
  apply NameMap.find?_foldl _ _ _ (.inl hmem)
  · intro parents
    simp only [hchain, NameMap.find?_insert_self]
  · intro parents other hne
    exact find?_insert_chain chains parents other hne

/-- Entries under names that no member of the axis has as its parent stay as they are. -/
theorem find?_parents_withParents_of_ne (chains : List (String × List Member)) {a : ResultAxis}
    {name : String} (h : ∀ m ∈ a.members, m.parentName ≠ some name) :
    (withParents chains a).parents.find? name = a.parents.find? name := by
  have hnotMem : name ∉ a.members.filterMap (·.parentName) := by
    intro hmem
    obtain ⟨m, hm, hname⟩ := List.mem_filterMap.1 hmem
    exact h m hm hname
  rw [withParents]
  apply NameMap.find?_foldl_of_notMem _ hnotMem
  intro parents other hne
  exact find?_insert_chain chains parents other hne

theorem mem_parentNames_iff {r : CellResult} {name : String} :
    name ∈ parentNames r ↔ ∃ a ∈ r.drilldownAxes, ∃ m ∈ a.members, m.parentName = some name := by
  rw [parentNames, ← NameMap.names, NameMap.mem_names_ofList]
  simp only [List.map_map, List.mem_map, List.mem_flatMap, List.mem_filterMap, Function.comp_apply,
    exists_eq_right]

/-! ## Fetching -/

variable {σ : Type}

theorem drop_take_append_map {α : Type} (f : α → α) (as : List α) :
    (as.take 1 ++ (as.drop 1).map f).drop 1 = (as.drop 1).map f := by
  cases as <;> simp

theorem fetchParents_run_eq_ok {engine : Engine σ} {cube : String} {r r' : CellResult} {s t : σ} :
    (fetchParents engine cube r).run s = (.ok r', t) ↔
      ∃ chains, (Action.all ((parentNames r).map (parentChain engine cube))).run s = (.ok chains, t) ∧
        { r with axes := r.axes.take 1 ++
            r.drilldownAxes.map (withParents ((parentNames r).zip chains)) } = r' := by
  rw [fetchParents, Action.bind_run_eq_ok]
  constructor
  · intro h
    obtain ⟨chains, u, hchains, h⟩ := h
    obtain ⟨hr, rfl⟩ := Action.pure_run_eq_ok.1 h
    exact ⟨chains, hchains, hr⟩
  · intro h
    obtain ⟨chains, hchains, hr⟩ := h
    exact ⟨chains, t, hchains, Action.pure_run_eq_ok.2 ⟨hr, rfl⟩⟩

/-- What is known above a member of a drilldown axis is the chain that was fetched for its parent. -/
theorem chain_of_fetchParents {engine : Engine σ} {cube : String} {r r' : CellResult} {s t : σ}
    (h : (fetchParents engine cube r).run s = (.ok r', t)) {a : ResultAxis}
    (ha : a ∈ r'.drilldownAxes) {m : Member} (hm : m ∈ a.members) {name : String}
    (hname : m.parentName = some name) :
    ∃ u v, (parentChain engine cube name).run u = (.ok (a.ancestorsOf m), v) := by
  obtain ⟨chains, hchains, rfl⟩ := fetchParents_run_eq_ok.1 h
  have hpairs := List.forall₂_map_left_iff.1 (Action.all_run_eq_ok hchains)
  have haxes : a ∈ (r.axes.take 1 ++ (r.axes.drop 1).map (withParents _)).drop 1 := ha
  rw [drop_take_append_map] at haxes
  obtain ⟨before, hbefore, rfl⟩ := List.mem_map.1 haxes
  obtain ⟨chain, hfound, u, v, hchain⟩ := exists_find?_zip hpairs
    (mem_parentNames_iff.2 ⟨before, hbefore, m, hm, hname⟩)
  have hparents : (withParents _ before).parents.find? name = some chain :=
    find?_parents_withParents (show m ∈ before.members from hm) hname hfound
  rw [ResultAxis.ancestorsOf, hname, Option.bind_some, hparents, Option.getD_some]
  exact ⟨u, v, hchain⟩

end Aggregation

end CubeQuery
