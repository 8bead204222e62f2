import CubeQuery.Proofs.Aggregate.Parents
import CubeQuery.Proofs.Aggregate.Trace
import CubeQuery.Proofs.Plan.Resolution

/-!
# Parents asked for once

The parents of a result are asked for in one go, each name once, and what is known of them is shared by
all axes. Every member gets the chain that asking for its own parent would give, and nothing else of the
result changes (`Aggregation.fetchParents_memoizes`).
-/

namespace CubeQuery

open CubeQuery.Action

/-- What the engine says above a member is a function of the cube and the member. -/
def Engine.Climbs {σ : Type} (engine : Engine σ)
    (climb : String → Member → Except EngineError (List Member)) : Prop :=
  ∀ cube m s, ((engine.ancestors cube m).run s).1 = climb cube m

/-- Some member of a drilldown axis has a parent of the name. -/
def CellResult.HasParent (r : CellResult) (name : String) : Prop :=
  ∃ a ∈ r.drilldownAxes, ∃ m ∈ a.members, m.parentName = some name

/-- Two forms of an axis differ at most in the entries under the parents of its members. -/
structure ResultAxis.Kept (before after : ResultAxis) : Prop where
  members : after.members = before.members
  level : after.level = before.level
  parents : ∀ name, (∀ m ∈ before.members, m.parentName ≠ some name) →
    after.parents.find? name = before.parents.find? name

theorem ResultAxis.Kept.refl (a : ResultAxis) : a.Kept a := ⟨rfl, rfl, fun _ _ => rfl⟩

/-- The chain for one parent name alone: the parent that the engine knows by it and the ancestors of that
parent, or nothing. -/
inductive DirectChain (lookup : String → String → Except EngineError (Option Member))
    (climb : String → Member → Except EngineError (List Member)) (cube : String) :
    Option String → List Member → Prop
  | root : DirectChain lookup climb cube none []
  | unknown {name : String} (h : lookup cube name = .ok none) :
      DirectChain lookup climb cube (some name) []
  | known {name : String} {parent : Member} {above : List Member}
      (hparent : lookup cube name = .ok (some parent)) (habove : climb cube parent = .ok above) :
      DirectChain lookup climb cube (some name) (parent :: above)

namespace Call

def isMember : Call → Bool
  | .member _ _ => true
  | _ => false

theorem count_filter_isMember (calls : List Call) (cube name : String) :
    (calls.filter (·.isMember)).count (.member cube name) = calls.count (.member cube name) :=
  List.count_filter rfl

end Call

namespace Aggregation

variable {σ : Type} {engine : Engine σ}

/-! ## One chain -/

section Chain

variable {lookup : String → String → Except EngineError (Option Member)}
  {climb : String → Member → Except EngineError (List Member)}

theorem directChain_of_parentChain (hlookup : engine.LooksUp lookup) (hclimbs : engine.Climbs climb)
    {cube name : String} {chain : List Member} {s t : σ}
    (h : (parentChain engine cube name).run s = (.ok chain, t)) :
    DirectChain lookup climb cube (some name) chain := by
  rw [parentChain, bind_run_eq_ok] at h
  obtain ⟨found, u, hfound, h⟩ := h
  have hmember : lookup cube name = .ok found := by
    rw [← hlookup cube name s, toQuery_run_eq_ok.1 hfound]
  cases found with
  | none =>
      obtain ⟨rfl, -⟩ := pure_run_eq_ok.1 h
      exact .unknown hmember
  | some parent =>
      obtain ⟨above, v, habove, h⟩ := bind_run_eq_ok.1 h
      obtain ⟨rfl, -⟩ := pure_run_eq_ok.1 h
      have hancestors : climb cube parent = .ok above := by
        rw [← hclimbs cube parent u, toQuery_run_eq_ok.1 habove]
      exact .known hmember hancestors

end Chain

/-! ## Calls -/

variable (engine) in
/-- The chain of a parent begins with the look-up of its name, and there is no other look-up. -/
theorem parentChain_traced (cube name : String) (before : List Call) (s : σ) :
    ∃ calls, (parentChain engine.traced cube name).run (s, before) =
        (((parentChain engine cube name).run s).1, ((parentChain engine cube name).run s).2,
          before ++ calls) ∧
      calls.filter (·.isMember) = [.member cube name] := by
  have hmember : (engine.traced.member cube name).toQuery.run (s, before) =
      (((engine.member cube name).toQuery.run s).1, ((engine.member cube name).toQuery.run s).2,
        before ++ [.member cube name]) := rfl
  rw [parentChain, parentChain, bind_run, bind_run, hmember]
  rcases (engine.member cube name).toQuery.run s with ⟨answer, u⟩
  cases answer with
  | error e => exact ⟨[.member cube name], rfl, rfl⟩
  | ok found =>
      cases found with
      | none => exact ⟨[.member cube name], rfl, rfl⟩
      | some m =>
          have hancestors : (engine.traced.ancestors cube m).toQuery.run
              (u, before ++ [.member cube name]) =
                (((engine.ancestors cube m).toQuery.run u).1,
                  ((engine.ancestors cube m).toQuery.run u).2,
                  before ++ [.member cube name] ++ [.ancestors cube m]) := rfl
          refine ⟨[.member cube name, .ancestors cube m], ?_, rfl⟩
          dsimp only
          rw [bind_run, bind_run, hancestors, List.append_assoc]
          rcases (engine.ancestors cube m).toQuery.run u with ⟨above, v⟩
          cases above <;> rfl

variable (engine) in
theorem all_parentChain_traced (cube : String) (names : List String) (before : List Call) (s : σ) :
    ∃ calls, (Action.all (names.map (parentChain engine.traced cube))).run (s, before) =
        (((Action.all (names.map (parentChain engine cube))).run s).1,
          ((Action.all (names.map (parentChain engine cube))).run s).2, before ++ calls) ∧
      calls.filter (·.isMember) = names.map (.member cube) := by
  induction names generalizing before s with
  | nil => exact ⟨[], by rw [List.append_nil]; rfl, rfl⟩
  | cons name rest ih =>
      obtain ⟨first, hfirst, hfirstLookups⟩ := parentChain_traced engine cube name before s
      obtain ⟨others, hothers, hotherLookups⟩ :=
        ih (before ++ first) ((parentChain engine cube name).run s).2
      refine ⟨first ++ others, ?_, ?_⟩
      · rw [List.map_cons, List.map_cons, all_cons_run, all_cons_run, hfirst]
        dsimp only
        rw [hothers, List.append_assoc]
      · rw [List.filter_append, hfirstLookups, hotherLookups, List.map_cons, List.singleton_append]

theorem nodup_parentNames (r : CellResult) : (parentNames r).Nodup :=
  (NameMap.ascending_ofList _).nodup

theorem count_lookups {r : CellResult} {cube : String} {calls : List Call}
    (h : calls.filter (·.isMember) = (parentNames r).map (.member cube)) {name : String}
    (hname : r.HasParent name) : calls.count (.member cube name) = 1 := by
  have hnodup : ((parentNames r).map (Call.member cube)).Nodup :=
    (nodup_parentNames r).map fun a b hab => (Call.member.inj hab).2
  rw [← Call.count_filter_isMember, h]
  exact List.count_eq_one_of_mem hnodup (List.mem_map_of_mem (mem_parentNames_iff.2 hname))

theorem hasParent_of_lookup {r : CellResult} {cube : String} {calls : List Call}
    (h : calls.filter (·.isMember) = (parentNames r).map (.member cube)) {other name : String}
    (hcall : .member other name ∈ calls) : other = cube ∧ r.HasParent name := by
  have hmem : Call.member other name ∈ (parentNames r).map (Call.member cube) := by
    rw [← h]
    exact List.mem_filter.2 ⟨hcall, rfl⟩
  obtain ⟨found, hfound, heq⟩ := List.mem_map.1 hmem
  obtain ⟨rfl, rfl⟩ := Call.member.inj heq
  exact ⟨rfl, mem_parentNames_iff.1 hfound⟩

/-! ## Results -/

theorem kept_withParents (chains : List (String × List Member)) (a : ResultAxis) :
    a.Kept (withParents chains a) :=
  ⟨rfl, rfl, fun _ h => find?_parents_withParents_of_ne chains h⟩

theorem forall₂_kept_withParents (chains : List (String × List Member)) (axes : List ResultAxis) :
    List.Forall₂ ResultAxis.Kept axes (axes.take 1 ++ (axes.drop 1).map (withParents chains)) := by
  cases axes with
  | nil => exact .nil
  | cons measures drilldowns =>
      refine .cons (.refl measures) ?_
      show List.Forall₂ ResultAxis.Kept drilldowns (drilldowns.map (withParents chains))
      rw [List.forall₂_map_right_iff, List.forall₂_same]
      exact fun a _ => kept_withParents chains a

/-- Every member of a drilldown axis gets the chain that its own parent name gives, each name is looked up
once, and of the result only the entries under the parents of the members of an axis are new. -/
theorem fetchParents_memoizes {σ : Type} (engine : Engine σ)
    (lookup : String → String → Except EngineError (Option Member))
    (climb : String → Member → Except EngineError (List Member)) (hlookup : engine.LooksUp lookup)
    (hclimbs : engine.Climbs climb) (cube : String) (r r' : CellResult) (s t : σ)
    (h : (fetchParents engine cube r).run s = (.ok r', t)) (before : List Call) :
    (∀ a ∈ r'.drilldownAxes, ∀ m ∈ a.members,
      DirectChain lookup climb cube m.parentName (a.ancestorsOf m)) ∧
    (∃ calls, (fetchParents engine.traced cube r).run (s, before) = (.ok r', t, before ++ calls) ∧
      (∀ name, r.HasParent name → calls.count (.member cube name) = 1) ∧
      ∀ other name, .member other name ∈ calls → other = cube ∧ r.HasParent name) ∧
    r'.axes.head? = r.axes.head? ∧ r'.cells = r.cells ∧ r'.mdx = r.mdx ∧
    List.Forall₂ ResultAxis.Kept r.axes r'.axes := by
  refine ⟨fun a ha m hm => ?_, ?_, ?_⟩
  · cases hname : m.parentName with
    | none =>
        rw [ResultAxis.ancestorsOf, hname]
        exact .root
    | some name =>
        obtain ⟨u, v, hchain⟩ := chain_of_fetchParents h ha hm hname
        exact directChain_of_parentChain hlookup hclimbs hchain
  · obtain ⟨chains, hchains, hr⟩ := fetchParents_run_eq_ok.1 h
    obtain ⟨calls, hcalls, hlookups⟩ :=
      all_parentChain_traced engine cube (parentNames r) before s
    rw [hchains] at hcalls
    refine ⟨calls, fetchParents_run_eq_ok.2 ⟨chains, hcalls, hr⟩, fun name hname => ?_,
      fun other name hcall => ?_⟩
    · exact count_lookups hlookups hname
    · exact hasParent_of_lookup hlookups hcall
  · obtain ⟨chains, -, rfl⟩ := fetchParents_run_eq_ok.1 h
    refine ⟨?_, rfl, rfl, forall₂_kept_withParents _ r.axes⟩
    cases haxes : r.axes <;> simp [haxes, CellResult.drilldownAxes]

/-- Two axes share a parent, a third town lies below a place that the engine does not know, and an older
entry stays. -/
theorem fetchParents_memoizes_shared :
    let below (name : String) (parent : Option String) : Member :=
      { Tidy.storeMember name 2 "State" with parentName := parent }
    let usa := Tidy.storeMember "USA" 1 "Country"
    let world := Tidy.storeMember "World" 0 "All"
    let engine : Engine Unit := { storeEngine with
      member := fun _ name => pure (if name = "USA" then some usa else none)
      ancestors := fun _ _ => pure [world] }
    let r : CellResult := ⟨[.ofMembers [], .ofMembers [below "CA" (some "USA"), below "OR" (some "USA")],
      ⟨[below "Salem" (some "USA"), below "Ys" (some "Lyonesse"), below "Rome" none], none,
        ⟨[("Lyonesse", [world]), ("Mexico", [world])]⟩⟩], .dense [], none⟩
    ∃ r' shared older, (fetchParents engine "Sales" r).run () = (.ok r', ()) ∧
      r'.drilldownAxes = [shared, older] ∧ shared.ancestorsOf (below "OR" (some "USA")) = [usa, world] ∧
      older.ancestorsOf (below "Ys" (some "Lyonesse")) = [] ∧
      older.parents.find? "Mexico" = some [world] ∧
      ∃ calls, (fetchParents engine.traced "Sales" r).run ((), []) = (.ok r', (), calls) ∧
        calls.count (.member "Sales" "USA") = 1 := by
  intro below usa world engine r
  have hsome : ((fetchParents engine "Sales" r).run ()).1.toOption.isSome = true := by
    decide +kernel
  rcases hrun : (fetchParents engine "Sales" r).run () with ⟨outcome, _⟩
  cases outcome with
  | error e => simp [hrun, Except.toOption] at hsome
  | ok r' =>
      obtain ⟨hchains, ⟨calls, hcalls, hcount, -⟩, -, -, -, hkept⟩ :=
        fetchParents_memoizes engine (fun _ name => .ok (if name = "USA" then some usa else none))
          (fun _ _ => .ok [world]) (fun _ _ _ => rfl) (fun _ _ _ => rfl) "Sales" r r' () () hrun []
      obtain ⟨measures, drilldowns, -, hdrilldowns, haxes⟩ := List.forall₂_cons_left_iff.1 hkept
      obtain ⟨shared, others, hshared, hothers, rfl⟩ := List.forall₂_cons_left_iff.1 hdrilldowns
      obtain ⟨older, none, holder, hnone, rfl⟩ := List.forall₂_cons_left_iff.1 hothers
      obtain rfl := List.forall₂_nil_left_iff.1 hnone
      have hdrilldowns : r'.drilldownAxes = [shared, older] := by
        rw [CellResult.drilldownAxes, haxes]
        rfl
      have hor := hchains shared (by simp [hdrilldowns]) (below "OR" (some "USA"))
        (by simp [hshared.members, ResultAxis.ofMembers])
      have hys := hchains older (by simp [hdrilldowns]) (below "Ys" (some "Lyonesse"))
        (by simp [holder.members])
      refine ⟨r', shared, older, rfl, hdrilldowns, ?_, ?_, ?_, calls, hcalls, hcount "USA" ?_⟩
      · generalize shared.ancestorsOf _ = chain at hor
        cases hor with
        | unknown h => cases h
        | known hparent habove =>
            cases hparent
            cases habove
            rfl
      · generalize older.ancestorsOf _ = chain at hys
        cases hys with
        | unknown h => rfl
        | known hparent habove => cases hparent
      · rw [holder.parents "Mexico" (by simp [below])]
        rfl
      · exact ⟨.ofMembers [below "CA" (some "USA"), below "OR" (some "USA")], by
          simp [r, CellResult.drilldownAxes], below "CA" (some "USA"), by simp [ResultAxis.ofMembers], rfl⟩

end Aggregation

end CubeQuery
