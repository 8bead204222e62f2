import CubeQuery.Proofs.Plan.FilterNumbers
import CubeQuery.Proofs.Plan.Measures

/-!
# Calculated measures of a query

A filter makes a calculated measure of every measure that is asked for, as often as it is asked for, and
names it after that measure alone. So one is defined twice exactly if a measure is asked for twice, and
takes the name of a measure of the cube exactly if that has the calculated name for its own
(`calculatedNames_fresh_iff`).
-/

namespace CubeQuery.Plan

open Mdx

def requestedNames (cube : Cube) (names : List String) : List String :=
  if names.isEmpty then (cube.defaultMeasure?.map (·.name)).toList else names.map Text.trimmed

theorem names_of_resolveMeasures {cube : Cube} {names : List String} {measures : List Measure}
    (h : resolveMeasures cube names = .ok measures) :
    measures.map (·.name) = requestedNames cube names := by
  unfold resolveMeasures at h
  unfold requestedNames
  by_cases hempty : names.isEmpty = true
  · rw [if_pos hempty] at h ⊢
    cases hdefault : cube.defaultMeasure? with
    | none =>
        rw [hdefault] at h
        cases h
    | some m =>
        rw [hdefault] at h
        cases h
        rfl
  · rw [if_neg hempty] at h ⊢
    have hpairs : List.Forall₂ (fun name m => Text.trimmed name = m.name) names measures :=
      (mapM_eq_ok.1 h).imp fun _ _ hm => (resolveMeasure_eq_ok hm).2.symm
    have hnames : List.Forall₂ (· = ·) (names.map Text.trimmed) (measures.map (·.name)) :=
      List.forall₂_map_left_iff.2 (List.forall₂_map_right_iff.2 hpairs)
    rw [List.forall₂_eq_eq_eq] at hnames
    exact hnames.symm

/-- One default measure is no repetition. -/
theorem nodup_requestedNames_iff (cube : Cube) (names : List String) :
    (requestedNames cube names).Nodup ↔ (names.map Text.trimmed).Nodup := by
  unfold requestedNames
  by_cases hempty : names.isEmpty = true
  · rw [if_pos hempty, List.isEmpty_iff.1 hempty]
    cases cube.defaultMeasure? <;> simp
  · rw [if_neg hempty]

theorem isEmpty_filter_of_condition {cube : Cube} {clauses : List String} {c : Condition}
    (h : Filter.condition cube clauses = .ok c) : c.isEmpty = clauses.isEmpty := by
  have hlength := (mapM_eq_ok.1 (Filter.condition_eq_ok.1 h)).length_eq
  unfold Condition.isEmpty
  rw [Bool.eq_iff_iff, List.isEmpty_iff_length_eq_zero, List.isEmpty_iff_length_eq_zero, hlength]

/-- Under a filter a calculated measure is defined for every requested one and listed on the first axis
in its place. Their names differ exactly if those asked for do, and are new exactly if no measure of the
cube has one of them for its own. -/
theorem calculatedNames_fresh_iff {σ : Type} (engine : Engine σ) (cube : Cube) (r : Request)
    (hfilter : r.filter ≠ []) (s t : σ) (q : CompiledQuery)
    (h : (compile engine cube r).run s = (.ok q, t)) :
    ∃ names : List String,
      names = (requestedNames cube r.measures).map FilteredMeasure.uniqueName ∧
      q.toQuery.members = q.measures.map (fun m =>
        ⟨FilteredMeasure.uniqueName m.name, m.fullName, q.filter⟩) ∧
      q.toQuery.members.map (·.name) = names ∧
      q.toQuery.axes.head? = some ⟨.set (names.map .member), q.nonempty⟩ ∧
      (names.Nodup ↔ (r.measures.map Text.trimmed).Nodup) ∧
      ((∀ name ∈ names, ∀ m ∈ cube.measures, m.fullName ≠ name) ↔
        ∀ asked ∈ requestedNames cube r.measures, ∀ m ∈ cube.measures,
          m.fullName ≠ "[Measures]." ++ quoteName ("Filtered " ++ asked)) := by
  obtain ⟨hmeasures, hcondition⟩ := measures_of_compile h
  have hnotEmpty : q.filter.isEmpty = false := by
    rw [isEmpty_filter_of_condition hcondition]
    exact List.isEmpty_eq_false_iff.2 hfilter
  have hmembers : q.toQuery.members = q.measures.map (fun m =>
      ⟨FilteredMeasure.uniqueName m.name, m.fullName, q.filter⟩) := by
    simp [CompiledQuery.toQuery, CompiledQuery.definitions, CompiledQuery.filtered,
      FilteredMeasure.ofMeasure, hnotEmpty]
  have hnames : q.toQuery.members.map (·.name) =
      (requestedNames cube r.measures).map FilteredMeasure.uniqueName := by
    rw [hmembers, ← names_of_resolveMeasures hmeasures, List.map_map, List.map_map]
    rfl
  have haxis : q.toQuery.axes.head? =
      some ⟨.set ((q.toQuery.members.map (·.name)).map .member), q.nonempty⟩ := by
    rw [hmembers]
    simp [CompiledQuery.toQuery, CompiledQuery.measureName, CompiledQuery.filtered,
      FilteredMeasure.ofMeasure, hnotEmpty]
  refine ⟨_, rfl, hmembers, hnames, hnames ▸ haxis, ?_, List.forall_mem_map⟩
  rw [← nodup_requestedNames_iff cube]
  exact List.nodup_map_iff fun a b => FilteredMeasure.uniqueName_inj.1

/-- Two measures of a cube without calculated names, asked for in another order. -/
theorem calculatedNames_fresh_iff_two_measures :
    let cube : Cube := ⟨"Sales", .empty, [],
      [⟨"Units", "Units", "[Measures].[Units]", true, .empty⟩,
        ⟨"Cost", "Cost", "[Measures].[Cost]", true, .empty⟩], []⟩
    let r : Request := { Request.empty with measures := [" Cost", "Units"], filter := ["Units > 1"] }
    r.filter ≠ [] ∧ ∃ q, (compile silentEngine cube r).run () = (.ok q, ()) ∧
      q.toQuery.members.map (·.name) =
        ["[Measures].[Filtered Cost]", "[Measures].[Filtered Units]"] ∧
      (q.toQuery.members.map (·.name)).Nodup ∧
      ∀ name ∈ q.toQuery.members.map (·.name), ∀ m ∈ cube.measures, m.fullName ≠ name := by
  intro cube r
  have hcompiles : ((compile silentEngine cube r).run ()).1.toOption.isSome = true := by
    decide +kernel
  rcases hrun : (compile silentEngine cube r).run () with ⟨outcome, _⟩
  cases outcome with
  | error e => simp [hrun, Except.toOption] at hcompiles
  | ok q =>
      have hfilter : r.filter ≠ [] := by decide
      have hnames : (r.measures.map Text.trimmed).Nodup := by decide
      have hfree : ∀ asked ∈ requestedNames cube r.measures, ∀ m ∈ cube.measures,
          m.fullName ≠ "[Measures]." ++ quoteName ("Filtered " ++ asked) := by decide +kernel
      obtain ⟨names, hrequested, -, hmembers, -, hnodup, hfresh⟩ :=
        calculatedNames_fresh_iff silentEngine cube r hfilter () () q hrun
      refine ⟨hfilter, q, rfl, ?_⟩
      rw [hmembers]
      refine ⟨?_, hnodup.2 hnames, hfresh.2 hfree⟩
      rw [hrequested]
      decide +kernel

/-- A measure that is asked for twice has its calculated measure defined twice, here under the name of
another measure of the cube. -/
theorem calculatedNames_repeated_and_taken :
    let cube : Cube := ⟨"Sales", .empty, [],
      [⟨"Filtered Units", "Filtered Units", "[Measures].[Filtered Units]", true, .empty⟩,
        ⟨"Units", "Units", "[Measures].[Units]", true, .empty⟩], []⟩
    let r : Request := { Request.empty with measures := ["Units", "Units"], filter := ["Units > 1"] }
    (cube.measures.map (·.name)).Nodup ∧ (cube.measures.map (·.fullName)).Nodup ∧ r.filter ≠ [] ∧
    ∃ q, (compile silentEngine cube r).run () = (.ok q, ()) ∧
      ¬ (q.toQuery.members.map (·.name)).Nodup ∧
      ∃ d ∈ q.toQuery.members, ∃ m ∈ cube.measures, m.fullName = d.name := by
  intro cube r
  have hq : ((compile silentEngine cube r).run ()).1.toOption.map
      (fun q => q.toQuery.members.map (·.name)) =
        some ["[Measures].[Filtered Units]", "[Measures].[Filtered Units]"] := by
    decide +kernel
  rcases hrun : (compile silentEngine cube r).run () with ⟨outcome, _⟩
  cases outcome with
  | error e => simp [hrun, Except.toOption] at hq
  | ok q =>
      simp only [hrun, Except.toOption, Option.map_some, Option.some.injEq] at hq
      refine ⟨by decide, by decide, by decide, q, rfl, by simp [hq], ?_⟩
      have hmem : "[Measures].[Filtered Units]" ∈ q.toQuery.members.map (·.name) := by simp [hq]
      obtain ⟨d, hd, hname⟩ := List.mem_map.1 hmem
      exact ⟨d, hd, _, List.mem_cons_self, hname.symm⟩

end CubeQuery.Plan
