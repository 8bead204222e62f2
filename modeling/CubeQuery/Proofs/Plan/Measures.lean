import Mathlib.Data.List.Nodup
import CubeQuery.Proofs.Mdx.Quoting
import CubeQuery.Proofs.Plan.Compile

/-!
# Measures of the first axis

The first axis lists the requested measures, under calculated names if there is a filter. Each name
leads back to the measure it stands for, unless a measure that is requested before has that name of its
own (`requestedMeasure?_firstAxis_iff`).
-/

namespace CubeQuery

open Mdx

namespace Plan

/-! ## Requested measures -/

theorem resolveMeasure_eq_ok {cube : Cube} {name : String} {m : Measure}
    (h : resolveMeasure cube name = .ok m) : m ∈ cube.measures ∧ m.name = Text.trimmed name := by
  unfold resolveMeasure at h
  split at h
  · rename_i hfound
    cases h
    have hname := List.find?_some hfound
    exact ⟨List.mem_of_find?_eq_some hfound, by simpa using hname⟩
  · cases h

theorem subset_of_resolveMeasures {cube : Cube} {names : List String} {measures : List Measure}
    (h : resolveMeasures cube names = .ok measures) : measures ⊆ cube.measures := by
  rw [resolveMeasures] at h
  split at h
  · split at h
    · rename_i hdefault
      cases h
      simpa using List.mem_of_head? hdefault
    · cases h
  · intro m hm
    obtain ⟨name, _, hname⟩ := exists_of_mem_mapM h hm
    exact (resolveMeasure_eq_ok hname).1

theorem measures_of_compile {σ : Type} {engine : Engine σ} {cube : Cube} {r : Request} {s t : σ}
    {q : CompiledQuery} (h : (compile engine cube r).run s = (.ok q, t)) :
    resolveMeasures cube r.measures = .ok q.measures ∧
      Filter.condition cube r.filter = .ok q.filter := by
  obtain ⟨measures, drilldowns, cuts, hmeasures, -, -, hresolved⟩ := compile_run_eq_ok.1 h
  obtain ⟨filter, order, plan, hfilter, -, -, hassemble⟩ := compileResolved_eq_ok.1 hresolved
  obtain ⟨-, sets, -, rfl⟩ := assemble_eq_ok.1 hassemble
  exact ⟨hmeasures, hfilter⟩

/-! ## Names that lead back -/

theorem find?_append_cons_eq_some_iff {α : Type} {p : α → Bool} {before after : List α} {a : α}
    (ha : p a = true) (hbefore : a ∉ before) :
    (before ++ a :: after).find? p = some a ↔ ∀ b ∈ before, p b = false := by
  rw [List.find?_append, List.find?_cons_of_pos ha]
  cases hfound : before.find? p with
  | none =>
      have hnone := List.find?_eq_none.1 hfound
      simpa using hnone
  | some b =>
      have hb := List.mem_of_find?_eq_some hfound
      have hp := List.find?_some hfound
      constructor
      · intro h
        simp only [Option.some_or, Option.some.injEq] at h
        exact absurd (h ▸ hb) hbefore
      · intro h
        rw [h b hb] at hp
        cases hp

namespace CompiledQuery

/-- No measure has for its own unique name the calculated name of one that is requested only after it. -/
def CalculatedNamesFree (q : CompiledQuery) : Prop :=
  ∀ before m after, q.measures = before ++ m :: after → m ∉ before →
    ∀ a ∈ before, a.fullName ≠ FilteredMeasure.uniqueName m.name

/-- The name of a measure on the first axis leads back to it if no measure before it has that name. -/
theorem requestedMeasure?_measureName_iff {q : CompiledQuery} {before after : List Measure} {m : Measure}
    (hnames : ∀ a ∈ q.measures, ∀ b ∈ q.measures, a.name = b.name → a = b)
    (hfullNames : ∀ a ∈ q.measures, ∀ b ∈ q.measures, a.fullName = b.fullName → a = b)
    (hmeasures : q.measures = before ++ m :: after) (hm : m ∉ before) :
    q.requestedMeasure? (q.measureName m) = some m ↔
      q.filter.isEmpty = true ∨ ∀ a ∈ before, a.fullName ≠ FilteredMeasure.uniqueName m.name := by
  have hmem : m ∈ q.measures := by simp [hmeasures]
  have hothers : ∀ a ∈ before, a ∈ q.measures ∧ a ≠ m := by
    intro a ha
    refine ⟨by simp [hmeasures, ha], ?_⟩
    rintro rfl
    exact hm ha
  rw [requestedMeasure?, measureName]
  by_cases hfilter : q.filter.isEmpty = true
  · have hbefore : ∀ a ∈ before, a.fullName ≠ m.fullName := by
      intro a ha heq
      obtain ⟨hamem, hne⟩ := hothers a ha
      exact hne (hfullNames a hamem m hmem heq)
    rw [hmeasures, find?_append_cons_eq_some_iff _ hm]
    · simpa [hfilter] using hbefore
    · simp [hfilter]
  · have hbefore : ∀ a ∈ before,
        FilteredMeasure.uniqueName a.name ≠ FilteredMeasure.uniqueName m.name := by
      intro a ha heq
      obtain ⟨hamem, hne⟩ := hothers a ha
      exact hne (hnames a hamem m hmem (FilteredMeasure.uniqueName_inj.1 heq))
    rw [hmeasures, find?_append_cons_eq_some_iff _ hm]
    · simp only [hfilter, filtered, FilteredMeasure.ofMeasure, Bool.false_eq_true, if_false, false_or,
        Bool.not_false, Bool.true_and, Bool.or_eq_false_iff, beq_eq_false_iff_ne]
      exact ⟨fun h a ha => (h a ha).1, fun h a ha => ⟨h a ha, hbefore a ha⟩⟩
    · simp [hfilter, filtered, FilteredMeasure.ofMeasure]

end CompiledQuery

/-- The first axis has one name for each requested measure, in order. All names lead back to their
measures exactly if there is no filter or no measure stands in the way of another. -/
theorem requestedMeasure?_firstAxis_iff {σ : Type} (engine : Engine σ) (cube : Cube)
    (hnames : (cube.measures.map (·.name)).Nodup) (hfullNames : (cube.measures.map (·.fullName)).Nodup)
    (r : Request) (s t : σ) (q : CompiledQuery) (h : (compile engine cube r).run s = (.ok q, t)) :
    ∃ names : List String, q.toQuery.axes.head? = some ⟨.set (names.map .member), q.nonempty⟩ ∧
      (names.map q.requestedMeasure? = q.measures.map some ↔
        q.filter.isEmpty = true ∨ q.CalculatedNamesFree) := by
  have hsubset := subset_of_resolveMeasures (measures_of_compile h).1
  have hname : ∀ a ∈ q.measures, ∀ b ∈ q.measures, a.name = b.name → a = b :=
    fun a ha b hb => List.inj_on_of_nodup_map hnames (hsubset ha) (hsubset hb)
  have hfullName : ∀ a ∈ q.measures, ∀ b ∈ q.measures, a.fullName = b.fullName → a = b :=
    fun a ha b hb => List.inj_on_of_nodup_map hfullNames (hsubset ha) (hsubset hb)
  refine ⟨q.measures.map q.measureName, by simp [CompiledQuery.toQuery], ?_⟩
  rw [List.map_map, List.map_inj_left]
  constructor
  · intro hback
    by_cases hfilter : q.filter.isEmpty = true
    · exact .inl hfilter
    · refine .inr fun before m after hmeasures hm => ?_
      have hm' := hback m (by simp [hmeasures])
      have hfree := (CompiledQuery.requestedMeasure?_measureName_iff hname hfullName hmeasures hm).1 hm'
      exact hfree.resolve_left hfilter
  · intro hfree m hmem
    obtain ⟨before, after, hmeasures, hm⟩ := List.eq_append_cons_of_mem hmem
    exact (CompiledQuery.requestedMeasure?_measureName_iff hname hfullName hmeasures hm).2
      (hfree.imp_right fun hfree => hfree before m after hmeasures hm)

def silentEngine : Engine Unit where
  cubeNames := pure []
  cube _ := pure none
  member _ _ := pure none
  ancestors _ _ := pure []
  children _ _ := pure []
  levelMembers _ _ := pure []
  execute _ _ := throw (.unsupported "execute")
  flush := pure ()

/-- Two measures under a filter, neither of which has a calculated name for its own. -/
theorem requestedMeasure?_firstAxis_iff_filtered :
    let cube : Cube := ⟨"Sales", .empty, [],
      [⟨"Units", "Units", "[Measures].[Units]", true, .empty⟩,
        ⟨"Cost", "Cost", "[Measures].[Cost]", true, .empty⟩], []⟩
    let r : Request := { Request.empty with measures := ["Cost", "Units"], filter := ["Units > 1"] }
    (cube.measures.map (·.name)).Nodup ∧ (cube.measures.map (·.fullName)).Nodup ∧
    ∃ q, (compile silentEngine cube r).run () = (.ok q, ()) ∧ q.filter.isEmpty = false ∧
      ∃ names : List String, q.toQuery.axes.head? = some ⟨.set (names.map .member), q.nonempty⟩ ∧
        names.map q.requestedMeasure? = q.measures.map some := by
  intro cube r
  have hnames : (cube.measures.map (·.name)).Nodup := by decide
  have hfullNames : (cube.measures.map (·.fullName)).Nodup := by decide
  have hq : ((compile silentEngine cube r).run ()).1.toOption.map (fun q => (q.filter.isEmpty,
      q.measures.all fun a => q.measures.all fun b =>
        a.fullName != FilteredMeasure.uniqueName b.name)) = some (false, true) := by
    decide +kernel
  rcases hrun : (compile silentEngine cube r).run () with ⟨outcome, _⟩
  cases outcome with
  | error e => simp [hrun, Except.toOption] at hq
  | ok q =>
      simp only [hrun, Except.toOption, Option.map_some, Option.some.injEq, Prod.mk.injEq,
        List.all_eq_true, bne_iff_ne] at hq
      obtain ⟨hfilter, hothers⟩ := hq
      obtain ⟨names, haxis, hback⟩ :=
        requestedMeasure?_firstAxis_iff silentEngine cube hnames hfullNames r () () q hrun
      refine ⟨hnames, hfullNames, q, rfl, hfilter, names, haxis, hback.2 (.inr ?_)⟩
      intro before m after hmeasures _ a ha
      exact hothers a (by simp [hmeasures, ha]) m (by simp [hmeasures])

/-- Under a filter the calculated measure of one measure takes the name of another one, and leads back
to that. -/
theorem requestedMeasure?_taken_name :
    let cube : Cube := ⟨"Sales", .empty, [],
      [⟨"Filtered Units", "Filtered Units", "[Measures].[Filtered Units]", true, .empty⟩,
        ⟨"Units", "Units", "[Measures].[Units]", true, .empty⟩], []⟩
    let r : Request :=
      { Request.empty with measures := ["Filtered Units", "Units"], filter := ["Units > 1"] }
    (cube.measures.map (·.name)).Nodup ∧ (cube.measures.map (·.fullName)).Nodup ∧
    ∃ q, (compile silentEngine cube r).run () = (.ok q, ()) ∧
      ∃ names : List String, q.toQuery.axes.head? = some ⟨.set (names.map .member), q.nonempty⟩ ∧
        q.measures.map (·.name) = ["Filtered Units", "Units"] ∧
        names.map (fun name => (q.requestedMeasure? name).map (·.name)) =
          [some "Filtered Units", some "Filtered Units"] := by
  intro cube r
  have hq : ((compile silentEngine cube r).run ()).1.toOption.map (fun q => (q.measures.map (·.name),
      (q.measures.map q.measureName).map fun name => (q.requestedMeasure? name).map (·.name))) =
        some (["Filtered Units", "Units"], [some "Filtered Units", some "Filtered Units"]) := by
    decide +kernel
  rcases hrun : (compile silentEngine cube r).run () with ⟨outcome, _⟩
  cases outcome with
  | error e => simp [hrun, Except.toOption] at hq
  | ok q =>
      simp only [hrun, Except.toOption, Option.map_some, Option.some.injEq, Prod.mk.injEq] at hq
      exact ⟨by decide, by decide, q, rfl, q.measures.map q.measureName,
        by simp [CompiledQuery.toQuery], hq.1, hq.2⟩

end Plan

end CubeQuery
