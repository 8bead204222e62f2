import Mathlib.Data.List.Induction
import CubeQuery.Engine.Overlap
import CubeQuery.Proofs.Engine.Cache

/-!
# Calls that overlap a flush

A call of `cube` that begins after a flush has returned may still be served a cube from before the
flush: that is so just when another call has had its answer by then and keeps it later
(`serves_stale_iff`). Calls that do not overlap are runs of the same steps
(`Session.Reaches.exists_run`).
-/

namespace CubeQuery

/-- A call that begins within the history has returned a cube there. -/
def Serves (call : Nat) (name : String) (cube : Cube) (history : List Overlap.Event) : Prop :=
  .hit call name cube ∈ history ∨ .missed call name ∈ history ∧ .stored call name cube ∈ history

def Overlap.Event.returned? : Overlap.Event → Option CubeQuery.Event
  | .hit _ name cube | .stored _ name cube => some (.cube name (.ok cube))
  | .answered _ name (.error e) => some (.cube name (.error e))
  | .flushed _ (.error e) => some (.flush (.error e))
  | .cleared _ => some (.flush (.ok ()))
  | _ => none

namespace Session

variable {σ : Type} {session : Session σ} {x y z : Overlap σ} {e : Overlap.Event}
  {history later : List Overlap.Event}

/-! ## Runs -/

theorem run_append :
    session.Run x (history ++ later) z ↔ ∃ y, session.Run x history y ∧ session.Run y later z := by
  induction history generalizing x with
  | nil => simp [Run]
  | cons e rest ih =>
      constructor
      · rintro ⟨u, hu, hz⟩
        obtain ⟨y, hy, hz⟩ := ih.1 hz
        exact ⟨y, ⟨u, hu, hy⟩, hz⟩
      · rintro ⟨y, ⟨u, hu, hy⟩, hz⟩
        exact ⟨u, hu, ih.2 ⟨y, hy, hz⟩⟩

/-- What holds at the end of a run has held from the beginning or comes from one of its steps. -/
theorem Run.traces_back {P : Overlap σ → Prop} {Q : Overlap.Event → Prop}
    (hstep : ∀ e x y, session.Step e x y → P y → P x ∨ Q e)
    (h : session.Run x history y) (hy : P y) : P x ∨ ∃ e ∈ history, Q e := by
  induction history generalizing x with
  | nil =>
      obtain rfl : x = y := h
      exact .inl hy
  | cons e rest ih =>
      obtain ⟨u, hu, hrest⟩ := h
      obtain hP | ⟨e', hmem, hQ⟩ := ih hrest
      · obtain hP | hQ := hstep e x u hu hP
        · exact .inl hP
        · exact .inr ⟨e, List.mem_cons_self, hQ⟩
      · exact .inr ⟨e', List.mem_cons_of_mem e hmem, hQ⟩

/-- Each event of a run is a step between two of its states. -/
theorem Run.exists_step (h : session.Run x history z) (he : e ∈ history) :
    ∃ before after u v, history = before ++ e :: after ∧ session.Run x before u ∧
      session.Step e u v ∧ session.Run v after z := by
  obtain ⟨before, after, rfl⟩ := List.append_of_mem he
  obtain ⟨u, hu, v, hv, hz⟩ := run_append.1 h
  exact ⟨before, after, u, v, rfl, hu, hv, hz⟩

/-! ## Single steps -/

theorem cubes_of_onEngine_run {α : Type} {action : QueryM σ α} {s t : SessionState σ}
    {outcome : Except QueryError α} (hrun : (SessionM.onEngine action).run s = (outcome, t)) :
    t.cubes = s.cubes := by
  rw [onEngine_run] at hrun
  cases hrun
  rfl

/-- A cube is kept only by a call that stores it. -/
theorem Step.kept? {name : String} {cube : Cube} (h : session.Step e x y)
    (hkept : session.kept? name y.state = some cube) :
    session.kept? name x.state = some cube ∨ ∃ call, e = .stored call name cube := by
  have hold : y.state.cubes = x.state.cubes → session.kept? name x.state = some cube := by
    intro hcubes
    rwa [Session.kept?, ← hcubes]
  cases h with
  | @stored _ call asked given =>
      by_cases hcaching : session.caching = true
      · have hinsert : (x.state.cubes.insert asked given).find? name = some cube := by
          simpa [Session.kept?, keep, hcaching, Overlap.put] using hkept
        rw [NameMap.find?_insert] at hinsert
        by_cases hname : name = asked
        · rw [if_pos hname, Option.some.injEq] at hinsert
          exact .inr ⟨call, by rw [hname, hinsert]⟩
        · rw [if_neg hname] at hinsert
          exact .inl (by rwa [Session.kept?, if_pos hcaching])
      · simp [Session.kept?, hcaching] at hkept
  | cleared => simp [Session.kept?, Overlap.put] at hkept
  | answered _ hrun => exact .inl (hold (cubes_of_onEngine_run hrun))
  | refused _ hrun => exact .inl (hold (cubes_of_onEngine_run hrun))
  | flushed _ hrun => exact .inl (hold (cubes_of_onEngine_run hrun))
  | unflushed _ hrun => exact .inl (hold (cubes_of_onEngine_run hrun))
  | _ => exact .inl hkept

theorem put_calls (s : SessionState σ) (call other : Nat) (progress : Progress) :
    (x.put s call progress).calls other = if other = call then progress else x.calls other :=
  Function.update_apply ..

theorem Step.answered? {call : Nat} {name : String} {cube : Cube} (h : session.Step e x y)
    (hcall : y.calls call = .answered name cube) :
    x.calls call = .answered name cube ∨ e = .answered call name (.ok cube) := by
  cases h with
  | @answered _ _ other =>
      rw [put_calls] at hcall
      by_cases hother : call = other
      · rw [if_pos hother] at hcall
        cases hcall
        exact .inr (by rw [hother])
      · rw [if_neg hother] at hcall
        exact .inl hcall
  | changed => exact .inl hcall
  | _ =>
      rw [put_calls] at hcall
      split at hcall
      · cases hcall
      · exact .inl hcall

/-- A step is taken by one call at most. -/
theorem Step.exists_calls_eq (h : session.Step e x y) :
    ∃ call, ∀ other, other ≠ call → y.calls other = x.calls other := by
  cases h with
  | changed => exact ⟨0, fun _ _ => rfl⟩
  | _ => exact ⟨_, fun other hother => by rw [put_calls, if_neg hother]⟩

/-- There is always a call that has not begun. -/
theorem Run.exists_unstarted {engine : σ} (h : session.Run (.initial engine) history x) :
    ∃ bound, ∀ call, bound ≤ call → x.calls call = .unstarted := by
  induction history using List.reverseRecOn generalizing x with
  | nil =>
      obtain rfl : Overlap.initial engine = x := h
      exact ⟨0, fun _ _ => rfl⟩
  | append_singleton rest e ih =>
      obtain ⟨u, hu, v, hstep, rfl⟩ := run_append.1 h
      obtain ⟨bound, hbound⟩ := ih hu
      obtain ⟨call, hcall⟩ := hstep.exists_calls_eq
      refine ⟨max bound (call + 1), fun other hother => ?_⟩
      rw [hcall other (by omega), hbound other (by omega)]

/-! ## Where a cube comes from -/

/-- Who stores a cube has been given it by the engine, within the run or before. -/
theorem Run.answered_of_stored {call : Nat} {name : String} {cube : Cube}
    (h : session.Run x history y) (hstored : .stored call name cube ∈ history) :
    x.calls call = .answered name cube ∨ .answered call name (.ok cube) ∈ history := by
  obtain ⟨before, after, u, v, rfl, hbefore, hstep, -⟩ := h.exists_step hstored
  have hu : u.calls call = .answered name cube := by
    cases hstep
    assumption
  obtain hx | ⟨e, he, rfl⟩ := hbefore.traces_back
    (P := fun x => x.calls call = .answered name cube) (fun _ _ _ hstep => hstep.answered?) hu
  · exact .inl hx
  · exact .inr (List.mem_append_left _ he)

theorem Run.answered? {call : Nat} {name : String} {cube : Cube} (h : session.Run x history y)
    (hcall : y.calls call = .answered name cube) :
    x.calls call = .answered name cube ∨ .answered call name (.ok cube) ∈ history := by
  obtain hx | ⟨e, he, rfl⟩ := h.traces_back
    (P := fun x => x.calls call = .answered name cube) (fun _ _ _ hstep => hstep.answered?) hcall
  · exact .inl hx
  · exact .inr he

/-- A cube that is served has been kept from the beginning of the run or is stored within it. -/
theorem Run.stored_of_hit {call : Nat} {name : String} {cube : Cube} (h : session.Run x history y)
    (hhit : .hit call name cube ∈ history) :
    session.kept? name x.state = some cube ∨ ∃ other, .stored other name cube ∈ history := by
  obtain ⟨before, after, u, v, rfl, hbefore, hstep, -⟩ := h.exists_step hhit
  have hu : session.kept? name u.state = some cube := by
    cases hstep
    assumption
  obtain hx | ⟨e, he, other, rfl⟩ := hbefore.traces_back
    (P := fun x => session.kept? name x.state = some cube) (fun _ _ _ hstep => hstep.kept?) hu
  · exact .inl hx
  · exact .inr ⟨other, List.mem_append_left _ he⟩

/-- Where no cube is kept, what is served is given by the engine or stored by a call that has had
its answer. -/
theorem Run.of_serves {call : Nat} {name : String} {cube : Cube} (h : session.Run x history y)
    (hempty : session.kept? name x.state = none) (hserves : Serves call name cube history) :
    (∃ other, .answered other name (.ok cube) ∈ history) ∨
      ∃ other, x.calls other = .answered name cube ∧ .stored other name cube ∈ history := by
  obtain ⟨other, hstored⟩ : ∃ other, .stored other name cube ∈ history := by
    obtain hhit | ⟨-, hstored⟩ := hserves
    · obtain hkept | hstored := h.stored_of_hit hhit
      · rw [hempty] at hkept
        cases hkept
      · exact hstored
    · exact ⟨call, hstored⟩
  obtain hwaiting | hanswered := h.answered_of_stored hstored
  · exact .inr ⟨other, hwaiting, hstored⟩
  · exact .inl ⟨other, hanswered⟩

/-! ## After a flush -/

section Flushed

variable {engine : σ} {before during : List Overlap.Event} {flush : Nat}

theorem Run.kept?_of_cleared (h : session.Run x (history ++ [.cleared flush]) y) (name : String) :
    session.kept? name y.state = none := by
  obtain ⟨u, -, v, hstep, rfl⟩ := run_append.1 h
  cases hstep
  simp [Session.kept?, Overlap.put]

/-- A call that has its answer keeps it, and the next call is served from there. -/
theorem exists_run_hit (hcaching : session.caching = true) {name : String} {cube : Cube}
    {other call : Nat} (hanswered : x.calls other = .answered name cube)
    (hnew : x.calls call = .unstarted) :
    ∃ y, session.Run x [.stored other name cube, .hit call name cube] y := by
  have hne : call ≠ other := by
    rintro rfl
    rw [hanswered] at hnew
    cases hnew
  have hkept : session.kept? name (session.keep name cube x.state) = some cube := by
    rw [Session.kept?, if_pos hcaching, keep, if_pos hcaching, NameMap.find?_insert_self]
  exact ⟨_, _, .stored hanswered, _, .hit ((put_calls ..).trans (if_neg hne ▸ hnew)) hkept, rfl⟩

/-- When a flush returns, a cube that the engine has not given since it was flushed may be served to
a call that begins later just when some call has been given it before and has not stored it yet. -/
theorem serves_stale_iff (hcaching : session.caching = true)
    (h : session.Run (.initial engine)
      (before ++ .flushed flush (.ok ()) :: during ++ [.cleared flush]) x)
    (name : String) (cube : Cube) :
    (∃ after y call, session.Run x after y ∧ Serves call name cube after ∧
      ∀ other, .answered other name (.ok cube) ∉ during ++ after) ↔
    (∃ other, .answered other name (.ok cube) ∈ before ∧ x.calls other = .answered name cube) ∧
      ∀ other, .answered other name (.ok cube) ∉ during := by
  constructor
  -- The flush leaves no cube behind, so a stale one is stored later, by a call that has it already.
  · rintro ⟨after, y, call, hafter, hserves, hstale⟩
    have hduring : ∀ other, .answered other name (.ok cube) ∉ during :=
      fun other hmem => hstale other (List.mem_append_left _ hmem)
    refine ⟨?_, hduring⟩
    obtain ⟨other, hanswered⟩ | ⟨other, hwaiting, -⟩ :=
      hafter.of_serves (h.kept?_of_cleared name) hserves
    · exact (hstale other (List.mem_append_right _ hanswered)).elim
    · obtain ⟨⟨⟩⟩ | hanswered := h.answered? hwaiting
      have hbefore : .answered other name (.ok cube) ∈ before := by
        simpa [hduring other] using hanswered
      exact ⟨other, hbefore, hwaiting⟩
  -- That call stores its cube, and the next one to begin finds it.
  · rintro ⟨⟨other, -, hwaiting⟩, hduring⟩
    obtain ⟨bound, hbound⟩ := h.exists_unstarted
    obtain ⟨y, hy⟩ := exists_run_hit hcaching hwaiting (hbound bound (Nat.le_refl bound))
    refine ⟨_, y, bound, hy, .inl (by simp), fun third => ?_⟩
    simpa using hduring third

end Flushed

/-- Gives one more measure after each flush. -/
def reloadingEngine : Engine Nat :=
  { growingEngine with
    cube := fun _ => do
      let version ← get
      let units : Measure := ⟨"Units", "Units", "[Measures].[Units]", true, NameMap.empty⟩
      return some ⟨"Sales", NameMap.empty, [], List.replicate version units, []⟩
    flush := modify (· + 1) }

/-- The first call has had its answer when the flush begins and stores it after the flush has
ended. -/
theorem serves_stale_iff_reloading :
    ∃ (x : Overlap Nat) (cube : Cube),
      Session.Run ⟨reloadingEngine, true⟩ (.initial 1)
        [.missed 0 "Sales", .answered 0 "Sales" (.ok cube), .flushed 1 (.ok ()), .cleared 1] x ∧
      ∃ after y call, Session.Run ⟨reloadingEngine, true⟩ x after y ∧ Serves call "Sales" cube after ∧
        ∀ other, .answered other "Sales" (.ok cube) ∉ [] ++ after := by
  obtain ⟨x, cube, hrun, hwaiting⟩ : ∃ (x : Overlap Nat) (cube : Cube),
      Session.Run ⟨reloadingEngine, true⟩ (.initial 1)
        [.missed 0 "Sales", .answered 0 "Sales" (.ok cube), .flushed 1 (.ok ()), .cleared 1] x ∧
      x.calls 0 = .answered "Sales" cube :=
    ⟨_, _, ⟨_, .missed rfl rfl, _, .answered rfl rfl, _, .flushed rfl rfl, _, .cleared rfl, rfl⟩, rfl⟩
  have hsplit : Session.Run ⟨reloadingEngine, true⟩ (.initial 1)
      ([.missed 0 "Sales", .answered 0 "Sales" (.ok cube)] ++ .flushed 1 (.ok ()) :: [] ++ [.cleared 1])
      x := hrun
  have hstale := serves_stale_iff rfl hsplit "Sales" cube
  exact ⟨x, cube, hrun, hstale.2 ⟨⟨0, by simp, hwaiting⟩, by simp⟩⟩

/-- A call that begins after a flush is served what another one has been given before the flush,
though nothing has been given since and the engine has a newer cube by then. -/
theorem not_fresh_after_flush :
    ∃ (cube newer : Cube) (x : Overlap Nat),
      Session.Run ⟨reloadingEngine, true⟩ (.initial 1)
        ([.missed 0 "Sales", .answered 0 "Sales" (.ok cube)] ++ .flushed 1 (.ok ()) ::
          [.cleared 1] ++ [.stored 0 "Sales" cube, .hit 2 "Sales" cube]) x ∧
      Serves 2 "Sales" cube [.stored 0 "Sales" cube, .hit 2 "Sales" cube] ∧
      (∀ call outcome, .answered call "Sales" outcome ∉
        [Overlap.Event.cleared 1, .stored 0 "Sales" cube, .hit 2 "Sales" cube]) ∧
      ((Session.fetchCube ⟨reloadingEngine, true⟩ "Sales").run x.state.engine).1 = .ok newer ∧
      cube.measures.length = 1 ∧ newer.measures.length = 2 := by
  refine ⟨_, _, _, ⟨_, .missed rfl rfl, _, .answered rfl rfl, _, .flushed rfl rfl, _, .cleared rfl,
    _, .stored rfl, _, .hit rfl rfl, rfl⟩, .inl (by simp), by simp, rfl, rfl, rfl⟩

/-! ## Calls one after another -/

section Sequential

variable {call : Nat} {t : SessionState σ}

theorem exists_run_of_cube_run {name : String} {outcome : Except QueryError Cube}
    (hnew : x.calls call = .unstarted) (hrun : (session.cube name).run x.state = (outcome, t)) :
    ∃ events y, session.Run x events y ∧ y.state = t ∧
      events.filterMap Overlap.Event.returned? = [.cube name outcome] := by
  rw [cube_run] at hrun
  cases hkept : session.kept? name x.state with
  | some cube =>
      rw [hkept] at hrun
      cases hrun
      exact ⟨[.hit call name cube], _, ⟨_, .hit hnew hkept, rfl⟩, rfl, rfl⟩
  | none =>
      rw [hkept] at hrun
      dsimp only at hrun
      rw [Action.bind_run] at hrun
      have hasking : (x.put x.state call (.asking name)).calls call = .asking name :=
        (put_calls ..).trans (if_pos rfl)
      rcases hanswer : (SessionM.onEngine (session.fetchCube name)).run x.state with ⟨_ | cube, s⟩
      · rw [hanswer] at hrun
        cases hrun
        exact ⟨[.missed call name, .answered call name _], _,
          ⟨_, .missed hnew hkept, _, .refused hasking hanswer, rfl⟩, rfl, rfl⟩
      · rw [hanswer] at hrun
        cases hrun
        have hanswered :
            ((x.put x.state call (.asking name)).put s call (.answered name cube)).calls call =
              .answered name cube := (put_calls ..).trans (if_pos rfl)
        exact ⟨[.missed call name, .answered call name (.ok cube), .stored call name cube], _,
          ⟨_, .missed hnew hkept, _, .answered hasking hanswer, _, .stored hanswered, rfl⟩, rfl, rfl⟩

theorem exists_run_of_flush_run {outcome : Except QueryError Unit} (hnew : x.calls call = .unstarted)
    (hrun : session.flush.run x.state = (outcome, t)) :
    ∃ events y, session.Run x events y ∧ y.state = t ∧
      events.filterMap Overlap.Event.returned? = [.flush outcome] := by
  rw [Session.flush, Action.bind_run] at hrun
  rcases hflush : (SessionM.onEngine session.engine.flush.toQuery).run x.state with ⟨_ | ⟨⟩, s⟩
  · rw [hflush] at hrun
    cases hrun
    exact ⟨[.flushed call _], _, ⟨_, .unflushed hnew hflush, rfl⟩, rfl, rfl⟩
  · rw [hflush] at hrun
    cases hrun
    have hclearing : (x.put s call .clearing).calls call = .clearing :=
      (put_calls ..).trans (if_pos rfl)
    exact ⟨[.flushed call (.ok ()), .cleared call], _,
      ⟨_, .flushed hnew hflush, _, .cleared hclearing, rfl⟩, rfl, rfl⟩

/-- Calls one after another are a run in which none overlaps. -/
theorem Reaches.exists_run {engine : σ} {calls : List Event}
    (h : session.Reaches engine calls t) :
    ∃ events x, session.Run (.initial engine) events x ∧ x.state = t ∧
      events.filterMap Overlap.Event.returned? = calls := by
  induction h with
  | created => exact ⟨[], _, rfl, rfl, rfl⟩
  | meanwhile _ changed ih =>
      obtain ⟨events, x, hx, rfl, rfl⟩ := ih
      exact ⟨events ++ [.changed], _, run_append.2 ⟨x, hx, _, .changed changed, rfl⟩, rfl,
        by simp [Overlap.Event.returned?]⟩
  | cube _ hrun ih =>
      obtain ⟨events, x, hx, rfl, rfl⟩ := ih
      obtain ⟨bound, hbound⟩ := hx.exists_unstarted
      obtain ⟨later, y, hy, hstate, hreturned⟩ :=
        exists_run_of_cube_run (hbound bound (Nat.le_refl bound)) hrun
      exact ⟨events ++ later, y, run_append.2 ⟨x, hx, hy⟩, hstate, by simp [hreturned]⟩
  | flush _ hrun ih =>
      obtain ⟨events, x, hx, rfl, rfl⟩ := ih
      obtain ⟨bound, hbound⟩ := hx.exists_unstarted
      obtain ⟨later, y, hy, hstate, hreturned⟩ :=
        exists_run_of_flush_run (hbound bound (Nat.le_refl bound)) hrun
      exact ⟨events ++ later, y, run_append.2 ⟨x, hx, hy⟩, hstate, by simp [hreturned]⟩

end Sequential

end Session

end CubeQuery
