import CubeQuery.Proofs.Bridge.Exchange

/-!
# Calls as exchanges

A call of the engine behind a bridge is a history of an exchange in which the request has the bridge
for itself (`call_eq_alone`).
-/

namespace CubeQuery.Bridge

namespace Exchange

/-- The steps of a request that has the bridge for itself, for what the bridge makes of its line: it
takes no input, or its lines arrive and it closes its output or not. -/
def alone (id : String) : Option Delivery → List Event
  | none => [.register id, .failWrite id, .leave id]
  | some d =>
    .register id :: .write id :: (d.lines.flatMap fun line => [.send line, .read line]) ++
      if d.closed then [.close, .stop false, .wake id]
      else if (firstResponse? id d.lines).isSome then [.wake id]
      else [.expire id, .leave id]

/-- Nothing is in flight, and the bridge and the reader are there. -/
structure Quiet (x : Exchange) : Prop where
  arriving : x.arriving = []
  closed : x.closed = false
  reading : x.reading = true

section Alone

variable (seconds : Nat) {x : Exchange} {id : String}

theorem Quiet.take (h : x.Quiet) (line : String) : (x.take line).Quiet := by
  rw [Exchange.take]
  split
  · rw [deliver]
    split
    · exact ⟨h.arriving, h.closed, h.reading⟩
    · exact h
  · exact h

theorem Quiet.run?_line (h : x.Quiet) (line : String) (rest : List Event) :
    x.run? seconds (.send line :: .read line :: rest) = (x.take line).run? seconds rest := by
  obtain ⟨phases, waiters, delivered, arriving, closed, reading⟩ := x
  obtain ⟨rfl, rfl, rfl⟩ := h
  simp [run?_cons, step?]

theorem Quiet.run?_lines (h : x.Quiet) (lines : List String) (rest : List Event) :
    x.run? seconds ((lines.flatMap fun line => [.send line, .read line]) ++ rest) =
      (lines.foldl Exchange.take x).run? seconds rest ∧ (lines.foldl Exchange.take x).Quiet := by
  induction lines generalizing x with
  | nil => exact ⟨rfl, h⟩
  | cons line others ih =>
      simp only [List.flatMap_cons, List.cons_append, List.nil_append]
      rw [h.run?_line seconds]
      exact ih (h.take line)

theorem view_foldl_take (lines : List String) :
    (lines.foldl Exchange.take x).view id = (x.view id).hearing id lines := by
  induction lines generalizing x with
  | nil => simp [View.hearing, firstResponse?]
  | cons line others ih =>
      have hfirst : (x.take line).view id = (x.view id).hearing id [line] :=
        Effect.of_read (effect_take line : Effect 0 id _ _ _)
      have hsplit : firstResponse? id (line :: others) =
          (firstResponse? id [line]).or (firstResponse? id others) :=
        firstResponse?_append id [line] others
      rw [List.foldl_cons, ih, hfirst, View.hearing, View.hearing, View.hearing, hsplit]
      cases hwaits : (x.view id).waits with
      | false => simp [hwaits]
      | true => cases firstResponse? id [line] <;> simp [hwaits]

/-- A request that begins is soon waiting. -/
theorem Quiet.exists_begin (h : x.Quiet) (hnew : x.view id = ⟨none, false, none⟩) :
    ∃ u : Exchange, u.Quiet ∧ u.view id = ⟨some .waiting, true, none⟩ ∧
      ∀ rest, x.run? seconds (.register id :: .write id :: rest) = u.run? seconds rest := by
  have hphase : x.phases.find? id = none := congrArg View.phase hnew
  refine ⟨((x.withWaiter id).put id .writing).put id .waiting, ⟨h.arriving, h.closed, h.reading⟩, ?_,
    fun rest => ?_⟩
  · rw [view_put, view_put, view_withWaiter, hnew]
  · have hwriting : ((x.withWaiter id).put id .writing).phases.find? id = some .writing :=
      NameMap.find?_insert_self _ _ _
    rw [run?_cons, step?, hphase, Option.bind_some, run?_cons, step?, hwriting, Option.bind_some]

theorem exists_leave {error : BridgeError} (hphase : x.phases.find? id = some (.leaving error)) :
    ∃ y, x.run? seconds [.leave id] = some y ∧ y.outcome? id = some (.error error) := by
  refine ⟨(x.withoutWaiter id).put id (.finished (.error error)), ?_, ?_⟩
  · rw [run?_singleton, step?, hphase]
  · rw [outcome?_eq_some, view_put]

theorem exists_expire (hview : x.view id = ⟨some .waiting, true, none⟩) :
    ∃ y, x.run? seconds [.expire id, .leave id] = some y ∧
      y.outcome? id = some (.error (.timeout seconds)) := by
  have hphase : x.phases.find? id = some .waiting := congrArg View.phase hview
  have hfound : x.found? id = none :=
    found?_eq_none.2 ⟨congrArg View.waits hview, congrArg View.delivered hview⟩
  have hleaving : (x.put id (.leaving (.timeout seconds))).phases.find? id =
      some (.leaving (.timeout seconds)) := NameMap.find?_insert_self _ _ _
  obtain ⟨y, hy, houtcome⟩ := exists_leave seconds hleaving
  refine ⟨y, ?_, houtcome⟩
  rw [run?_cons, step?, hphase, hfound]
  exact hy

theorem exists_failWrite (hnew : x.phases.find? id = none) :
    ∃ y, x.run? seconds [.register id, .failWrite id, .leave id] = some y ∧
      y.outcome? id = some (.error .writeFailed) := by
  have hwriting : ((x.withWaiter id).put id .writing).phases.find? id = some .writing :=
    NameMap.find?_insert_self _ _ _
  have hleaving :
      (((x.withWaiter id).put id .writing).put id (.leaving .writeFailed)).phases.find? id =
        some (.leaving .writeFailed) := NameMap.find?_insert_self _ _ _
  obtain ⟨y, hy, houtcome⟩ := exists_leave seconds hleaving
  refine ⟨y, ?_, houtcome⟩
  rw [run?_cons, step?, hnew, Option.bind_some, run?_cons, step?, hwriting]
  exact hy

/-- Where the bridge closes its output, the waiter goes and the rest stays. -/
theorem Quiet.exists_stop (h : x.Quiet) (id : String) :
    ∃ u : Exchange, u.view id = { x.view id with waits := false } ∧
      ∀ rest, x.run? seconds (.close :: .stop false :: rest) = u.run? seconds rest := by
  obtain ⟨phases, waiters, delivered, arriving, closed, reading⟩ := x
  obtain ⟨rfl, rfl, rfl⟩ := h
  exact ⟨⟨phases, [], delivered, [], true, false⟩, rfl, fun rest => rfl⟩

/-- Alone with the bridge, a request ends as its delivery says. -/
theorem Quiet.run?_alone (h : x.Quiet) (hnew : x.view id = ⟨none, false, none⟩)
    (delivery : Option Delivery) :
    ∃ y, x.run? seconds (alone id delivery) = some y ∧
      y.outcome? id = some ((delivery.map (·.response seconds id)).getD (.error .writeFailed)) := by
  cases delivery with
  | none => exact exists_failWrite seconds (congrArg View.phase hnew)
  | some d =>
      obtain ⟨u, hquiet, hview, hbegin⟩ := h.exists_begin seconds hnew
      rw [alone, List.cons_append, List.cons_append, hbegin]
      obtain ⟨hlines, hquiet⟩ := hquiet.run?_lines seconds d.lines
        (if d.closed then [.close, .stop false, .wake id]
          else if (firstResponse? id d.lines).isSome then [.wake id] else [.expire id, .leave id])
      rw [hlines]
      have hheard : (d.lines.foldl Exchange.take u).view id =
          (View.mk (some .waiting) true none).hearing id d.lines := by
        rw [view_foldl_take, hview]
      generalize d.lines.foldl Exchange.take u = x at hquiet hheard
      rw [Option.map_some, Option.getD_some, Delivery.response]
      rw [View.hearing, if_pos rfl] at hheard
      obtain ⟨stopped, hstopped, hstop⟩ := hquiet.exists_stop seconds id
      cases hfirst : firstResponse? id d.lines with
      | some r =>
          rw [hfirst, Option.map_some, Option.getD_some] at hheard
          have hfound {y : Exchange} (hy : y.view id = ⟨some .waiting, false, some r⟩) :
              y.found? id = some (.ok r) :=
            found?_eq_some.2 (.inl ⟨r, congrArg View.delivered hy, rfl⟩)
          cases hclosed : d.closed with
          | true =>
              rw [hheard] at hstopped
              rw [if_pos rfl, hstop]
              exact exists_wake seconds (congrArg View.phase hstopped) (hfound hstopped)
          | false => exact exists_wake seconds (congrArg View.phase hheard) (hfound hheard)
      | none =>
          rw [hfirst, Option.map_none, Option.getD_none] at hheard
          cases hclosed : d.closed with
          | true =>
              rw [hheard] at hstopped
              rw [if_pos rfl, hstop, if_pos rfl]
              exact exists_wake seconds (congrArg View.phase hstopped)
                (found?_of_deserted hstopped rfl rfl)
          | false => exact exists_expire seconds hheard

/-- A call is a request alone with the bridge. -/
theorem call_eq_alone {σ α : Type} (process : Endpoint σ) (method : String)
    (params : List (String × Json)) (decode : Json.Decoder α) (s : ClientState σ) (h : x.Quiet)
    (hnew : x.view (requestId s.sent) = ⟨none, false, none⟩) :
    ∃ y outcome,
      x.run? seconds (alone (requestId s.sent)
        ((process.send ⟨requestId s.sent, method, params⟩).run s.process).1) = some y ∧
      y.outcome? (requestId s.sent) = some outcome ∧
      ((call process seconds method params decode).run.run s).1 =
        (outcome.bind (·.outcome decode)).mapError .bridge := by
  obtain ⟨y, hy, houtcome⟩ := h.run?_alone seconds hnew
    ((process.send ⟨requestId s.sent, method, params⟩).run s.process).1
  refine ⟨y, _, hy, houtcome, ?_⟩
  simp only [call, ExceptT.run_mk, StateT.run]
  obtain ⟨_ | d, after⟩ := process.send ⟨requestId s.sent, method, params⟩ s.process <;> rfl

end Alone

end Exchange

end CubeQuery.Bridge
