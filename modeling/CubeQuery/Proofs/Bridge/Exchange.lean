import Mathlib.Data.List.Induction
import CubeQuery.Bridge.Exchange
import CubeQuery.Proofs.Outcome

/-!
# Who gets which response

Whatever the order of steps, a response reaches only the request it answers, and a request ends once
(`responses_reach_their_requests`). What an event does to one request is said once (`Effect`,
`effect_of_step?`); all else follows from that by induction on the history.
-/

namespace CubeQuery.Bridge

namespace Exchange

/-! ## One request among others -/

/-- What an exchange holds of one request. -/
structure View where
  phase : Option Phase
  waits : Bool
  delivered : Option Response

def view (x : Exchange) (id : String) : View :=
  ⟨x.phases.find? id, x.waits id, x.delivered.find? id⟩

namespace Event

def request? : Event → Option String
  | .register id | .write id | .failWrite id | .expire id | .leave id | .wake id => some id
  | _ => none

def line? : Event → Option String
  | .read line => some line
  | _ => none

def ends (id : String) : Event → Bool
  | .leave other | .wake other => other = id
  | _ => false

/-- Whether the event passes by a request that waits or does not. -/
def Spares (id : String) (waits : Bool) : Event → Prop
  | .read line => waits = true → ∀ r, Response.ofLine? line = some r → r.id ≠ id
  | .stop _ => False
  | e => e.request? ≠ some id

end Event

/-- What an event does to one request. -/
inductive Effect (seconds : Nat) (id : String) : Event → View → View → Prop where
  | register {w : Bool} {d : Option Response} :
      Effect seconds id (.register id) ⟨none, w, d⟩ ⟨some .writing, true, d⟩
  | write {w : Bool} {d : Option Response} :
      Effect seconds id (.write id) ⟨some .writing, w, d⟩ ⟨some .waiting, w, d⟩
  | failWrite {w : Bool} {d : Option Response} :
      Effect seconds id (.failWrite id) ⟨some .writing, w, d⟩ ⟨some (.leaving .writeFailed), w, d⟩
  | expire :
      Effect seconds id (.expire id) ⟨some .waiting, true, none⟩
        ⟨some (.leaving (.timeout seconds)), true, none⟩
  | leave {e : BridgeError} {w : Bool} {d : Option Response} :
      Effect seconds id (.leave id) ⟨some (.leaving e), w, d⟩
        ⟨some (.finished (.error e)), false, d⟩
  | answered {w : Bool} {r : Response} :
      Effect seconds id (.wake id) ⟨some .waiting, w, some r⟩ ⟨some (.finished (.ok r)), w, some r⟩
  | deserted :
      Effect seconds id (.wake id) ⟨some .waiting, false, none⟩
        ⟨some (.finished (.error .exited)), false, none⟩
  | deliver {line : String} {r : Response} {p : Option Phase} {d : Option Response}
      (hline : Response.ofLine? line = some r) (hid : r.id = id) :
      Effect seconds id (.read line) ⟨p, true, d⟩ ⟨p, false, some r⟩
  | stop {failed : Bool} {p : Option Phase} {w : Bool} {d : Option Response} :
      Effect seconds id (.stop failed) ⟨p, w, d⟩ ⟨p, false, d⟩
  | spared {e : Event} {v : View} (h : e.Spares id v.waits) : Effect seconds id e v v

section Views

variable (x : Exchange) (id : String)

theorem view_put (phase : Phase) :
    (x.put id phase).view id = { x.view id with phase := some phase } := by
  rw [view, put, NameMap.find?_insert_self]
  rfl

theorem view_put_of_ne (phase : Phase) {other : String} (h : other ≠ id) :
    (x.put other phase).view id = x.view id := by
  rw [view, put, NameMap.find?_insert_of_ne _ _ (Ne.symm h)]
  rfl

theorem view_withWaiter : (x.withWaiter id).view id = { x.view id with waits := true } := by
  rw [view, waits, withWaiter, List.contains_cons, BEq.rfl, Bool.true_or]
  rfl

theorem view_withWaiter_of_ne {other : String} (h : other ≠ id) :
    (x.withWaiter other).view id = x.view id := by
  have hne : (id == other) = false := by simpa using Ne.symm h
  rw [view, waits, withWaiter, List.contains_cons, hne, Bool.false_or]
  rfl

theorem waits_withoutWaiter (other : String) :
    (x.withoutWaiter other).waits id = (x.waits id && id != other) := by
  simp only [withoutWaiter, waits, List.contains_eq_mem, List.mem_filter]
  grind

theorem view_withoutWaiter : (x.withoutWaiter id).view id = { x.view id with waits := false } := by
  rw [view, waits_withoutWaiter]
  simp [withoutWaiter, view]

theorem view_withoutWaiter_of_ne {other : String} (h : other ≠ id) :
    (x.withoutWaiter other).view id = x.view id := by
  have hne : (id != other) = true := by simpa using Ne.symm h
  rw [view, waits_withoutWaiter, hne, Bool.and_true]
  rfl

end Views

section Steps

variable {seconds : Nat} {x y : Exchange} {id : String}

theorem effect_deliver {line : String} {r : Response} (hline : Response.ofLine? line = some r) :
    Effect seconds id (.read line) (x.view id) ((x.deliver r).view id) := by
  rw [deliver]
  by_cases hwaits : x.waits r.id = true
  · rw [if_pos hwaits]
    by_cases hid : r.id = id
    · subst hid
      have hview : x.view r.id = ⟨x.phases.find? r.id, true, x.delivered.find? r.id⟩ := by
        rw [view, hwaits]
      have hafter : ({ x.withoutWaiter r.id with delivered := x.delivered.insert r.id r } :
          Exchange).view r.id = ⟨x.phases.find? r.id, false, some r⟩ := by
        have hgone := waits_withoutWaiter x r.id r.id
        rw [bne_self_eq_false, Bool.and_false] at hgone
        rw [view, NameMap.find?_insert_self]
        exact congrArg (fun w => View.mk _ w _) hgone
      rw [hview, hafter]
      exact .deliver hline rfl
    · have hafter : ({ x.withoutWaiter r.id with delivered := x.delivered.insert r.id r } :
          Exchange).view id = x.view id := by
        rw [← view_withoutWaiter_of_ne x id hid, view, NameMap.find?_insert_of_ne _ _ (Ne.symm hid)]
        rfl
      rw [hafter]
      refine .spared fun _ r' hr' => ?_
      rw [hline, Option.some.injEq] at hr'
      rwa [← hr']
  · rw [if_neg hwaits]
    refine .spared fun hid r' hr' => ?_
    rw [hline, Option.some.injEq] at hr'
    rintro rfl
    rw [hr'] at hwaits
    exact hwaits hid

theorem effect_take (line : String) :
    Effect seconds id (.read line) (x.view id) ((x.take line).view id) := by
  rw [take]
  cases hline : Response.ofLine? line with
  | some r => exact effect_deliver hline
  | none =>
      refine .spared fun _ r hr => ?_
      rw [hline] at hr
      cases hr

theorem found?_eq_none : x.found? id = none ↔ x.waits id = true ∧ x.delivered.find? id = none := by
  rw [found?]
  cases x.delivered.find? id <;> simp

theorem found?_eq_some {outcome : Except BridgeError Response} :
    x.found? id = some outcome ↔
      (∃ r, x.delivered.find? id = some r ∧ outcome = .ok r) ∨
      x.delivered.find? id = none ∧ x.waits id = false ∧ outcome = .error .exited := by
  rw [found?]
  cases x.delivered.find? id <;> cases x.waits id <;> simp [eq_comm]

theorem spares_of_request? {e : Event} {other : String} (he : e.request? = some other)
    (h : other ≠ id) (waits : Bool) : e.Spares id waits := by
  have hne : e.request? ≠ some id := by
    rw [he]
    exact fun hsame => h (Option.some.inj hsame)
  cases e with
  | read line => cases he
  | stop failed => cases he
  | _ => exact hne

/-- The step of one request leaves the others alone. -/
theorem effect_of_request? {e : Event} {other : String} (he : e.request? = some other)
    (hself : Effect seconds other e (x.view other) (y.view other))
    (hothers : ∀ id, other ≠ id → y.view id = x.view id) (id : String) :
    Effect seconds id e (x.view id) (y.view id) := by
  by_cases hid : other = id
  · exact hid ▸ hself
  · rw [hothers id hid]
    exact .spared (spares_of_request? he hid _)

/-- A step acts on a request in one of the listed ways. -/
theorem effect_of_step? {e : Event} (h : x.step? seconds e = some y) (id : String) :
    Effect seconds id e (x.view id) (y.view id) := by
  cases e with
  | register other =>
      rw [step?] at h
      split at h <;> cases h
      rename_i hphase
      refine effect_of_request? rfl ?_ (fun id hid => ?_) id
      · rw [view_put, view_withWaiter, view, hphase]
        exact .register
      · rw [view_put_of_ne _ id _ hid, view_withWaiter_of_ne x id hid]
  | write other =>
      rw [step?] at h
      split at h <;> cases h
      rename_i hphase
      refine effect_of_request? rfl ?_ (fun id hid => view_put_of_ne x id _ hid) id
      rw [view_put, view, hphase]
      exact .write
  | failWrite other =>
      rw [step?] at h
      split at h <;> cases h
      rename_i hphase
      refine effect_of_request? rfl ?_ (fun id hid => view_put_of_ne x id _ hid) id
      rw [view_put, view, hphase]
      exact .failWrite
  | expire other =>
      rw [step?] at h
      split at h <;> cases h
      rename_i hphase hfound
      obtain ⟨hwaits, hdelivered⟩ := found?_eq_none.1 hfound
      refine effect_of_request? rfl ?_ (fun id hid => view_put_of_ne x id _ hid) id
      rw [view_put, view, hphase, hwaits, hdelivered]
      exact .expire
  | leave other =>
      rw [step?] at h
      split at h <;> cases h
      rename_i e hphase
      refine effect_of_request? rfl ?_ (fun id hid => ?_) id
      · rw [view_put, view_withoutWaiter, view, hphase]
        exact .leave
      · rw [view_put_of_ne _ id _ hid, view_withoutWaiter_of_ne x id hid]
  | wake other =>
      rw [step?] at h
      split at h <;> cases h
      rename_i outcome hphase hfound
      refine effect_of_request? rfl ?_ (fun id hid => view_put_of_ne x id _ hid) id
      obtain ⟨r, hdelivered, rfl⟩ | ⟨hdelivered, hwaits, rfl⟩ := found?_eq_some.1 hfound
      · rw [view_put, view, hphase, hdelivered]
        exact .answered
      · rw [view_put, view, hphase, hdelivered, hwaits]
        exact .deserted
  | send line =>
      rw [step?] at h
      split at h <;> cases h
      exact .spared (by simp [Event.Spares, Event.request?])
  | close =>
      cases h
      exact .spared (by simp [Event.Spares, Event.request?])
  | read line =>
      rw [step?] at h
      split at h
      · split at h <;> cases h
        rename_i rest _ _
        exact effect_take (x := { x with arriving := rest }) line
      · cases h
  | stop failed =>
      rw [step?] at h
      split at h <;> cases h
      exact .stop

end Steps

/-! ## Histories -/

section Runs

variable {seconds : Nat}

theorem run?_cons (x : Exchange) (e : Event) (events : List Event) :
    x.run? seconds (e :: events) = (x.step? seconds e).bind (·.run? seconds events) := rfl

theorem run?_append_eq_some {x y : Exchange} {before after : List Event} :
    x.run? seconds (before ++ after) = some y ↔
      ∃ u, x.run? seconds before = some u ∧ u.run? seconds after = some y := by
  rw [run?, List.foldlM_append]
  exact Option.bind_eq_some_iff

theorem run?_singleton (x : Exchange) (e : Event) :
    x.run? seconds [e] = x.step? seconds e := by
  rw [run?_cons]
  cases x.step? seconds e <;> rfl

/-- What holds at first and is kept by every step holds after every history. -/
theorem run?_induction {P : List Event → Exchange → Prop} (hinitial : P [] initial)
    (hstep : ∀ events x e y, initial.run? seconds events = some x → P events x →
      x.step? seconds e = some y → P (events ++ [e]) y)
    {events : List Event} {x : Exchange} (h : initial.run? seconds events = some x) : P events x := by
  induction events using List.reverseRecOn generalizing x with
  | nil =>
      cases h
      exact hinitial
  | append_singleton events e ih =>
      obtain ⟨u, hu, hx⟩ := run?_append_eq_some.1 h
      rw [run?_singleton] at hx
      exact hstep events u e x hu (ih hu) hx

end Runs

/-- The lines read since a request has registered. -/
def linesSince (id : String) : List Event → List String
  | [] => []
  | e :: rest => if e = .register id then rest.filterMap Event.line? else linesSince id rest

section Lines

variable (id : String) (events : List Event)

theorem linesSince_append (e : Event) :
    linesSince id (events ++ [e]) =
      linesSince id events ++ if .register id ∈ events then e.line?.toList else [] := by
  induction events with
  | nil => simp [linesSince]
  | cons first rest ih =>
      rw [List.cons_append, linesSince, linesSince]
      by_cases hfirst : first = .register id
      · rw [if_pos hfirst, if_pos hfirst, List.filterMap_append, if_pos (by simp [hfirst])]
        cases hline : e.line? <;> simp [hline]
      · rw [if_neg hfirst, if_neg hfirst, ih]
        simp [Ne.symm hfirst]

theorem linesSince_of_not_mem {events : List Event} (h : .register id ∉ events) :
    linesSince id events = [] := by
  induction events with
  | nil => rfl
  | cons e rest ih =>
      rw [List.mem_cons, not_or] at h
      rw [linesSince, if_neg (Ne.symm h.1), ih h.2]

theorem firstResponse?_append (lines others : List String) :
    firstResponse? id (lines ++ others) =
      (firstResponse? id lines).or (firstResponse? id others) := by
  rw [firstResponse?, List.filterMap_append, List.find?_append]
  rfl

end Lines

/-! ## What a request goes through -/

/-- What a request has heard from the reader after a history. -/
structure Heard (id : String) (events : List Event) (v : View) : Prop where
  registered : v.phase.isSome = true ↔ .register id ∈ events
  waits : v.waits = true → .register id ∈ events ∧ v.delivered = none ∧
    firstResponse? id (linesSince id events) = none
  delivered : ∀ r, v.delivered = some r → firstResponse? id (linesSince id events) = some r

/-- Where the outcome of a request comes from. -/
structure Caused (id : String) (events : List Event) (v : View) : Prop where
  answered : ∀ r, v.phase = some (.finished (.ok r)) → v.delivered = some r
  leaving : ∀ e, v.phase = some (.leaving e) → .failWrite id ∈ events ∨ .expire id ∈ events
  failed : ∀ e, v.phase = some (.finished (.error e)) →
    e = .exited ∨ .failWrite id ∈ events ∨ .expire id ∈ events

/-- A response is the first one with the id of a request that was read while the request had a
waiter. -/
def ReadFor (seconds : Nat) (id : String) (events : List Event) (r : Response) : Prop :=
  ∃ before line after y, events = before ++ .read line :: after ∧
    Response.ofLine? line = some r ∧ r.id = id ∧ initial.run? seconds before = some y ∧
    y.waits id = true ∧ firstResponse? id (linesSince id before) = none

def View.finished (v : View) : Bool :=
  match v.phase with
  | some (.finished _) => true
  | _ => false

section Invariant

variable {seconds : Nat} {id : String} {events : List Event} {v w : View} {e : Event}

theorem linesSince_of_line? (h : e.line? = none) :
    linesSince id (events ++ [e]) = linesSince id events := by
  rw [linesSince_append, h]
  simp

theorem firstResponse?_singleton (line : String) :
    firstResponse? id [line] = (Response.ofLine? line).filter (·.id == id) := by
  rw [firstResponse?]
  cases hline : Response.ofLine? line with
  | none => simp [hline]
  | some r => cases hid : r.id == id <;> simp [hline, hid, Option.filter]

theorem Heard.initial : Heard id [] (initial.view id) := by
  constructor <;> simp [view, Exchange.initial, Exchange.waits]

/-- A waiter that is kept has heard nothing from an event that reads no line. -/
theorem Heard.of_line? (hv : Heard id events v) (hline : e.line? = none)
    (hregister : e ≠ .register id) (hphase : w.phase.isSome = v.phase.isSome)
    (hwaits : w.waits = true → v.waits = true) (hdelivered : w.delivered = v.delivered) :
    Heard id (events ++ [e]) w := by
  constructor
  · rw [hphase, hv.registered]
    simp [Ne.symm hregister]
  · intro h
    rw [linesSince_of_line? hline, hdelivered]
    exact (hv.waits (hwaits h)).imp_left (List.mem_append_left _)
  · rw [linesSince_of_line? hline, hdelivered]
    exact hv.delivered

theorem Heard.spared (hv : Heard id events v) (h : e.Spares id v.waits) :
    Heard id (events ++ [e]) v := by
  cases e with
  | read line =>
      constructor
      · rw [hv.registered]
        simp
      · intro hwaits
        obtain ⟨hmem, hnone, hunheard⟩ := hv.waits hwaits
        have hline : firstResponse? id [line] = none := by
          rw [firstResponse?_singleton, Option.filter_eq_none_iff]
          intro r hr
          simpa using h hwaits r hr
        refine ⟨List.mem_append_left _ hmem, hnone, ?_⟩
        rw [linesSince_append, if_pos hmem, firstResponse?_append, hunheard, Option.none_or]
        exact hline
      · intro r hr
        rw [linesSince_append, firstResponse?_append, hv.delivered r hr, Option.some_or]
  | stop failed => exact h.elim
  | register other => exact hv.of_line? rfl (by rintro ⟨⟩; exact h rfl) rfl (fun h => h) rfl
  | _ => exact hv.of_line? rfl (by rintro ⟨⟩) rfl (fun h => h) rfl

theorem Heard.effect (hv : Heard id events v) (h : Effect seconds id e v w) :
    Heard id (events ++ [e]) w := by
  cases h with
  | spared hspares => exact hv.spared hspares
  | @register waits d =>
      -- An id is used once, so nothing has been read for it and nothing delivered.
      have hnew : .register id ∉ events := fun hmem => by simpa using hv.registered.2 hmem
      have hsilent : firstResponse? id (linesSince id events) = none := by
        rw [linesSince_of_not_mem id hnew]
        rfl
      have hlines : linesSince id (events ++ [.register id]) = linesSince id events :=
        linesSince_of_line? rfl
      have hd : d = none := Option.eq_none_iff_forall_ne_some.2 fun r hr => by
        have hheard := hv.delivered r hr
        rw [hsilent] at hheard
        cases hheard
      constructor
      · simp
      · exact fun _ => ⟨by simp, hd, hlines ▸ hsilent⟩
      · exact fun r hr => by
          rw [hd] at hr
          cases hr
  | @deliver line r p d hline hid =>
      -- The waiter was still there, so this line is the first for it.
      obtain ⟨hmem, -, hunheard⟩ := hv.waits rfl
      constructor
      · rw [hv.registered]
        simp
      · rintro ⟨⟩
      · intro r' hr'
        have hthis : firstResponse? id [line] = some r := by
          rw [firstResponse?_singleton, hline, Option.filter_some, if_pos (by simpa using hid)]
        rw [linesSince_append, if_pos hmem, firstResponse?_append, hunheard, Option.none_or, ← hr']
        exact hthis
  | write => exact hv.of_line? rfl (by rintro ⟨⟩) rfl (fun h => h) rfl
  | failWrite => exact hv.of_line? rfl (by rintro ⟨⟩) rfl (fun h => h) rfl
  | expire => exact hv.of_line? rfl (by rintro ⟨⟩) rfl (fun h => h) rfl
  | leave => exact hv.of_line? rfl (by rintro ⟨⟩) rfl (by rintro ⟨⟩) rfl
  | answered => exact hv.of_line? rfl (by rintro ⟨⟩) rfl (fun h => h) rfl
  | deserted => exact hv.of_line? rfl (by rintro ⟨⟩) rfl (fun h => h) rfl
  | stop => exact hv.of_line? rfl (by rintro ⟨⟩) rfl (by rintro ⟨⟩) rfl

theorem heard_of_run? {x : Exchange} (h : initial.run? seconds events = some x) :
    Heard id events (x.view id) :=
  run?_induction (P := fun events x => Heard id events (x.view id)) Heard.initial
    (fun _ _ _ _ _ hx he => hx.effect (effect_of_step? he id)) h

theorem Caused.initial : Caused id [] (initial.view id) := by
  constructor <;> simp [view, Exchange.initial]

theorem Caused.mono (hv : Caused id events v) (e : Event) : Caused id (events ++ [e]) v where
  answered := hv.answered
  leaving error h := (hv.leaving error h).imp (List.mem_append_left _) (List.mem_append_left _)
  failed error h := (hv.failed error h).imp_right fun hmem =>
    hmem.imp (List.mem_append_left _) (List.mem_append_left _)

theorem Caused.effect (hv : Caused id events v) (hheard : Heard id events v)
    (h : Effect seconds id e v w) : Caused id (events ++ [e]) w := by
  have hv := hv.mono e
  cases h with
  | spared => exact hv
  | stop => exact ⟨hv.answered, hv.leaving, hv.failed⟩
  | register => constructor <;> simp
  | write => constructor <;> simp
  | failWrite => constructor <;> simp
  | expire => constructor <;> simp
  | @leave error =>
      refine ⟨by simp, by simp, fun error' h => .inr ?_⟩
      exact hv.leaving error rfl
  | answered => exact ⟨by simp, by simp, by simp⟩
  | deserted => exact ⟨by simp, by simp, by simp⟩
  | deliver =>
      -- A request that has its response already has no waiter.
      refine ⟨fun r hr => ?_, hv.leaving, hv.failed⟩
      obtain ⟨-, hnone, -⟩ := hheard.waits rfl
      have hsome := hv.answered r hr
      rw [hnone] at hsome
      cases hsome

theorem caused_of_run? {x : Exchange} (h : initial.run? seconds events = some x) :
    Caused id events (x.view id) :=
  run?_induction (P := fun events x => Caused id events (x.view id)) Caused.initial
    (fun _ _ _ _ hrun hx he => hx.effect (heard_of_run? hrun) (effect_of_step? he id)) h

theorem ReadFor.append {r : Response} (h : ReadFor seconds id events r) (later : List Event) :
    ReadFor seconds id (events ++ later) r := by
  obtain ⟨before, line, after, y, rfl, hread⟩ := h
  exact ⟨before, line, after ++ later, y, by simp, hread⟩

theorem Event.ends_of_spares {b : Bool} (h : e.Spares id b) : e.ends id = false := by
  cases e with
  | leave other => simpa [Event.ends, Event.Spares, Event.request?] using h
  | wake other => simpa [Event.ends, Event.Spares, Event.request?] using h
  | _ => rfl

/-- An event is the end of a request just when the request has not finished before and has after. -/
theorem Effect.finished (h : Effect seconds id e v w) :
    w.finished = (v.finished || e.ends id) ∧ (v.finished = true → e.ends id = false) := by
  cases h with
  | spared hspares => simp [Event.ends_of_spares hspares]
  | _ => simp [View.finished, Event.ends]

/-- Every request ends at most once. -/
theorem countP_ends {x : Exchange} (h : initial.run? seconds events = some x) :
    events.countP (Event.ends id) = (x.view id).finished.toNat := by
  refine run?_induction
    (P := fun events x => events.countP (Event.ends id) = (x.view id).finished.toNat)
    rfl (fun events x e y _ hx he => ?_) h
  obtain ⟨hfinished, honce⟩ := (effect_of_step? he id).finished
  rw [List.countP_append, List.countP_singleton, hx, hfinished]
  cases hbefore : (x.view id).finished with
  | false => cases e.ends id <;> rfl
  | true => rw [honce hbefore]; rfl

/-- What every effect on a request keeps is kept by a run. -/
theorem run?_keeps {P : View → Prop} {Q : Event → Prop}
    (hkeeps : ∀ e v w, Effect seconds id e v w → P v → P w ∧ Q e) {x y : Exchange}
    (h : x.run? seconds events = some y) (hx : P (x.view id)) :
    P (y.view id) ∧ ∀ e ∈ events, Q e := by
  induction events generalizing x with
  | nil =>
      cases h
      exact ⟨hx, by simp⟩
  | cons e rest ih =>
      rw [run?_cons] at h
      obtain ⟨u, hu, hy⟩ := Option.bind_eq_some_iff.1 h
      obtain ⟨hP, hQ⟩ := hkeeps e _ _ (effect_of_step? hu id) hx
      obtain ⟨hy, hrest⟩ := ih hy hP
      exact ⟨hy, List.forall_mem_cons.2 ⟨hQ, hrest⟩⟩

theorem Effect.keeps_finished {outcome : Except BridgeError Response} (h : Effect seconds id e v w)
    (hv : v.phase = some (.finished outcome)) : w.phase = some (.finished outcome) := by
  cases h <;> first | exact hv | cases hv

/-- A request without a waiter is not heard of again and its time does not run out. -/
theorem Effect.keeps_deserted {d : Option Response} (h : Effect seconds id e v w)
    (hv : v.phase.isSome = true ∧ v.waits = false ∧ v.delivered = d) :
    (w.phase.isSome = true ∧ w.waits = false ∧ w.delivered = d) ∧ e ≠ .expire id := by
  obtain ⟨hphase, hwaits, hdelivered⟩ := hv
  cases h with
  | register => cases hphase
  | expire => cases hwaits
  | deliver => cases hwaits
  | spared hspares =>
      refine ⟨⟨hphase, hwaits, hdelivered⟩, ?_⟩
      rintro rfl
      exact hspares rfl
  | leave => exact ⟨⟨rfl, rfl, hdelivered⟩, by rintro ⟨⟩⟩
  | stop => exact ⟨⟨hphase, rfl, hdelivered⟩, by rintro ⟨⟩⟩
  | _ => exact ⟨⟨rfl, hwaits, hdelivered⟩, by rintro ⟨⟩⟩

/-- A response that has been handed over was the first to be read for its request. -/
theorem readFor_of_delivered {x : Exchange} (h : initial.run? seconds events = some x) :
    ∀ r, x.delivered.find? id = some r → ReadFor seconds id events r := by
  refine run?_induction
    (P := fun events x => ∀ r, x.delivered.find? id = some r → ReadFor seconds id events r)
    (by simp [Exchange.initial]) (fun events x e y hrun hx he r hr => ?_) h
  have heffect := effect_of_step? he id
  generalize hv : x.view id = v at heffect
  generalize hw : y.view id = w at heffect
  have hdelivered : w.delivered = some r := by rw [← hw]; exact hr
  have hbefore : v.delivered = some r → ReadFor seconds id (events ++ [e]) r := by
    rw [← hv]
    exact fun hr => (hx r hr).append [e]
  cases heffect with
  | @deliver line r' p d hline hid =>
      obtain rfl := Option.some.inj hdelivered
      have hwaits : x.waits id = true := congrArg View.waits hv
      obtain ⟨-, -, hunheard⟩ := (heard_of_run? hrun).waits hwaits
      exact ⟨events, line, [], x, rfl, hline, hid, hrun, hwaits, hunheard⟩
  | _ => exact hbefore hdelivered

end Invariant

/-! ## The reader -/

section Reader

variable {seconds : Nat} {x y : Exchange} {line : String} {r : Response}

theorem step?_read (h : x.step? seconds (.read line) = some y) :
    y = ({ x with arriving := x.arriving.tail } : Exchange).take line := by
  rw [step?] at h
  split at h
  · split at h <;> cases h
    rename_i harriving _
    rw [harriving]
    rfl
  · cases h

/-- A response is handed to the request with its id and to no other. -/
theorem view_of_read (h : x.step? seconds (.read line) = some y)
    (hline : Response.ofLine? line = some r) (hwaits : x.waits r.id = true) (id : String) :
    y.view id = if id = r.id then ⟨x.phases.find? r.id, false, some r⟩ else x.view id := by
  have heffect := effect_of_step? h id
  generalize hv : x.view id = v at heffect
  generalize y.view id = w at heffect
  cases heffect with
  | @deliver _ r' p d hline' hid =>
      rw [hline, Option.some.injEq] at hline'
      rw [if_pos (hline' ▸ hid.symm), hline', hid]
      exact congrArg (View.mk · _ _) (congrArg View.phase hv).symm
  | spared hspares =>
      rw [if_neg]
      rintro rfl
      rw [← hv] at hspares
      exact hspares hwaits r hline rfl

/-- A line that is no response to a waiting request is dropped. -/
theorem step?_read_of_not_waits (h : x.step? seconds (.read line) = some y)
    (hline : ∀ r, Response.ofLine? line = some r → x.waits r.id = false) :
    y = { x with arriving := x.arriving.tail } := by
  rw [step?_read h, take]
  cases hr : Response.ofLine? line with
  | none => rfl
  | some r =>
      have hwaits : ({ x with arriving := x.arriving.tail } : Exchange).waits r.id = false :=
        hline r hr
      simp only [deliver, hwaits, Bool.false_eq_true, if_false]

/-- A request hears the first of the lines that is for it, as long as it waits. -/
def View.hearing (id : String) (lines : List String) (v : View) : View :=
  if v.waits then ((firstResponse? id lines).map (⟨v.phase, false, some ·⟩)).getD v else v

theorem Effect.of_read {id : String} {v w : View} (h : Effect seconds id (.read line) v w) :
    w = v.hearing id [line] := by
  rw [View.hearing, firstResponse?_singleton]
  cases h with
  | deliver hline hid => simp [hline, hid, Option.filter]
  | spared hspares =>
      by_cases hwaits : v.waits = true
      · have hnone : (Response.ofLine? line).filter (·.id == id) = none := by
          rw [Option.filter_eq_none_iff]
          intro r hr
          simpa using hspares hwaits r hr
        rw [hnone]
        simp
      · rw [if_neg hwaits]

end Reader

/-! ## After the reader has stopped -/

section Stopped

variable (seconds : Nat) {x : Exchange} {id : String}

theorem outcome?_eq_some {outcome : Except BridgeError Response} :
    x.outcome? id = some outcome ↔ (x.view id).phase = some (.finished outcome) := by
  rw [outcome?, view]
  rcases x.phases.find? id with - | (_ | _ | _ | _) <;> simp

theorem isSome_outcome? : (x.outcome? id).isSome = (x.view id).finished := by
  rw [outcome?, View.finished, view]
  rcases x.phases.find? id with - | (_ | _ | _ | _) <;> rfl

/-- A waiting request ends with what it finds. -/
theorem exists_wake {outcome : Except BridgeError Response}
    (hphase : (x.view id).phase = some .waiting) (hfound : x.found? id = some outcome) :
    ∃ y, x.run? seconds [.wake id] = some y ∧ y.outcome? id = some outcome := by
  have hphase : x.phases.find? id = some .waiting := hphase
  refine ⟨x.put id (.finished outcome), ?_, ?_⟩
  · rw [run?_singleton, step?, hphase, hfound]
  · rw [outcome?_eq_some, view_put]

theorem found?_of_deserted {v : View} (h : x.view id = v) (hwaits : v.waits = false)
    (hdelivered : v.delivered = none) : x.found? id = some (.error .exited) := by
  subst h
  exact found?_eq_some.2 (.inr ⟨hdelivered, hwaits, rfl⟩)

/-- A request without a waiter ends by steps of its own, as one whose bridge has gone. -/
theorem ends_of_deserted
    (h : x.view id = ⟨some .writing, false, none⟩ ∨ x.view id = ⟨some .waiting, false, none⟩ ∨
      x.view id = ⟨some (.finished (.error .exited)), false, none⟩) :
    ∃ rest y, (∀ e ∈ rest, e.request? = some id) ∧ x.run? seconds rest = some y ∧
      y.outcome? id = some (.error .exited) := by
  obtain hwriting | hwaiting | hfinished := h
  · have hphase : x.phases.find? id = some .writing := congrArg View.phase hwriting
    have hwaiting : (x.put id .waiting).view id = ⟨some .waiting, false, none⟩ := by
      rw [view_put, hwriting]
    obtain ⟨y, hy, houtcome⟩ := exists_wake seconds (congrArg View.phase hwaiting)
      (found?_of_deserted hwaiting rfl rfl)
    refine ⟨[.write id, .wake id], y, by simp [Event.request?], ?_, houtcome⟩
    rw [run?_cons, step?, hphase]
    exact hy
  · obtain ⟨y, hy, houtcome⟩ := exists_wake seconds (congrArg View.phase hwaiting)
      (found?_of_deserted hwaiting rfl rfl)
    exact ⟨[.wake id], y, by simp [Event.request?], hy, houtcome⟩
  · exact ⟨[], x, by simp, rfl, outcome?_eq_some.2 (by rw [hfinished])⟩

/-- Once the reader has stopped, whoever had registered before has no waiter. One that has no
response by then, did not fail to write and had time left has ended as one whose bridge has gone, or
is bound to. -/
theorem deserted_of_stop {before after : List Event} {failed : Bool}
    (h : initial.run? seconds (before ++ .stop failed :: after) = some x)
    (hregister : .register id ∈ before) :
    x.waits id = false ∧
      (firstResponse? id (linesSince id before) = none →
        .failWrite id ∉ before ++ .stop failed :: after → .expire id ∉ before →
        (∀ outcome, x.outcome? id = some outcome → outcome = .error .exited) ∧
          ∃ rest y, (∀ e ∈ rest, e.request? = some id) ∧ x.run? seconds rest = some y ∧
            y.outcome? id = some (.error .exited)) := by
  obtain ⟨u, hu, hx⟩ := run?_append_eq_some.1 h
  rw [run?_cons] at hx
  obtain ⟨stopped, hstop, hx⟩ := Option.bind_eq_some_iff.1 hx
  have hheard : Heard id before (u.view id) := heard_of_run? hu
  have hdeserted : (stopped.view id).phase.isSome = true ∧ (stopped.view id).waits = false ∧
      (stopped.view id).delivered = (u.view id).delivered := by
    have heffect := effect_of_step? hstop id
    generalize u.view id = v at heffect hheard
    generalize stopped.view id = w at heffect
    cases heffect with
    | stop => exact ⟨hheard.registered.2 hregister, rfl, rfl⟩
    | spared hspares => exact hspares.elim
  -- After the stop the request can only go on by itself: nothing is delivered and no time runs out.
  obtain ⟨⟨hphase, hwaits, hdelivered⟩, hexpire⟩ :=
    run?_keeps (fun e v w heffect hv => heffect.keeps_deserted hv) hx hdeserted
  refine ⟨hwaits, fun hunheard hwritten htime => ?_⟩
  have hcaused : Caused id _ (x.view id) := caused_of_run? h
  have hnone : (x.view id).delivered = none := by
    rw [hdelivered]
    exact Option.eq_none_iff_forall_ne_some.2 fun r hr => by
      have := hheard.delivered r hr
      rw [hunheard] at this
      cases this
  have hblameless : ¬ (.failWrite id ∈ before ++ .stop failed :: after ∨
      .expire id ∈ before ++ .stop failed :: after) := by
    rintro (hfail | hlate)
    · exact hwritten hfail
    · obtain hlate | hlate := List.mem_append.1 hlate
      · exact htime hlate
      · obtain ⟨⟨⟩⟩ | hlate := List.mem_cons.1 hlate
        exact hexpire _ hlate rfl
  have hstate : x.view id = ⟨some .writing, false, none⟩ ∨
      x.view id = ⟨some .waiting, false, none⟩ ∨
      x.view id = ⟨some (.finished (.error .exited)), false, none⟩ := by
    generalize x.view id = v at hphase hwaits hnone hcaused
    obtain ⟨phase, waits, delivered⟩ := v
    obtain ⟨⟩ := hwaits
    obtain ⟨⟩ := hnone
    rcases phase with - | (_ | _ | error | (error | r))
    · cases hphase
    · exact .inl rfl
    · exact .inr (.inl rfl)
    · exact (hblameless (hcaused.leaving error rfl)).elim
    · obtain rfl | hblamed := hcaused.failed error rfl
      · exact .inr (.inr rfl)
      · exact (hblameless hblamed).elim
    · cases hcaused.answered r rfl
  refine ⟨fun outcome houtcome => ?_, ends_of_deserted seconds hstate⟩
  rw [outcome?_eq_some] at houtcome
  obtain hstate | hstate | hstate := hstate <;> rw [hstate] at houtcome <;> cases houtcome
  rfl

end Stopped

/-! ## The law of the exchange -/

/-- In every history of an exchange, a request that ends with a response ends with the first one
that was read for it; every request ends at most once and keeps its outcome; a line goes to the
request with its id if that one waits, and otherwise changes nothing; and whoever had registered when
the reader stopped has no waiter and ends as one whose bridge has gone, unless it had been answered,
could not write or had run out of time. -/
theorem responses_reach_their_requests {seconds : Nat} {events : List Event} {x : Exchange}
    (h : initial.run? seconds events = some x) :
    (∀ id r, x.outcome? id = some (.ok r) → ReadFor seconds id events r) ∧
    (∀ id, events.countP (Event.ends id) = (x.outcome? id).isSome.toNat ∧
      ∀ before after y outcome, events = before ++ after → initial.run? seconds before = some y →
        y.outcome? id = some outcome → x.outcome? id = some outcome) ∧
    (∀ line y, x.step? seconds (.read line) = some y →
      (∀ r, Response.ofLine? line = some r → x.waits r.id = true → ∀ id,
        y.view id = if id = r.id then ⟨x.phases.find? r.id, false, some r⟩ else x.view id) ∧
      ((∀ r, Response.ofLine? line = some r → x.waits r.id = false) →
        y = { x with arriving := x.arriving.tail })) ∧
    (∀ id before failed after, events = before ++ .stop failed :: after → .register id ∈ before →
      x.waits id = false ∧
      (firstResponse? id (linesSince id before) = none → .failWrite id ∉ events →
        .expire id ∉ before →
        (∀ outcome, x.outcome? id = some outcome → outcome = .error .exited) ∧
          ∃ rest y, (∀ e ∈ rest, e.request? = some id) ∧ x.run? seconds rest = some y ∧
            y.outcome? id = some (.error .exited))) := by
  refine ⟨fun id r houtcome => ?_, fun id => ⟨?_, ?_⟩, fun line y hread => ⟨?_, ?_⟩, ?_⟩
  · have hcaused : Caused id events (x.view id) := caused_of_run? h
    exact readFor_of_delivered h r (hcaused.answered r (outcome?_eq_some.1 houtcome))
  · rw [countP_ends h, isSome_outcome?]
  · rintro before after y outcome rfl hy houtcome
    obtain ⟨u, hu, hx⟩ := run?_append_eq_some.1 h
    rw [hy, Option.some.injEq] at hu
    subst hu
    rw [outcome?_eq_some] at houtcome ⊢
    exact (run?_keeps (Q := fun _ => True)
      (fun e v w heffect hv => ⟨heffect.keeps_finished hv, trivial⟩) hx houtcome).1
  · exact fun r hline hwaits id => view_of_read hread hline hwaits id
  · exact step?_read_of_not_waits hread
  · rintro id before failed after rfl hregister
    exact deserted_of_stop seconds h hregister

/-- Two requests share a bridge. Of its lines one is no response, one is for nobody and one comes
twice; it closes its output before it has answered the first request. -/
def sharedBefore : List Event :=
  [.register "a", .register "b", .write "b", .write "a", .send "oops",
    .send "\x7b\"id\": \"b\", \"success\": true\x7d", .send "\x7b\"id\": \"c\", \"success\": true\x7d",
    .send "\x7b\"id\": \"b\", \"success\": true\x7d", .close, .read "oops",
    .read "\x7b\"id\": \"b\", \"success\": true\x7d", .read "\x7b\"id\": \"c\", \"success\": true\x7d",
    .read "\x7b\"id\": \"b\", \"success\": true\x7d"]

def sharedHistory : List Event := sharedBefore ++ .stop false :: [.wake "a", .wake "b"]

/-- The second request has its answer and the first one none. -/
theorem responses_reach_their_requests_shared :
    ∃ x r, initial.run? 30 sharedHistory = some x ∧ x.outcome? "b" = some (.ok r) ∧
      ReadFor 30 "b" sharedHistory r ∧ x.outcome? "a" = some (.error .exited) := by
  have hcompute : ((initial.run? 30 sharedHistory).any fun x =>
      ((x.outcome? "b").any fun outcome => outcome.toOption.isSome) &&
        (x.outcome? "a").isSome) = true := by
    decide +kernel
  have hunheard : firstResponse? "a" (linesSince "a" sharedBefore) = none :=
    Option.isNone_iff_eq_none.1 (by decide +kernel)
  simp only [Option.any_eq_true, Bool.and_eq_true, Option.isSome_iff_exists] at hcompute
  obtain ⟨x, hx, ⟨outcome, houtcome, r, hr⟩, deserted, hdeserted⟩ := hcompute
  rw [toOption_eq_some_iff] at hr
  subst hr
  obtain ⟨hanswered, -, -, hstopped⟩ := responses_reach_their_requests hx
  obtain ⟨-, hexited⟩ := hstopped "a" sharedBefore false [.wake "a", .wake "b"] rfl (by decide)
  obtain ⟨hexited, -⟩ := hexited hunheard (by decide) (by decide)
  exact ⟨x, r, hx, houtcome, hanswered "b" r houtcome, hexited deserted hdeserted ▸ hdeserted⟩

end Exchange

end CubeQuery.Bridge
