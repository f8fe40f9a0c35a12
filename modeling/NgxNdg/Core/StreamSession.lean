import Mathlib.Logic.Basic
import NgxNdg.Core.Pool

/-!
# Stream sessions and their events

A session waits in one of the two events of its connection. nginx calls the handler of an event
when the connection is ready for it or its timer has expired; in between the handler has
returned, and the session is left to its events and timers alone.

## Main definitions

- `NgxEvent`, `NgxStreamSession`
- `NgxEventModule`: what the handlers rely on when they register an event
- `NgxStreamSession.Settled`: finalized, or waiting with a timer
-/

namespace NgxNdg

def ngxStreamOk : ℤ := 200
def ngxStreamBadRequest : ℤ := 400
def ngxStreamForbidden : ℤ := 403
def ngxStreamInternalServerError : ℤ := 500
def ngxStreamBadGateway : ℤ := 502
def ngxStreamServiceUnavailable : ℤ := 503

/-- The functions the handler of an event can be. -/
inductive NgxEventHandler where
  /-- the one nginx has set before the content handler runs -/
  | session
  | discardRead
  | discardWrite
  | timeRead
  | timeWrite
  deriving DecidableEq

/-- `ngx_event_t`: `active` when it is registered, `timer` the time its timer was armed for. -/
structure NgxEvent where
  handler : NgxEventHandler
  active : Bool
  timer : Option ℕ
  ready : Bool
  timedout : Bool
  deriving DecidableEq

/-- `ngx_handle_read_event` and `ngx_handle_write_event` for the event module of the worker: the
event behind a call whose system calls succeed or fail as `ok` says, and `none` when the call
fails. A call changes at most the registration of the event; one that succeeds leaves an event
that is not ready registered. -/
structure NgxEventModule where
  handle : Bool → NgxEvent → Option NgxEvent
  handle_changes : ∀ ok ev ev', handle ok ev = some ev' → ev' = { ev with active := ev'.active }
  handle_registers : ∀ ok ev ev', handle ok ev = some ev' → ev.ready = false → ev'.active = true

/-- The module `epoll`, which adds an event that is neither active nor ready. -/
def ngxEpollModule : NgxEventModule where
  handle := fun ok ev =>
    if ev.active || ev.ready then some ev
    else if ok then some { ev with active := true }
    else none
  handle_changes := by
    intro ok ev ev' h
    split at h
    · exact (Option.some.inj h).symm ▸ rfl
    · obtain ⟨-, h⟩ := Option.ite_none_right_eq_some.mp h
      exact (Option.some.inj h).symm ▸ rfl
  handle_registers := by
    intro ok ev ev' h hready
    split at h
    · next hguard =>
      obtain rfl := Option.some.inj h
      simpa [hready] using hguard
    · obtain ⟨-, h⟩ := Option.ite_none_right_eq_some.mp h
      exact (Option.some.inj h).symm ▸ rfl

/-- `ngx_add_timer`. -/
def ngxAddTimer (ev : NgxEvent) (msec : ℕ) : NgxEvent := { ev with timer := some msec }

/-- What nginx has found when it calls the handler of an event. -/
structure Delivery where
  ready : Bool
  timedout : Bool
  active : Bool
  deriving DecidableEq

/-- The event as its handler finds it. An expired timer is no longer armed. -/
def NgxEvent.deliver (ev : NgxEvent) (d : Delivery) : NgxEvent :=
  { ev with
    ready := d.ready
    timedout := d.timedout
    active := d.active
    timer := if d.timedout then none else ev.timer }

/-- `ngx_stream_session_t` with its connection. `finalized` records the statuses of the calls of
`ngx_stream_finalize_session`. -/
structure NgxStreamSession where
  pool : NgxPool
  read : NgxEvent
  write : NgxEvent
  finalized : List ℤ

/-- `ngx_stream_finalize_session`. -/
def ngxStreamFinalizeSession (s : NgxStreamSession) (rc : ℤ) : NgxStreamSession :=
  { s with finalized := rc :: s.finalized }

/-- A session that the content handler has not been called for. -/
def NgxStreamSession.init (pool : NgxPool) (read write : NgxEvent) : NgxStreamSession where
  pool := pool
  read := { read with handler := .session }
  write := { write with handler := .session }
  finalized := []

/-- A session that waits in `ev` is open, the event is registered with the handler that is to go on
with it, and its timer is armed. -/
structure NgxStreamSession.Waiting (s : NgxStreamSession) (ev : NgxEvent)
    (handler : NgxEventHandler) : Prop where
  opened : s.finalized = []
  active : ev.active = true
  handler : ev.handler = handler
  timer : ev.timer ≠ none

/-- Either the session has been finalized, and once, or it waits in `ev` for its handler. -/
def NgxStreamSession.Settled (s : NgxStreamSession) (ev : NgxEvent) (handler : NgxEventHandler) :
    Prop :=
  Xor (s.finalized.length = 1) (s.Waiting ev handler)

theorem NgxStreamSession.Settled.of_finalize {s : NgxStreamSession} (hopen : s.finalized = [])
    (rc : ℤ) (ev : NgxEvent) (handler : NgxEventHandler) :
    (ngxStreamFinalizeSession s rc).Settled ev handler := by
  refine .inl ⟨?_, fun h => List.cons_ne_nil _ _ h.opened⟩
  show (rc :: s.finalized).length = 1
  rw [hopen]
  rfl

theorem NgxStreamSession.Settled.of_waiting {s : NgxStreamSession} {ev : NgxEvent}
    {handler : NgxEventHandler} (h : s.Waiting ev handler) : s.Settled ev handler := by
  refine .inr ⟨h, ?_⟩
  rw [h.opened]
  exact Nat.zero_ne_one

/-- A settled session that is open waits. -/
theorem NgxStreamSession.Settled.waiting {s : NgxStreamSession} {ev : NgxEvent}
    {handler : NgxEventHandler} (h : s.Settled ev handler) (hopen : s.finalized = []) :
    s.Waiting ev handler := by
  obtain ⟨hlen, _⟩ | ⟨hwaiting, _⟩ := h
  · rw [hopen] at hlen
    exact absurd hlen Nat.zero_ne_one
  · exact hwaiting

/-- An event that is not ready, once it is registered and its timer armed, is one to wait in. -/
theorem NgxStreamSession.Waiting.of_handle {m : NgxEventModule} {ok : Bool} {ev ev' : NgxEvent}
    (h : m.handle ok ev = some ev') (hready : ev.ready = false) {s : NgxStreamSession}
    (hopen : s.finalized = []) (msec : ℕ) : s.Waiting (ngxAddTimer ev' msec) ev.handler where
  opened := hopen
  active := m.handle_registers ok ev ev' h hready
  handler := by
    rw [m.handle_changes ok ev ev' h]
    rfl
  timer := Option.some_ne_none msec

end NgxNdg
