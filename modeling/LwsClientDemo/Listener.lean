import LwsClientDemo.Traffic

namespace lws_client

/-- What the code behind the hooks can tell from their calls: whether its client
    is connected, and the `on_disconnected` calls since the last connection. -/
structure Listener where
  up : Bool
  failures : Int

/-- Where a client reports its connections: by the two hooks, or by `conn_cb`. -/
inductive Channel where
  | hooks
  | conn_cb

/-- The call reports a connection, or the loss of one. -/
def Channel.report : Channel → Act → Option Bool
  | .hooks, .on_connected => some true
  | .hooks, .on_disconnected => some false
  | .conn_cb, .conn_cb connected => some connected
  | _, _ => none

/-- Whether the channel is in use, `cb` being whether `conn_cb` is set and `hook`
    whether the hook is. -/
def Channel.set (ch : Channel) (cb hook : Bool) : Bool :=
  match ch with
  | .hooks => hook
  | .conn_cb => cb

/-- A listener takes part in a call. `none` when the call does not fit the ones
    before it: messages and heartbeats belong to a connection, the handshake and
    the errors to an attempt, and a decision is asked for with the failures. -/
def Listener.hear (ch : Channel) (l : Listener) (act : Act) : Option Listener :=
  match ch.report act with
  | some true => if l.up then none else some { up := true, failures := 0 }
  | some false => some { up := false, failures := l.failures + 1 }
  | none =>
    match act with
    | .rx_cb _ _ | .on_message _ _ | .on_heartbeat_tick => if l.up then some l else none
    | .on_error _ | .err_cb _ | .on_handshake_header _ => if l.up then none else some l
    | .on_reconnect_decision fail_count _ =>
      if l.up = false ∧ fail_count = l.failures then some l else none
    | .pthread_create => some { l with up := false }
    | _ => some l

def Listener.listen (ch : Channel) (l : Listener) (acts : List Act) : Option Listener :=
  acts.foldlM (Listener.hear ch) l

/-- The listener of a new client. -/
def Listener.start : Listener := { up := false, failures := 0 }

/-- Calls that no listener hears. -/
def Act.unheard : Act → Bool
  | .on_connected | .on_disconnected | .conn_cb _ | .rx_cb _ _ | .on_message _ _ => false
  | .on_heartbeat_tick | .on_error _ | .err_cb _ | .on_handshake_header _ => false
  | .on_reconnect_decision _ _ | .pthread_create => false
  | _ => true

variable {ch : Channel} {l m : Listener} {xs ys acts : List Act}

theorem Listener.listen_append :
    l.listen ch (xs ++ ys) = (l.listen ch xs).bind fun m => m.listen ch ys := by
  rw [Listener.listen, List.foldlM_append]
  rfl

theorem Listener.listen_trans {n : Listener} (hx : l.listen ch xs = some m)
    (hy : m.listen ch ys = some n) : l.listen ch (xs ++ ys) = some n := by
  rw [Listener.listen_append, hx]
  exact hy

/-- A listener that keeps its state through each call keeps it through them all. -/
theorem Listener.listen_same (h : ∀ act ∈ acts, l.hear ch act = some l) : l.listen ch acts = some l := by
  induction acts with
  | nil => rfl
  | cons act acts ih =>
    rw [← List.singleton_append]
    have hfirst : l.listen ch [act] = some l := by
      simp [Listener.listen, h act List.mem_cons_self]
    exact Listener.listen_trans hfirst (ih fun a ha => h a (by simp [ha]))

theorem Listener.listen_single {act : Act} (h : l.hear ch act = some l) :
    l.listen ch [act] = some l :=
  Listener.listen_same fun _ ha => List.mem_singleton.mp ha ▸ h

theorem Listener.listen_unheard (h : Every Act.unheard acts) : l.listen ch acts = some l := by
  refine Listener.listen_same fun act hact => ?_
  have hunheard := h act hact
  cases ch <;> cases act <;> first | rfl | cases hunheard

/-- While connected it hears messages. -/
theorem Listener.listen_delivers (hup : l.up = true) (h : Every Act.delivers acts) :
    l.listen ch acts = some l := by
  refine Listener.listen_same fun act hact => ?_
  have hdelivers := h act hact
  cases act with
  | rx_cb _ _ | on_message _ _ => cases ch <;> simp [Listener.hear, Channel.report, hup]
  | _ => cases hdelivers

/-- A call that is made only when it is set. -/
theorem Listener.listen_callIf {set : Bool} {act : Act} (h : set = true → l.hear ch act = some l) :
    l.listen ch (callIf set act) = some l := by
  cases set with
  | false => rfl
  | true => simp [callIf, Listener.listen, h rfl]

/-- The first report of a connection. -/
theorem Listener.listen_connected (cb : Bool) {hook : Bool} (hset : ch.set cb hook = true)
    (hup : l.up = false) : l.listen ch (callIf cb (.conn_cb true) ++ callIf hook .on_connected) =
      some { up := true, failures := 0 } := by
  cases ch with
  | hooks =>
    obtain rfl : hook = true := hset
    cases cb <;> simp [callIf, Listener.listen, Listener.hear, Channel.report, hup]
  | conn_cb =>
    obtain rfl : cb = true := hset
    cases hook <;> simp [callIf, Listener.listen, Listener.hear, Channel.report, hup]

theorem Listener.listen_disconnected (cb : Bool) {hook : Bool} (hset : ch.set cb hook = true) :
    l.listen ch (callIf cb (.conn_cb false) ++ callIf hook .on_disconnected) =
      some { up := false, failures := l.failures + 1 } := by
  cases ch with
  | hooks =>
    obtain rfl : hook = true := hset
    cases cb <;> simp [callIf, Listener.listen, Listener.hear, Channel.report]
  | conn_cb =>
    obtain rfl : cb = true := hset
    cases hook <;> simp [callIf, Listener.listen, Listener.hear, Channel.report]

theorem Listener.hear_tick (hup : l.up = true) : l.hear ch .on_heartbeat_tick = some l := by
  cases ch <;> simp [Listener.hear, Channel.report, hup]

/-- What is told of an attempt, when none before it is still connected. -/
theorem Listener.hear_attempt (hup : l.up = false) {act : Act} (h : match act with
    | .on_error _ | .err_cb _ | .on_handshake_header _ => True
    | _ => False) : l.hear ch act = some l := by
  cases act with
  | on_error _ | err_cb _ | on_handshake_header _ =>
    cases ch <;> simp [Listener.hear, Channel.report, hup]
  | _ => exact absurd h id

theorem Listener.hear_decision (hup : l.up = false) {fail_count : Int}
    (hcount : l.failures = fail_count) (delay : Int) :
    l.hear ch (.on_reconnect_decision fail_count delay) = some l := by
  cases ch <;> simp [Listener.hear, Channel.report, hup, hcount]

/-- The thread is started for a new session. -/
theorem Listener.listen_create : l.listen ch [.pthread_create] = some { l with up := false } := by
  cases ch <;> rfl

end lws_client
