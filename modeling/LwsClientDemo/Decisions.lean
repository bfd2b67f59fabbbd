import LwsClientDemo.Traffic

namespace lws_client

/-- What a run shows of the failures of a client: a start and the delay it finds, an
    ESTABLISHED, a failed attempt or lost connection, and a run of
    `schedule_reconnect`. Such a run shows the arguments of each
    `on_reconnect_decision` it calls, the answer `ret`, the microseconds of each
    wait it arms and the `reconnect_delay_ms` it leaves. -/
inductive Note where
  | started (delay_ms : Int)
  | established
  | failure
  | scheduled (asked : List (Int × Int)) (ret : Int) (armed : List Int) (delay_ms : Int)

/-- The arguments of each call of `on_reconnect_decision`, in order. -/
def consulted (acts : List Act) : List (Int × Int) :=
  acts.filterMap fun
    | .on_reconnect_decision fail_count delay_ms => some (fail_count, delay_ms)
    | _ => none

/-- The microseconds of each armed reconnect timer, in order. -/
def scheduled (acts : List Act) : List Int :=
  acts.filterMap fun
    | .lws_sul_schedule usecs => some usecs
    | _ => none

/-- Calls that connect, ask the hook whether to, or arm the reconnect timer. -/
def Act.retries : Act → Bool
  | .lws_client_connect_via_info _ | .on_reconnect_decision _ _ | .lws_sul_schedule _ => true
  | _ => false

/-- Those calls, in order. -/
def retries (trace : List Act) : List Act := trace.filter Act.retries

@[simp] theorem retries_append (xs ys : List Act) : retries (xs ++ ys) = retries xs ++ retries ys :=
  List.filter_append ..

theorem retries_eq_nil {acts : List Act} (h : Every (fun act => !act.retries) acts) :
    retries acts = [] :=
  List.filter_eq_nil_iff.mpr fun act hact => by simpa using h act hact

theorem retries_map {f : ws_msg_node_t → Act} (h : ∀ n, (f n).retries = false)
    (ns : List ws_msg_node_t) : retries (ns.map f) = [] := by
  refine List.filter_eq_nil_iff.mpr fun act hact => ?_
  obtain ⟨n, _, rfl⟩ := List.mem_map.mp hact
  simp [h n]

theorem connects_retries (trace : List Act) : connects (retries trace) = connects trace := by
  rw [connects, retries, List.countP_filter, connects]
  refine List.countP_congr fun act _ => ?_
  cases act <;> simp [Act.retries]

/-- Hooks of which only `on_reconnect_decision` is set. -/
def decision_hook : wsl_event_hooks_t :=
  { on_connected := false, on_disconnected := false, on_error := false, on_message := false
    on_heartbeat_tick := false, on_reconnect_decision := true, on_handshake_header := false }

/-- How a client backs off: whether `on_reconnect_decision` is set, the delay it is
    created with and the one ESTABLISHED sets, and what one step makes of a delay.
    A client that `lags` waits for the delay before the step, the others for the
    one after it. -/
structure Backoff where
  hook : Bool
  first_ms : Int
  init_ms : Int
  next : Int → Int
  lags : Bool

/-- The delay after a step. A hook overrides it by an answer that is not negative. -/
def Backoff.left (b : Backoff) (delay_ms ret : Int) : Int :=
  if b.hook then if ret < 0 then delay_ms else ret else b.next delay_ms

/-- The wait armed in a step, in microseconds. -/
def Backoff.armed (b : Backoff) (delay_ms ret : Int) : List Int :=
  if b.hook then if ret < 0 then [] else [ret * 1000]
  else [(if b.lags then delay_ms else b.next delay_ms) * 1000]

/-- The failures since the start or the last ESTABLISHED, whether the last one
    still waits for its `schedule_reconnect`, and the delay reached. -/
structure Ledger where
  failures : Int
  due : Bool
  delay_ms : Int
  deriving DecidableEq

/-- The entry of a note; `none` when a failure is not followed by exactly one
    `schedule_reconnect`, the hook is not asked once with the right count, or the
    backoff does not take the one step. -/
def Ledger.enter (b : Backoff) (x : Ledger) : Note → Option Ledger
  | .started delay_ms => some { failures := 0, due := false, delay_ms }
  | .established => if x.due then none else some { failures := 0, due := false, delay_ms := b.init_ms }
  | .failure => if x.due then none else some { x with failures := x.failures + 1, due := true }
  | .scheduled asked ret armed delay_ms =>
    if x.due ∧ asked = (if b.hook then [(x.failures, b.next x.delay_ms)] else []) ∧
        armed = b.armed x.delay_ms ret ∧ delay_ms = b.left x.delay_ms ret then
      some { x with due := false, delay_ms }
    else none

def ledger (b : Backoff) (notes : List Note) : Option Ledger :=
  notes.foldlM (Ledger.enter b) { failures := 0, due := false, delay_ms := b.first_ms }

theorem ledger_snoc (b : Backoff) (notes : List Note) (note : Note) :
    ledger b (notes ++ [note]) = (ledger b notes).bind fun x => x.enter b note := by
  rw [ledger, List.foldlM_append]
  simp only [List.foldlM_cons, List.foldlM_nil, bind_pure]
  rfl

/-- The notes so far are in order, `ahead` runs of `schedule_reconnect` are still
    to come, `fail_count` is right where a hook will be told it, and so is the
    delay. -/
def Booked (b : Backoff) (notes : List Note) (ahead : Nat) (fail_count delay_ms : Int) : Prop :=
  ∃ x : Ledger, ledger b notes = some x ∧ ahead = x.due.toNat ∧
    (b.hook = true → fail_count = x.failures) ∧ delay_ms = x.delay_ms

variable {b : Backoff} {notes : List Note} {ahead : Nat} {n m delay_ms delay_ms' : Int}

theorem Booked.initial (hn : b.hook = true → n = 0) : Booked b [] 0 n b.first_ms :=
  ⟨_, rfl, rfl, hn, rfl⟩

theorem Booked.start (h : ∃ x, ledger b notes = some x) (hn : b.hook = true → n = 0) :
    Booked b (notes ++ [.started delay_ms]) 0 n delay_ms := by
  obtain ⟨x, hx⟩ := h
  exact ⟨{ failures := 0, due := false, delay_ms }, by rw [ledger_snoc, hx]; rfl, rfl, hn, rfl⟩

/-- Nothing is due when no `schedule_reconnect` is to come. -/
theorem Booked.settled (h : Booked b notes 0 n delay_ms) :
    ∃ failures, ledger b notes = some { failures, due := false, delay_ms } ∧
      (b.hook = true → n = failures) := by
  obtain ⟨⟨failures, due, _⟩, hx, hahead, hn, rfl⟩ := h
  cases due with
  | false => exact ⟨failures, hx, hn⟩
  | true => cases hahead

theorem Booked.establish (h : Booked b notes 0 n delay_ms) (hm : b.hook = true → m = 0) :
    Booked b (notes ++ [.established]) 0 m b.init_ms := by
  obtain ⟨failures, hx, _⟩ := h.settled
  exact ⟨{ failures := 0, due := false, delay_ms := b.init_ms }, by rw [ledger_snoc, hx]; rfl, rfl, hm,
    rfl⟩

theorem Booked.fail (h : Booked b notes 0 n delay_ms) (hm : b.hook = true → m = n + 1) :
    Booked b (notes ++ [.failure]) 1 m delay_ms := by
  obtain ⟨failures, hx, hn⟩ := h.settled
  refine ⟨{ failures := failures + 1, due := true, delay_ms }, by rw [ledger_snoc, hx]; rfl, rfl,
    fun hook => ?_, rfl⟩
  rw [hm hook, hn hook]

theorem Booked.schedule {asked : List (Int × Int)} {ret : Int} {armed : List Int}
    (h : Booked b notes (ahead + 1) n delay_ms)
    (hasked : asked = if b.hook then [(n, b.next delay_ms)] else [])
    (harmed : armed = b.armed delay_ms ret) (hleft : delay_ms' = b.left delay_ms ret) :
    Booked b (notes ++ [.scheduled asked ret armed delay_ms']) ahead n delay_ms' := by
  obtain ⟨⟨failures, due, _⟩, hx, hahead, hn, rfl⟩ := h
  cases due with
  | false => cases hahead
  | true =>
    have hright : asked = if b.hook then [(failures, b.next delay_ms)] else [] := by
      rw [hasked]
      split
      · next hook => rw [hn hook]
      · rfl
    refine ⟨{ failures, due := false, delay_ms := delay_ms' }, ?_, Nat.succ.inj hahead, hn, rfl⟩
    rw [ledger_snoc, hx]
    simp [Ledger.enter, hright, harmed, hleft]

/-- The notes so far are in order, and while the client is not stopping they
    agree with what its thread is still to do. -/
structure Accounted (b : Backoff) (notes : List Note) (stopping : Bool) (ahead : Nat)
    (fail_count delay_ms : Int) : Prop where
  sound : ∃ x, ledger b notes = some x
  booked : stopping = false → Booked b notes ahead fail_count delay_ms

variable {stopping stopping' : Bool} {ahead' : Nat}

theorem Booked.accounted (h : Booked b notes ahead n delay_ms) :
    Accounted b notes stopping ahead n delay_ms := by
  refine ⟨?_, fun _ => h⟩
  obtain ⟨x, hx, _⟩ := h
  exact ⟨x, hx⟩

/-- A step that shows nothing leaves what is to be done, or stops the client. -/
theorem Accounted.quiet (h : Accounted b notes stopping ahead n delay_ms)
    (hkept : stopping' = false → stopping = false ∧ ahead' = ahead ∧ (b.hook = true → m = n) ∧
      delay_ms' = delay_ms) : Accounted b notes stopping' ahead' m delay_ms' := by
  refine ⟨h.sound, fun hstop => ?_⟩
  obtain ⟨hbefore, rfl, hm, rfl⟩ := hkept hstop
  obtain ⟨x, hx, hahead, hn, hdelay⟩ := h.booked hbefore
  exact ⟨x, hx, hahead, fun hook => (hm hook).trans (hn hook), hdelay⟩

/-- A step that leaves `stopping` as it is shows what it shows only while the
    client is not stopping. -/
theorem Accounted.unless_stopping {shown : List Note}
    (h : Accounted b notes stopping ahead n delay_ms) (hstop : stopping' = stopping)
    (hgo : stopping = false → Booked b notes ahead n delay_ms →
      Accounted b (notes ++ shown) stopping' ahead' m delay_ms') :
    Accounted b (notes ++ if stopping then [] else shown) stopping' ahead' m delay_ms' := by
  cases stopping with
  | true =>
    rw [if_pos rfl, List.append_nil]
    exact h.quiet fun hfalse => by rw [hstop] at hfalse; cases hfalse
  | false =>
    rw [if_neg (by simp)]
    exact hgo rfl (h.booked rfl)

end lws_client
