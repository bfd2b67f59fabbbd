import LwsClientDemo.Memory

namespace lws_client

/-- `LWS_PRE`: the bytes before the pointer given to `lws_write` that lws fills
    with the frame header (`docs/libwebsockets_architecture.md`). -/
def LWS_PRE : Nat := 16

abbrev WsiId := Nat

inductive lws_write_protocol where
  | LWS_WRITE_TEXT
  | LWS_WRITE_BINARY
  | LWS_WRITE_PING
  deriving DecidableEq

inductive LCCSCF where
  | USE_SSL
  | ALLOW_SELFSIGNED
  | SKIP_SERVER_CERT_HOSTNAME_CHECK
  | ALLOW_EXPIRED
  deriving DecidableEq

/-- The fields of `lws_client_connect_info` that the program fills in. -/
structure lws_client_connect_info where
  address : String
  port : Int
  path : String
  host : String
  origin : String
  protocol : Option String
  ssl_connection : List LCCSCF
  deriving DecidableEq

inductive LwsClientRet_e where
  | LWS_OK
  | LWS_ERR_PARAM
  | LWS_ERR_QUEUE_FULL
  deriving DecidableEq

/-- What the program does that is seen outside it: calls to lws, to the user's
    callbacks and hooks, `free` of message nodes, and what API calls return. -/
inductive Act where
  | lws_write (wsi : WsiId) (buf : Ptr) (len : Nat) (wp : lws_write_protocol)
  | lws_callback_on_writable (wsi : WsiId)
  | lws_set_timer_usecs (wsi : WsiId) (usecs : Int)
  | lws_close_reason (wsi : WsiId)
  | lws_sul_schedule (usecs : Int)
  | lws_sul_cancel
  | lws_cancel_service
  | lws_client_connect_via_info (info : lws_client_connect_info)
  | rx_cb (data : List UInt8) (is_binary : Bool)
  | conn_cb (connected : Bool)
  | err_cb (error : String)
  | on_connected
  | on_disconnected
  | on_error (msg : String)
  | on_message (data : List UInt8) (is_binary : Bool)
  | on_heartbeat_tick
  | on_reconnect_decision (fail_count current_delay_ms : Int)
  | on_handshake_header (wsi : WsiId)
  | pthread_create
  | free_node (payload : List UInt8) (is_binary : Bool)
  | flush_node (payload : List UInt8) (is_binary : Bool)
  | send_returns (data : List UInt8) (is_binary : Bool) (ret : LwsClientRet_e)
  | add_returns (ret : LwsClientRet_e)
  | stop_times_out
  | stop_returns
  | client_destroy

/-- One `CLIENT_RECEIVE` (or server `RECEIVE`): the bytes `in`, `len` and what
    lws answers to the four queries the handlers make. -/
structure Chunk where
  data : Data
  is_first_fragment : Bool
  is_final_fragment : Bool
  remaining_packet_payload : Nat
  frame_is_binary : Bool

/-- The callback reasons that carry a connection. `in` is the error text of
    `CLIENT_CONNECTION_ERROR`, possibly NULL. -/
inductive Reason where
  | CLIENT_ESTABLISHED
  | CLIENT_RECEIVE (chunk : Chunk)
  | CLIENT_WRITEABLE
  | TIMER
  | CLIENT_RECEIVE_PONG
  | CLIENT_CONNECTION_ERROR (msg : Option String)
  | CLIENT_CLOSED
  | WSI_DESTROY
  | CLIENT_APPEND_HANDSHAKE_HEADER

/-- What `lws_client_connect_via_info` does: it returns a new connection, or it
    returns NULL, possibly after delivering `CLIENT_CONNECTION_ERROR` (with its
    text) and `WSI_DESTROY` for the connection it gives up. -/
inductive ConnectAnswer where
  | accepted
  | refused (error : Option (Option String)) (destroyed : Bool)

/-- The environment's answers to one section: the result of `lws_write` or of a
    hook (`ret`), the allocator or creation call (`ok`), the connect call, the
    clock, and whether a timed wait ends by its deadline. -/
structure Answer where
  ret : Int := 0
  ok : Bool := true
  connect : ConnectAnswer := .refused none false
  now : Int := 0
  timeout : Bool := false

inductive WsiPhase where
  | connecting
  | established
  | closed
  deriving DecidableEq

/-- What lws keeps for a connection: its `userdata`, how far it is, whether a
    WRITEABLE callback is due, the one-shot timer, and whether one of its
    callbacks returned nonzero, after which lws closes it. -/
structure Wsi where
  user : Nat
  phase : WsiPhase
  writable : Bool
  timer : Option Int
  failed : Bool

/-- `cancelled`: an `lws_cancel_service` whose `EVENT_WAIT_CANCELLED` is still
    outstanding. `next` is an id no connection has had. -/
structure lws_context where
  wsi : WsiId → Option Wsi
  next : WsiId
  cancelled : Bool

def lws_context.phase (x : lws_context) (w : WsiId) : Option WsiPhase := (x.wsi w).map Wsi.phase

/-- A connection lws has not yet ended with CONNECTION_ERROR or CLOSED. -/
def lws_context.Live (x : lws_context) (w : WsiId) : Prop :=
  x.phase w = some .connecting ∨ x.phase w = some .established

instance (x : lws_context) (w : WsiId) : Decidable (x.Live w) :=
  inferInstanceAs (Decidable (_ ∨ _))

def lws_context.modify (x : lws_context) (w : WsiId) (f : Wsi → Wsi) : lws_context :=
  { x with wsi := Function.update x.wsi w ((x.wsi w).map f) }

def lws_context.setPhase (x : lws_context) (w : WsiId) (phase : WsiPhase) : lws_context :=
  x.modify w fun i => { i with phase }

/-- A callback of the connection returned nonzero. -/
def lws_context.fail (x : lws_context) (w : WsiId) : lws_context :=
  x.modify w fun i => { i with failed := true }

/-- The connection a successful connect call makes. -/
def lws_context.connect (x : lws_context) (user : Nat) : lws_context :=
  { x with
    wsi := Function.update x.wsi x.next
      (some { user, phase := .connecting, writable := false, timer := none, failed := false })
    next := x.next + 1 }

/-- `WSI_DESTROY` has been delivered and the connection is freed. -/
def lws_context.remove (x : lws_context) (w : WsiId) : lws_context :=
  { x with wsi := Function.update x.wsi w none }

/-- All connections end with the context; the ids stay used. -/
def lws_context.destroy (x : lws_context) : lws_context :=
  { wsi := fun _ => none, next := x.next, cancelled := false }

/-- The effect of a call on lws. A writable request counts on an open
    connection only, and the timer is one-shot. -/
def lws_context.perform (x : lws_context) : Act → lws_context
  | .lws_callback_on_writable w =>
    x.modify w fun i => if i.phase = .established then { i with writable := true } else i
  | .lws_set_timer_usecs w usecs => x.modify w fun i => { i with timer := some usecs }
  | .lws_cancel_service => { x with cancelled := true }
  | _ => x

def lws_context.performs (x : lws_context) (acts : List Act) : lws_context :=
  acts.foldl lws_context.perform x

/-- A call made only when the callback or hook is set. -/
def callIf (set : Bool) (act : Act) : List Act := if set then [act] else []

/-- A call on a connection pointer; nothing when it is NULL. -/
def onWsi (wsi : Option WsiId) (act : WsiId → Act) : List Act := wsi.toList.map act

/-- What one callback does: the client after it, its calls in order, and its
    return value. -/
structure Out (γ : Type) where
  client : γ
  acts : List Act
  ret : Int

/-- The pthread of a service loop, and `lws_context_destroy` running in its
    place after the join. -/
inductive Thread where
  | none
  | created
  | running
  | exited
  | destroying
  deriving DecidableEq

/-- lws delivers a callback of connection `w` only in the phase it belongs to.
    `lws_context_destroy` may go straight to WSI_DESTROY. -/
def lws_context.enables (x : lws_context) (thread : Thread) (w : WsiId) : Reason → Bool
  | .CLIENT_ESTABLISHED | .CLIENT_APPEND_HANDSHAKE_HEADER =>
    thread == .running && x.phase w == some .connecting
  | .CLIENT_RECEIVE _ | .CLIENT_WRITEABLE | .CLIENT_RECEIVE_PONG =>
    thread == .running && x.phase w == some .established
  | .TIMER =>
    thread == .running && x.phase w == some .established &&
      (x.wsi w).any fun i => i.timer.isSome
  | .CLIENT_CONNECTION_ERROR _ =>
    (thread == .running || thread == .destroying) && x.phase w == some .connecting
  | .CLIENT_CLOSED =>
    (thread == .running || thread == .destroying) && x.phase w == some .established
  | .WSI_DESTROY =>
    (thread == .running && x.phase w == some .closed) ||
      (thread == .destroying && (x.phase w).isSome)

/-- The phase a connection is in when the running service loop delivers the
    callback. -/
def Reason.phase : Reason → WsiPhase
  | .CLIENT_ESTABLISHED | .CLIENT_APPEND_HANDSHAKE_HEADER | .CLIENT_CONNECTION_ERROR _ => .connecting
  | .WSI_DESTROY => .closed
  | _ => .established

theorem lws_context.phase_of_enables {x : lws_context} {w : WsiId} {r : Reason}
    (h : x.enables .running w r = true) : x.phase w = some r.phase := by
  cases r <;> simp [lws_context.enables] at h <;> first | exact h | exact h.1

/-- Inside `lws_context_destroy` too, but for the WSI_DESTROY it may go straight to. -/
theorem lws_context.phase_of_enables_ne {x : lws_context} {thread : Thread} {w : WsiId} {r : Reason}
    (h : x.enables thread w r = true) (hr : r ≠ .WSI_DESTROY) : x.phase w = some r.phase := by
  cases r <;> simp [lws_context.enables] at h hr <;> first | exact h.2 | exact h.1.2

@[simp] theorem lws_context.phase_modify (x : lws_context) (w v : WsiId) (f : Wsi → Wsi) :
    (x.modify w f).phase v = if v = w then (x.wsi w).map (fun i => (f i).phase) else x.phase v := by
  by_cases h : v = w
  · subst h
    simp [lws_context.phase, lws_context.modify, Function.comp_def]
  · simp [lws_context.phase, lws_context.modify, h]

/-- Changing other fields of a connection keeps its phase. -/
theorem lws_context.phase_modify_same (x : lws_context) (w v : WsiId) {f : Wsi → Wsi}
    (hf : ∀ i, (f i).phase = i.phase) : (x.modify w f).phase v = x.phase v := by
  rw [phase_modify]
  split
  · next hv =>
    subst hv
    simp [lws_context.phase, hf]
  · rfl

@[simp] theorem lws_context.phase_setPhase (x : lws_context) (w v : WsiId) (phase : WsiPhase) :
    (x.setPhase w phase).phase v =
      if v = w then (x.phase w).map (fun _ => phase) else x.phase v := by
  rw [setPhase, phase_modify]
  simp [lws_context.phase, Function.comp_def]

@[simp] theorem lws_context.phase_fail (x : lws_context) (w v : WsiId) :
    (x.fail w).phase v = x.phase v :=
  x.phase_modify_same w v fun _ => rfl

@[simp] theorem lws_context.phase_connect (x : lws_context) (user : Nat) (v : WsiId) :
    (x.connect user).phase v = if v = x.next then some .connecting else x.phase v := by
  by_cases h : v = x.next
  · subst h
    simp [lws_context.phase, connect]
  · simp [lws_context.phase, connect, h]

@[simp] theorem lws_context.phase_remove (x : lws_context) (w v : WsiId) :
    (x.remove w).phase v = if v = w then none else x.phase v := by
  by_cases h : v = w
  · subst h
    simp [lws_context.phase, remove]
  · simp [lws_context.phase, remove, h]

@[simp] theorem lws_context.phase_destroy (x : lws_context) (v : WsiId) :
    x.destroy.phase v = none := rfl

theorem lws_context.phase_perform (x : lws_context) (act : Act) (w : WsiId) :
    (x.perform act).phase w = x.phase w := by
  cases act with
  | lws_callback_on_writable v =>
    apply x.phase_modify_same v w
    intro i
    split <;> rfl
  | lws_set_timer_usecs v usecs => exact x.phase_modify_same v w fun _ => rfl
  | _ => rfl

/-- Calls on lws never end, establish or create a connection. -/
@[simp] theorem lws_context.phase_performs (x : lws_context) (acts : List Act) (w : WsiId) :
    (x.performs acts).phase w = x.phase w := by
  induction acts generalizing x with
  | nil => rfl
  | cons act acts ih => exact (ih (x.perform act)).trans (x.phase_perform act w)

/-- A WRITEABLE callback has been requested and not yet delivered. -/
def lws_context.Writable (x : lws_context) (w : WsiId) : Prop := (x.wsi w).any Wsi.writable = true

/-- A callback of the connection has returned nonzero. -/
def lws_context.Failed (x : lws_context) (w : WsiId) : Prop := (x.wsi w).any Wsi.failed = true

instance (x : lws_context) (w : WsiId) : Decidable (x.Writable w) :=
  inferInstanceAs (Decidable (_ = true))

instance (x : lws_context) (w : WsiId) : Decidable (x.Failed w) :=
  inferInstanceAs (Decidable (_ = true))

/-- No wakeup and no failure recorded in `x` is lost in `y`. -/
structure lws_context.Keeps (x y : lws_context) : Prop where
  writable : ∀ w, x.Writable w → y.Writable w
  failed : ∀ w, x.Failed w → y.Failed w
  cancelled : x.cancelled = true → y.cancelled = true

theorem lws_context.Keeps.refl (x : lws_context) : x.Keeps x := ⟨fun _ => id, fun _ => id, id⟩

theorem lws_context.Keeps.trans {x y z : lws_context} (h₁ : x.Keeps y) (h₂ : y.Keeps z) :
    x.Keeps z :=
  ⟨fun w h => h₂.writable w (h₁.writable w h), fun w h => h₂.failed w (h₁.failed w h),
    fun h => h₂.cancelled (h₁.cancelled h)⟩

theorem lws_context.keeps_modify (x : lws_context) (w : WsiId) {f : Wsi → Wsi}
    (hwritable : ∀ i, i.writable = true → (f i).writable = true)
    (hfailed : ∀ i, i.failed = true → (f i).failed = true) : x.Keeps (x.modify w f) := by
  refine ⟨fun v h => ?_, fun v h => ?_, id⟩
  all_goals
    by_cases hv : v = w
    · subst hv
      cases hi : x.wsi v with
      | none => simp [Writable, Failed, hi] at h
      | some i =>
        simp_all [Writable, Failed, modify]
    · simpa [Writable, Failed, modify, hv] using h

theorem lws_context.keeps_fail (x : lws_context) (w : WsiId) : x.Keeps (x.fail w) :=
  x.keeps_modify w (fun _ => id) fun _ _ => rfl

theorem lws_context.keeps_perform (x : lws_context) (act : Act) : x.Keeps (x.perform act) := by
  cases act with
  | lws_callback_on_writable w =>
    apply x.keeps_modify w
    · intro i hi
      split
      · rfl
      · exact hi
    · intro i hi
      split <;> exact hi
  | lws_set_timer_usecs w usecs => exact x.keeps_modify w (fun _ => id) fun _ => id
  | lws_cancel_service => exact ⟨fun _ => id, fun _ => id, fun _ => rfl⟩
  | _ => exact .refl x

/-- Calls on lws lose no wakeup. -/
theorem lws_context.keeps_performs (x : lws_context) (acts : List Act) :
    x.Keeps (x.performs acts) := by
  induction acts generalizing x with
  | nil => exact .refl x
  | cons act acts ih => exact (x.keeps_perform act).trans (ih (x.perform act))

/-- A request on an open connection is outstanding. -/
theorem lws_context.writable_requested {x : lws_context} {w : WsiId}
    (h : x.phase w = some .established) : (x.perform (.lws_callback_on_writable w)).Writable w := by
  simp only [phase, Option.map_eq_some_iff] at h
  obtain ⟨i, hi, hphase⟩ := h
  simp [Writable, perform, modify, hi, hphase]

theorem lws_context.failed_fail {x : lws_context} {w : WsiId} (h : x.phase w = some .established) :
    (x.fail w).Failed w := by
  simp only [phase, Option.map_eq_some_iff] at h
  obtain ⟨i, hi, _⟩ := h
  simp [Failed, fail, modify, hi]

/-- The one-shot timer of the connection is armed. -/
def lws_context.Armed (x : lws_context) (w : WsiId) : Prop :=
  (x.wsi w).any (fun i => i.timer.isSome) = true

instance (x : lws_context) (w : WsiId) : Decidable (x.Armed w) :=
  inferInstanceAs (Decidable (_ = true))

/-- An open connection of `y` was open in `x`, with no timer or failure lost. -/
def lws_context.Steady (x y : lws_context) : Prop :=
  ∀ w, y.phase w = some .established →
    x.phase w = some .established ∧ (x.Armed w → y.Armed w) ∧ (x.Failed w → y.Failed w)

theorem lws_context.Steady.refl (x : lws_context) : x.Steady x := fun _ h => ⟨h, id, id⟩

theorem lws_context.Steady.trans {x y z : lws_context} (h₁ : x.Steady y) (h₂ : y.Steady z) :
    x.Steady z := by
  intro w hz
  obtain ⟨hy, harmed, hfailed⟩ := h₂ w hz
  obtain ⟨hx, harmed', hfailed'⟩ := h₁ w hy
  exact ⟨hx, fun h => harmed (harmed' h), fun h => hfailed (hfailed' h)⟩

theorem lws_context.steady_modify (x : lws_context) (w : WsiId) {f : Wsi → Wsi}
    (hphase : ∀ i, (f i).phase = .established → i.phase = .established)
    (htimer : ∀ i, i.timer.isSome → (f i).timer.isSome)
    (hfailed : ∀ i, i.failed = true → (f i).failed = true) : x.Steady (x.modify w f) := by
  intro v hv
  by_cases hvw : v = w
  · subst hvw
    cases hi : x.wsi v with
    | none => simp [phase, modify, hi] at hv
    | some i =>
      have hopen : (f i).phase = .established := by simpa [phase, modify, hi] using hv
      refine ⟨by simp [phase, hi, hphase i hopen], fun h => ?_, fun h => ?_⟩
      · simpa [Armed, modify, hi] using htimer i (by simpa [Armed, hi] using h)
      · simpa [Failed, modify, hi] using hfailed i (by simpa [Failed, hi] using h)
  · rw [phase_modify, if_neg hvw] at hv
    refine ⟨hv, fun h => ?_, fun h => ?_⟩
    · simpa [Armed, modify, hvw] using h
    · simpa [Failed, modify, hvw] using h

theorem lws_context.steady_fail (x : lws_context) (w : WsiId) : x.Steady (x.fail w) :=
  x.steady_modify w (fun _ => id) (fun _ => id) fun _ _ => rfl

theorem lws_context.steady_perform (x : lws_context) (act : Act) : x.Steady (x.perform act) := by
  cases act with
  | lws_callback_on_writable w =>
    apply x.steady_modify w <;> intro i h
    · split at h <;> exact h
    · split <;> exact h
    · split <;> exact h
  | lws_set_timer_usecs w usecs => exact x.steady_modify w (fun _ => id) (fun _ _ => rfl) fun _ => id
  | _ => exact .refl x

theorem lws_context.steady_performs (x : lws_context) (acts : List Act) :
    x.Steady (x.performs acts) := by
  induction acts generalizing x with
  | nil => exact .refl x
  | cons act acts ih => exact (x.steady_perform act).trans (ih (x.perform act))

theorem lws_context.steady_remove (x : lws_context) (w : WsiId) : x.Steady (x.remove w) := by
  intro v hv
  rw [phase_remove] at hv
  split at hv
  · cases hv
  · next hvw =>
    refine ⟨hv, fun h => ?_, fun h => ?_⟩
    · simpa [Armed, remove, hvw] using h
    · simpa [Failed, remove, hvw] using h

theorem lws_context.steady_close (x : lws_context) (w : WsiId) :
    x.Steady (x.setPhase w .closed) :=
  x.steady_modify w (fun _ h => by cases h) (fun _ => id) fun _ => id

/-- Calls that set the timer of an open connection leave it armed. -/
theorem lws_context.armed_performs {x : lws_context} {acts : List Act} {w : WsiId} {usecs : Int}
    (hset : .lws_set_timer_usecs w usecs ∈ acts) (h : x.phase w = some .established) :
    (x.performs acts).Armed w := by
  obtain ⟨before, after, rfl⟩ := List.append_of_mem hset
  have hbefore : (x.performs before).phase w = some .established := by simpa using h
  have hsplit : x.performs (before ++ .lws_set_timer_usecs w usecs :: after) =
      ((x.performs before).perform (.lws_set_timer_usecs w usecs)).performs after := by
    simp [performs]
  rw [hsplit]
  have hopen : (((x.performs before).perform (.lws_set_timer_usecs w usecs)).performs after).phase w =
      some .established := by
    rw [phase_performs, phase_perform]
    exact hbefore
  refine (steady_performs _ after w hopen).2.1 ?_
  simp only [phase, Option.map_eq_some_iff] at hbefore
  obtain ⟨i, hi, _⟩ := hbefore
  simp [Armed, perform, modify, hi]

/-- Only setting the timer arms it. -/
theorem lws_context.armed_of_performs {x : lws_context} {acts : List Act} {w : WsiId}
    (h : (x.performs acts).Armed w) : (∃ usecs, .lws_set_timer_usecs w usecs ∈ acts) ∨ x.Armed w := by
  induction acts generalizing x with
  | nil => exact .inr h
  | cons act acts ih =>
    rcases ih h with ⟨usecs, hmem⟩ | harmed
    · exact .inl ⟨usecs, List.mem_cons_of_mem _ hmem⟩
    · cases act with
      | lws_set_timer_usecs v usecs =>
        by_cases hv : w = v
        · subst hv
          exact .inl ⟨usecs, by simp⟩
        · exact .inr (by simpa [Armed, perform, modify, hv] using harmed)
      | lws_callback_on_writable v =>
        refine .inr ?_
        by_cases hv : w = v
        · subst hv
          cases hi : x.wsi w with
          | none => simp [Armed, perform, modify, hi] at harmed
          | some i =>
            simp only [Armed, perform, modify, Function.update_self, hi, Option.map_some,
              Option.any_some] at harmed ⊢
            split at harmed <;> exact harmed
        · simpa [Armed, perform, modify, hv] using harmed
      | _ => exact .inr harmed

/-- No call of the program counts as a failed callback. -/
theorem lws_context.failed_of_performs {x : lws_context} {acts : List Act} {w : WsiId}
    (h : (x.performs acts).Failed w) : x.Failed w := by
  induction acts generalizing x with
  | nil => exact h
  | cons act acts ih =>
    have hfailed := ih h
    cases act with
    | lws_set_timer_usecs v usecs | lws_callback_on_writable v =>
      by_cases hv : w = v
      · subst hv
        cases hi : x.wsi w with
        | none => simp [Failed, perform, modify, hi] at hfailed
        | some i =>
          simp only [Failed, perform, modify, Function.update_self, hi, Option.map_some,
            Option.any_some] at hfailed ⊢
          first | exact hfailed | (split at hfailed <;> exact hfailed)
      · simpa [Failed, perform, modify, hv] using hfailed
    | _ => exact hfailed

/-- `y` is `x` after calls of the program on lws. -/
def lws_context.Calls (x y : lws_context) : Prop := ∃ acts, y = x.performs acts

theorem lws_context.Calls.refl (x : lws_context) : x.Calls x := ⟨[], rfl⟩

theorem lws_context.calls_performs (x : lws_context) (acts : List Act) : x.Calls (x.performs acts) :=
  ⟨acts, rfl⟩

theorem lws_context.Calls.trans {x y z : lws_context} (h₁ : x.Calls y) (h₂ : y.Calls z) :
    x.Calls z := by
  obtain ⟨acts, rfl⟩ := h₁
  obtain ⟨acts', rfl⟩ := h₂
  exact ⟨acts ++ acts', (List.foldl_append ..).symm⟩

theorem lws_context.Calls.keeps {x y : lws_context} (h : x.Calls y) : x.Keeps y := by
  obtain ⟨acts, rfl⟩ := h
  exact x.keeps_performs acts

theorem lws_context.Calls.failed {x y : lws_context} (h : x.Calls y) {w : WsiId}
    (hfailed : y.Failed w) : x.Failed w := by
  obtain ⟨acts, rfl⟩ := h
  exact failed_of_performs hfailed

end lws_client
