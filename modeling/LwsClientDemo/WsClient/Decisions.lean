import LwsClientDemo.Decisions
import LwsClientDemo.WsClient.Connection

open interleaving

namespace lws_client.ws_client

/-- The frame runs `schedule_reconnect` when the client is not stopping. -/
def Frame.schedules : Frame → Bool
  | .connection_error _ | .connect_return none => true
  | _ => false

/-- How v1 backs off. It has no hooks, and doubles the delay after using it. -/
def wsld_client.backoff (c : wsld_client) : Backoff :=
  { hook := false, first_ms := c.reconnect_delay_ms, init_ms := c.reconnect_init_ms
    next := fun delay_ms =>
      if int_double delay_ms > c.reconnect_max_ms then c.reconnect_max_ms else int_double delay_ms
    lags := true }

/-- A run of `schedule_reconnect` at the time `now`, as the wait and the delay it
    leaves `after` show it. -/
def scheduling (after : wsld_client) (now : Int) : Note :=
  .scheduled [] 0 [(reconnect_due after - now) * 1000] after.reconnect_delay_ms

/-- What an event shows of a client that is not stopping and that it leaves as
    `after`. The handlers of CONNECTION_ERROR and CLOSED run `schedule_reconnect`
    themselves. -/
def Event.notes (after : wsld_client) : Event → List Note
  | .callback _ .CLIENT_ESTABLISHED _ => [.established]
  | .callback _ (.CLIENT_CONNECTION_ERROR _) a | .callback _ .CLIENT_CLOSED a =>
    [.failure, scheduling after a.now]
  | _ => []

/-- What a section shows of a client that is not stopping and that it leaves as
    `after`. A CONNECTION_ERROR inside the connect call is part of the failure of
    that call. -/
def Frame.notes (after : wsld_client) (f : Frame) (a : Answer) : List Note :=
  match f, a.connect with
  | .do_connect, .refused _ _ => [.failure]
  | .connection_error _, _ | .connect_return none, _ => [scheduling after a.now]
  | _, _ => []

/-- The notes of a step. A stopping client has none until it is started again. -/
def notes (cfg : Config) (l : Label) : List Note :=
  let after := (system.after cfg l).shared.c
  match l with
  | .event e => if cfg.shared.c.stopping then [] else e.notes after
  | .svc a =>
    if cfg.shared.c.stopping then [] else (cfg.svc.head?.map fun f => f.notes after a).getD []
  | .app t _ =>
    if (cfg.app t).head?.any (fun f => f matches .start_thread) then
      [.started after.reconnect_delay_ms]
    else []
  | .call _ _ => []

/-- A connect call that fails delivers no CONNECTION_ERROR to a client that is
    not stopping. -/
def fails_once (cfg : Config) : Label → Bool
  | .svc a =>
    match cfg.svc, a.connect with
    | .do_connect :: _, .refused (some _) _ => cfg.shared.c.stopping
    | _, _ => true
  | _ => true

variable {s s' : Sys} {bs : List Note} {c : wsld_client}

/-- A run of `schedule_reconnect` is one step of the backoff. -/
theorem Booked.schedules {d after : wsld_client} {ahead : Nat} {n : Int}
    (h : Booked c.backoff bs (ahead + 1) n d.reconnect_delay_ms)
    (hconfig : d.towsld_config = c.towsld_config) (now : Int)
    (hafter : after = schedule_reconnect d now) :
    Booked c.backoff (bs ++ [scheduling after now]) ahead n after.reconnect_delay_ms := by
  subst hafter
  refine Booked.schedule h rfl ?_ ?_
  · rw [reconnect_due_schedule, add_sub_cancel_left]
    rfl
  · simp only [schedule_reconnect, hconfig]
    rfl

theorem callback_accounted {w : WsiId} {a : Answer} {r : Reason} {fs : List Frame}
    (h : s.callback w a r = some (fs, s')) (hconfig : s.c.towsld_config = c.towsld_config)
    (hacc : Accounted c.backoff bs s.c.stopping 0 0 s.c.reconnect_delay_ms) :
    Accounted c.backoff (bs ++ if s.c.stopping then [] else (Event.callback w r a).notes s'.c)
      s'.c.stopping (fs.countP Frame.schedules) 0 s'.c.reconnect_delay_ms := by
  refine hacc.unless_stopping (callback_owned h).1.stopping fun hstopping hbooked => ?_
  cases r with
  | CLIENT_ESTABLISHED =>
    cases h
    have hinit : (established s.c w).1.reconnect_delay_ms = c.backoff.init_ms := by
      simp only [established, hconfig]
      rfl
    rw [Sys.act_c, hinit]
    exact (hbooked.establish fun _ => rfl).accounted
  | CLIENT_CONNECTION_ERROR _ | CLIENT_CLOSED =>
    cases h
    have hfailed : Booked c.backoff (bs ++ [.failure]) 1 0 s.c.reconnect_delay_ms :=
      hbooked.fail (by simp [wsld_client.backoff])
    have hscheduled := Booked.schedules (d := { s.c with wsi := none }) hfailed hconfig a.now
      (if_neg (by simp [hstopping]) : closed s.c a.now = _)
    rw [List.append_assoc] at hscheduled
    exact hscheduled.accounted
  | CLIENT_WRITEABLE =>
    simp only [Sys.callback] at h
    split at h
    · cases h
      simpa [Event.notes, Frame.schedules, writeable_ping] using hbooked.accounted
    · split at h <;> cases h <;>
        simpa [Event.notes, Frame.schedules] using hbooked.accounted
  | CLIENT_RECEIVE chunk =>
    simp only [Sys.callback, Option.map_eq_some_iff, Prod.mk.injEq] at h
    obtain ⟨o, ho, rfl, rfl⟩ := h
    obtain ⟨frag, hc⟩ := receive_client ho
    split <;> simpa [Event.notes, hc] using hbooked.accounted
  | TIMER =>
    simp only [Sys.callback, Option.some.injEq, Prod.mk.injEq] at h
    obtain ⟨rfl, rfl⟩ := h
    obtain ⟨send_ping, hc⟩ := timer_client s.c w
    split <;> simpa [Event.notes, hc] using hbooked.accounted
  | WSI_DESTROY =>
    cases h
    obtain ⟨wsi, hc⟩ := wsi_destroy_client s.c w
    simpa [Event.notes, hc] using hbooked.accounted
  | _ =>
    cases h
    simpa [Event.notes, receive_pong] using hbooked.accounted

theorem deliver_accounted {e : Event} {fs : List Frame} (h : s.deliver e = some (fs, s'))
    (hconfig : s.c.towsld_config = c.towsld_config)
    (hacc : Accounted c.backoff bs s.c.stopping 0 0 s.c.reconnect_delay_ms) :
    Accounted c.backoff (bs ++ if s.c.stopping then [] else e.notes s'.c)
      s'.c.stopping (fs.countP Frame.schedules) 0 s'.c.reconnect_delay_ms := by
  have hnone : ∀ {e : Event}, e.notes s'.c = [] →
      (bs ++ if s.c.stopping then [] else e.notes s'.c) = bs := by
    intro e he
    split <;> simp [he]
  cases e with
  | callback w r a =>
    simp only [Sys.deliver, Option.ite_none_right_eq_some] at h
    exact callback_accounted h.2 hconfig hacc
  | service_thread | context_destroyed =>
    simp only [Sys.deliver, Option.ite_none_right_eq_some, Option.some.injEq, Prod.mk.injEq] at h
    obtain ⟨_, rfl, rfl⟩ := h
    rw [hnone rfl]
    exact hacc.quiet fun hstop => ⟨hstop, rfl, fun _ => rfl, rfl⟩
  | event_wait_cancelled wsi =>
    simp only [Sys.deliver, Option.ite_none_right_eq_some, Option.some.injEq, Prod.mk.injEq] at h
    obtain ⟨_, rfl, rfl⟩ := h
    rw [hnone rfl]
    exact hacc.quiet fun hstop => ⟨hstop, by cases wsi <;> rfl, fun _ => rfl, rfl⟩
  | poll now =>
    simp only [Sys.deliver, Option.ite_none_right_eq_some, Option.some.injEq, Prod.mk.injEq] at h
    obtain ⟨_, rfl, rfl⟩ := h
    rw [hnone rfl]
    exact hacc.quiet fun hstop => ⟨hstop, rfl, fun _ => rfl, rfl⟩
  | exit =>
    simp only [Sys.deliver, Option.ite_none_right_eq_some, Option.map_eq_some_iff,
      Prod.mk.injEq] at h
    obtain ⟨_, _, _, rfl, rfl⟩ := h
    rw [hnone rfl]
    exact hacc.quiet fun hstop => ⟨hstop, rfl, fun _ => rfl, rfl⟩

theorem svc_accounted {f : Frame} {a : Answer} {rest fs : List Frame} {app : Nat → List AppFrame}
    (h : s.svc f a = some (fs, s')) (hok : fails_once ⟨s, f :: rest, app⟩ (.svc a) = true)
    (halone : f = .do_connect → rest = []) (hconfig : s.c.towsld_config = c.towsld_config)
    (hacc : Accounted c.backoff bs s.c.stopping ((f :: rest).countP Frame.schedules) 0
      s.c.reconnect_delay_ms) :
    Accounted c.backoff (bs ++ if s.c.stopping then [] else f.notes s'.c a)
      s'.c.stopping ((fs ++ rest).countP Frame.schedules) 0 s'.c.reconnect_delay_ms := by
  refine hacc.unless_stopping (svc_owned h).1.stopping fun hstopping hbooked => ?_
  cases f with
  | do_connect =>
    obtain rfl := halone rfl
    simp only [Sys.svc] at h
    split at h
    · next hconnect =>
      cases h
      simpa [Frame.notes, hconnect, Frame.schedules] using hbooked.accounted
    · next error destroyed hconnect =>
      cases h
      have herror : error = none := by
        cases error with
        | none => rfl
        | some msg => simp [fails_once, hconnect, hstopping] at hok
      subst herror
      have hfailed : Booked c.backoff (bs ++ [.failure]) 1 0 s.c.reconnect_delay_ms :=
        hbooked.fail (by simp [wsld_client.backoff])
      simp only [Frame.notes, hconnect]
      cases destroyed <;> exact hfailed.accounted
  | connection_error msg =>
    cases h
    rw [List.countP_cons_of_pos rfl] at hbooked
    have hscheduled := Booked.schedules (d := { s.c with wsi := none }) hbooked hconfig a.now
      (if_neg (by simp [hstopping]) : closed s.c a.now = _)
    exact hscheduled.accounted
  | connect_return wsi =>
    cases wsi with
    | none =>
      cases h
      rw [List.countP_cons_of_pos rfl] at hbooked
      exact (Booked.schedules (d := { s.c with wsi := none }) hbooked hconfig a.now rfl).accounted
    | some w =>
      cases h
      simpa [Frame.notes, Frame.schedules] using hbooked.accounted
  | write w n more =>
    simp only [Sys.svc] at h
    split at h
    · cases h
      simpa [Frame.notes, Frame.schedules] using hbooked.accounted
    · cases h
      cases more <;> simpa [Frame.notes, Frame.schedules] using hbooked.accounted
  | has_data_check w =>
    cases h
    cases s.c.q.has_data <;> simpa [Frame.notes, Frame.schedules] using hbooked.accounted
  | event_wait_cancelled =>
    cases h
    cases event_wait_cancelled s.c <;>
      simpa [Frame.notes, Frame.schedules] using hbooked.accounted
  | wsi_destroy w =>
    cases h
    obtain ⟨wsi, hc⟩ := wsi_destroy_client s.c w
    simpa [Frame.notes, Frame.schedules, hc] using hbooked.accounted
  | lws_callback_on_writable _ =>
    cases h
    simpa [Frame.notes, Frame.schedules] using hbooked.accounted

/-- Only a start ends the stopping of a client, and no API call touches the delay. -/
theorem app_keeps_delay {f : AppFrame} {a : Answer} {fs : List AppFrame}
    (h : s.app f a = some (fs, s')) :
    (f ≠ .start_thread → s'.c.stopping = false → s.c.stopping = false) ∧
      s'.c.reconnect_delay_ms = s.c.reconnect_delay_ms := by
  cases f with
  | enqueue data is_binary => cases data <;> cases h <;> exact ⟨fun _ => id, rfl⟩
  | enqueue_locked data is_binary =>
    simp only [Sys.app, Option.some.injEq, Prod.mk.injEq] at h
    obtain ⟨_, rfl⟩ := h
    rcases enqueue_locked_spec s.c data is_binary a.ok with ⟨n, heq, _⟩ | heq <;> rw [heq] <;>
      exact ⟨fun _ => id, rfl⟩
  | start_thread =>
    simp only [Sys.app] at h
    split at h <;> cases h <;> exact ⟨fun hne => absurd rfl hne, rfl⟩
  | wsld_start | stop_context =>
    simp only [Sys.app] at h
    split at h <;> cases h <;> exact ⟨fun _ => id, rfl⟩
  | wsld_stop =>
    simp only [Sys.app] at h
    split at h <;> cases h
    · exact ⟨fun _ hstop => (by cases hstop), rfl⟩
    · exact ⟨fun _ => id, rfl⟩
  | stop_join | stop_context_destroyed =>
    simp only [Sys.app, Option.ite_none_right_eq_some, Option.some.injEq, Prod.mk.injEq] at h
    obtain ⟨_, _, rfl⟩ := h
    exact ⟨fun _ => id, rfl⟩
  | wsld_destroy =>
    simp only [Sys.app, Option.map_eq_some_iff, Prod.mk.injEq] at h
    obtain ⟨_, _, _, rfl⟩ := h
    exact ⟨fun _ => id, rfl⟩
  | enqueue_wake | lws_cancel_service | start_return | stop_cancel =>
    cases h
    exact ⟨fun _ => id, rfl⟩

theorem step_accounted {cfg cfg' : Config} {l : Label} (hmove : system.Moves cfg l cfg')
    (hlife : Lifecycle cfg) (hconn : Conn cfg.svc cfg.shared)
    (hconfig : cfg.shared.c.towsld_config = c.towsld_config) (hok : fails_once cfg l = true)
    (h : Accounted c.backoff bs cfg.shared.c.stopping (cfg.svc.countP Frame.schedules) 0
      cfg.shared.c.reconnect_delay_ms) :
    Accounted c.backoff (bs ++ notes cfg l) cfg'.shared.c.stopping
      (cfg'.svc.countP Frame.schedules) 0 cfg'.shared.c.reconnect_delay_ms := by
  unfold notes
  rw [hmove.after]
  cases hmove with
  | event hdeliver => exact deliver_accounted hdeliver hconfig h
  | svc hsvc =>
    refine svc_accounted hsvc hok ?_ hconfig h
    rintro rfl
    exact (hconn.running (hlife.busy (by simp))).do_connect_alone
  | call _ _ => simpa using h
  | @app t f a s s' svc app rest fs htop happ =>
    obtain ⟨hstop, hdelay⟩ := app_keeps_delay happ
    dsimp only at h ⊢
    by_cases hf : f = .start_thread
    · -- The service thread is not running yet.
      subst hf
      have hidle : svc = [] := by
        by_contra hne
        have hrun := hlife.busy hne
        obtain rfl := hlife.threads.rest_nil htop
        rcases hlife.frame htop with hsends | ⟨hthread, _⟩
        · cases hsends
        · rw [hthread] at hrun
          cases hrun
      subst hidle
      rw [if_pos (by simp [htop])]
      exact (Booked.start h.sound fun _ => rfl).accounted
    · rw [if_neg (by cases f <;> first | exact absurd rfl hf | simp [htop]), List.append_nil]
      exact h.quiet fun hafter => ⟨hstop hf hafter, rfl, fun _ => rfl, hdelay⟩

variable {ls : List Label} {cfg : Config}

theorem Follows.accounted (hc : c.Fresh)
    (h : system.Follows (fun cfg l => fails_once cfg l = true) (initial c) ls cfg) :
    Accounted c.backoff (system.observe notes (initial c) ls) cfg.shared.c.stopping
      (cfg.svc.countP Frame.schedules) 0 cfg.shared.c.reconnect_delay_ms := by
  refine h.observed (J := fun cfg => Lifecycle cfg ∧ Conn cfg.svc cfg.shared ∧
      cfg.shared.c.towsld_config = c.towsld_config)
    (I := fun bs cfg => Accounted c.backoff bs cfg.shared.c.stopping
      (cfg.svc.countP Frame.schedules) 0 cfg.shared.c.reconnect_delay_ms)
    (fun mid hmid => ?_) (Booked.initial fun _ => rfl).accounted
    fun bs cfg l cfg' ⟨hlife, hconn, hconfig⟩ hok hmove hbefore =>
      step_accounted hmove hlife hconn hconfig hok hbefore
  have hreach : Reachable mid := ⟨c, hc, hmid.mono fun _ _ _ => trivial⟩
  exact ⟨hreach.lifecycle, hreach.conn, Reaches.config hmid⟩

/-- Between two callbacks of a client that is not stopping, every failure so far
    has had its one `schedule_reconnect`, and the delay is where these have taken
    it. -/
theorem decided_once (hc : c.Fresh)
    (h : system.Follows (fun cfg l => fails_once cfg l = true) (initial c) ls cfg)
    (hstop : cfg.shared.c.stopping = false) (hidle : cfg.svc = []) :
    ∃ failures, ledger c.backoff (system.observe notes (initial c) ls) =
      some { failures, due := false, delay_ms := cfg.shared.c.reconnect_delay_ms } := by
  have hbooked := (Follows.accounted hc h).booked hstop
  rw [hidle] at hbooked
  obtain ⟨failures, hledger, _⟩ := hbooked.settled
  exact ⟨failures, hledger⟩

/-- A first attempt that fails with a CONNECTION_ERROR inside the call. -/
def nested_error_run : List Label :=
  [.call 0 .wsld_start, .app 0 {}, .app 0 {}, .app 0 {}, .event .service_thread,
    .svc { connect := .refused (some none) true }, .svc {}, .svc {}, .svc {}]

/-- Two attempts without one, then a connection that is lost. -/
def plain_failures_run : List Label :=
  [.call 0 .wsld_start, .app 0 {}, .app 0 {}, .app 0 {}, .event .service_thread, .svc {}, .svc {},
    .event (.poll 100000), .svc {}, .svc {}, .event (.poll 100000),
    .svc { connect := .accepted }, .svc {}, .event (.callback 2 .CLIENT_ESTABLISHED {}),
    .event (.callback 2 .CLIENT_CLOSED {})]

end lws_client.ws_client
