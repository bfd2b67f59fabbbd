import LwsClientDemo.Decisions
import LwsClientDemo.WsClientV2.Connection

open interleaving

namespace lws_client.ws_client_v2

/-- `hooks->on_reconnect_decision` is set. -/
def wsl_client.asks (c : wsl_client) : Bool := hooked c.hooks (·.on_reconnect_decision)

theorem wsl_client.SameConfig.asks {c c' : wsl_client} (h : c.SameConfig c') : c'.asks = c.asks := by
  obtain ⟨_, _, _, _, _, _, _, _, _, _, _, _, rfl⟩ := h
  rfl

/-- How v2 backs off. Its first delay is not doubled. -/
def wsl_client.backoff (c : wsl_client) : Backoff :=
  { hook := c.asks, first_ms := c.reconnect_delay_ms, init_ms := c.reconnect_init_ms
    next := fun delay_ms =>
      if delay_ms = 0 then c.reconnect_init_ms
      else if int_double delay_ms > c.reconnect_max_ms then c.reconnect_max_ms else int_double delay_ms
    lags := false }

/-- The frame runs `schedule_reconnect`, or leads to it, when the client is not
    stopping. -/
def Frame.schedules : Frame → Bool
  | .connection_error _ | .connect_return false | .schedule_reconnect => true
  | _ => false

/-- What an event shows of a client that is not stopping. -/
def Event.notes : Event → List Note
  | .callback _ .CLIENT_ESTABLISHED _ => [.established]
  | .callback _ (.CLIENT_CONNECTION_ERROR _) _ | .callback _ .CLIENT_CLOSED _ => [.failure]
  | _ => []

/-- What a section shows of a client that is not stopping, with the calls it makes
    and the delay it leaves. A CONNECTION_ERROR inside the connect call is part of
    the failure of that call. -/
def Frame.notes (f : Frame) (a : Answer) (acts : List Act) (delay_ms : Int) : List Note :=
  match f, a.connect with
  | .do_connect, .refused _ _ => [.failure]
  | .schedule_reconnect, _ => [.scheduled (consulted acts) a.ret (scheduled acts) delay_ms]
  | _, _ => []

/-- The notes of a step. A stopping client has none until it is started again. -/
def notes (cfg : Config) (l : Label) : List Note :=
  let delay_ms := (system.after cfg l).shared.c.reconnect_delay_ms
  match l with
  | .event e => if cfg.shared.c.stopping then [] else e.notes
  | .svc a =>
    if cfg.shared.c.stopping then []
    else (cfg.svc.head?.map fun f => f.notes a (calls cfg l) delay_ms).getD []
  | .app t _ =>
    if (cfg.app t).head?.any (fun f => f matches .start_thread) then [.started delay_ms] else []
  | .call _ _ => []

/-- A connect call that fails finds the client stopping, or it delivers no
    CONNECTION_ERROR and no hook is set; and a start with the hook set finds
    `reconnect_fail_count` at 0. -/
def fails_once (cfg : Config) : Label → Bool
  | .svc a =>
    match cfg.svc, a.connect with
    | .do_connect :: _, .refused error _ =>
      cfg.shared.c.stopping || (error.isNone && !cfg.shared.c.asks)
    | _, _ => true
  | .app t _ =>
    match cfg.app t with
    | .start_thread :: _ => !cfg.shared.c.asks || cfg.shared.c.reconnect_fail_count == 0
    | _ => true
  | _ => true

variable {s s' : Sys} {bs : List Note} {c : wsl_client}

/-- The hook is told the current `reconnect_fail_count`, once, and the backoff
    takes one step. -/
theorem schedule_reconnect_backs (c : wsl_client) (ret : Int) :
    consulted (schedule_reconnect c ret).2 = (if c.backoff.hook then
        [(c.reconnect_fail_count, c.backoff.next c.reconnect_delay_ms)] else []) ∧
      scheduled (schedule_reconnect c ret).2 = c.backoff.armed c.reconnect_delay_ms ret ∧
      (schedule_reconnect c ret).1.reconnect_delay_ms = c.backoff.left c.reconnect_delay_ms ret := by
  unfold schedule_reconnect Backoff.armed Backoff.left wsl_client.backoff wsl_client.asks
  dsimp only
  split
  · split <;> exact ⟨rfl, rfl, rfl⟩
  · exact ⟨rfl, rfl, rfl⟩

/-- A run of `schedule_reconnect` is one step of the backoff. -/
theorem Booked.schedules {c' : wsl_client} {ahead : Nat}
    (h : Booked c.backoff bs (ahead + 1) c'.reconnect_fail_count c'.reconnect_delay_ms)
    (hconfig : c.SameConfig c') (ret : Int) :
    Booked c.backoff (bs ++ [.scheduled (consulted (schedule_reconnect c' ret).2) ret
        (scheduled (schedule_reconnect c' ret).2) (schedule_reconnect c' ret).1.reconnect_delay_ms])
      ahead c'.reconnect_fail_count (schedule_reconnect c' ret).1.reconnect_delay_ms := by
  obtain ⟨hasked, harmed, hleft⟩ := schedule_reconnect_backs c' ret
  obtain ⟨_, _, _, _, _, _, _, _, _, _, _, _, rfl⟩ := hconfig
  exact Booked.schedule h hasked harmed hleft

theorem connection_error_counts {c : wsl_client} (msg : Option String) (hstop : c.stopping = false) :
    (connection_error c msg).1.reconnect_fail_count = c.reconnect_fail_count + 1 ∧
      (connection_error c msg).1.reconnect_delay_ms = c.reconnect_delay_ms := by
  simp [connection_error, hstop]

theorem closed_counts {c : wsl_client} (hstop : c.stopping = false) :
    (closed c).1.reconnect_fail_count = c.reconnect_fail_count + 1 ∧
      (closed c).1.reconnect_delay_ms = c.reconnect_delay_ms := by
  simp [closed, hstop]

theorem callback_accounted {w : WsiId} {a : Answer} {r : Reason} {fs : List Frame}
    (h : s.callback w a r = some (fs, s')) (hconfig : c.SameConfig s.c)
    (hacc : Accounted c.backoff bs s.c.stopping 0 s.c.reconnect_fail_count s.c.reconnect_delay_ms) :
    Accounted c.backoff (bs ++ if s.c.stopping then [] else (Event.callback w r a).notes)
      s'.c.stopping (fs.countP Frame.schedules) s'.c.reconnect_fail_count
      s'.c.reconnect_delay_ms := by
  refine hacc.unless_stopping (callback_owned h).1.stopping fun hstopping hbooked => ?_
  cases r with
  | CLIENT_ESTABLISHED =>
    cases h
    have hinit : (established s.c).1.reconnect_delay_ms = c.backoff.init_ms := by
      obtain ⟨_, _, _, _, _, _, _, _, _, _, _, _, hc⟩ := hconfig
      rw [hc]
      rfl
    rw [Sys.act_c, hinit]
    exact (hbooked.establish fun _ => rfl).accounted
  | CLIENT_CONNECTION_ERROR msg =>
    simp only [Sys.callback, Option.some.injEq, Prod.mk.injEq] at h
    obtain ⟨rfl, rfl⟩ := h
    rw [hstopping, if_neg (by simp)]
    obtain ⟨hcount, hdelay⟩ := connection_error_counts msg hstopping
    rw [Sys.act_c, hdelay]
    exact (hbooked.fail fun _ => hcount).accounted
  | CLIENT_CLOSED =>
    simp only [Sys.callback, Option.some.injEq, Prod.mk.injEq] at h
    obtain ⟨rfl, rfl⟩ := h
    rw [hstopping, if_neg (by simp)]
    obtain ⟨hcount, hdelay⟩ := closed_counts hstopping
    rw [Sys.act_c, hdelay]
    exact (hbooked.fail fun _ => hcount).accounted
  | CLIENT_WRITEABLE =>
    simp only [Sys.callback] at h
    split at h
    · cases h
      simpa [Event.notes, Frame.schedules, writeable_ping] using hbooked.accounted
    · split at h <;> cases h <;>
        simpa [Event.notes, Frame.schedules] using hbooked.accounted
  | CLIENT_RECEIVE chunk =>
    simp only [Sys.callback, Option.map_eq_some_iff, Prod.mk.injEq] at h
    obtain ⟨o, ho, rfl, rfl⟩ := h
    obtain ⟨frag, hc⟩ := receive_client ho
    split <;> simpa [Event.notes, hc] using hbooked.accounted
  | TIMER =>
    simp only [Sys.callback, Option.some.injEq, Prod.mk.injEq] at h
    obtain ⟨rfl, rfl⟩ := h
    rcases timer_client s.c a.ret with hc | hc <;> split <;>
      simpa [Event.notes, hc] using hbooked.accounted
  | WSI_DESTROY =>
    cases h
    obtain ⟨wsi, hc⟩ := wsi_destroy_client s.c w
    simpa [Event.notes, hc] using hbooked.accounted
  | CLIENT_RECEIVE_PONG | CLIENT_APPEND_HANDSHAKE_HEADER =>
    cases h
    simpa [Event.notes, receive_pong] using hbooked.accounted

theorem deliver_accounted {e : Event} {fs : List Frame} (h : s.deliver e = some (fs, s'))
    (hconfig : c.SameConfig s.c)
    (hacc : Accounted c.backoff bs s.c.stopping 0 s.c.reconnect_fail_count s.c.reconnect_delay_ms) :
    Accounted c.backoff (bs ++ if s.c.stopping then [] else e.notes)
      s'.c.stopping (fs.countP Frame.schedules) s'.c.reconnect_fail_count
      s'.c.reconnect_delay_ms := by
  have hnone : ∀ {e : Event}, e.notes = [] →
      (bs ++ if s.c.stopping then [] else e.notes) = bs := by
    intro e he
    split <;> simp [he]
  cases e with
  | callback w r a =>
    simp only [Sys.deliver, Option.ite_none_right_eq_some] at h
    exact callback_accounted h.2 hconfig hacc
  | service_thread | context_destroyed | event_wait_cancelled wsi =>
    simp only [Sys.deliver, Option.ite_none_right_eq_some, Option.some.injEq, Prod.mk.injEq] at h
    obtain ⟨_, rfl, rfl⟩ := h
    rw [hnone rfl]
    exact hacc.quiet fun hstop => ⟨hstop, rfl, fun _ => rfl, rfl⟩
  | sul_reconnect_cb =>
    simp only [Sys.deliver, Option.ite_none_right_eq_some, Option.some.injEq, Prod.mk.injEq] at h
    obtain ⟨_, rfl, rfl⟩ := h
    rw [hnone rfl]
    exact hacc.quiet fun hstop => ⟨hstop, by split <;> rfl, fun _ => rfl, rfl⟩
  | exit =>
    simp only [Sys.deliver, Option.ite_none_right_eq_some, Option.map_eq_some_iff,
      Prod.mk.injEq] at h
    obtain ⟨_, _, _, rfl, rfl⟩ := h
    rw [hnone rfl]
    exact hacc.quiet fun hstop => ⟨hstop, rfl, fun _ => rfl, rfl⟩

/-- A CONNECTION_ERROR inside a connect call comes before the call returns NULL. -/
theorem Position.connection_error_returns {msg : Option String} {rest : List Frame}
    (h : Position (.connection_error msg :: rest) s) : .connect_return false ∈ rest := by
  cases h with
  | up _ hfs _ | down hfs _ => rcases hfs with hfs | hfs | hfs <;> cases hfs
  | sending v f hfs hf _ _ =>
    cases hfs
    exact absurd hf id
  | connect hfs _ _ _ => cases hfs
  | failing gs hfs _ _ _ =>
    cases gs with
    | nil => cases hfs
    | cons g gs =>
      simp only [List.cons_append, List.cons.injEq] at hfs
      rw [hfs.2]
      simp

theorem svc_accounted {f : Frame} {a : Answer} {rest fs : List Frame} {app : Nat → List AppFrame}
    {acts : List Act} (h : s.svc f a = some (fs, s')) (hacts : s'.trace = s.trace ++ acts)
    (hok : fails_once ⟨s, f :: rest, app⟩ (.svc a) = true) (hconfig : c.SameConfig s.c)
    (hpos : Position (f :: rest) s)
    (hacc : Accounted c.backoff bs s.c.stopping ((f :: rest).countP Frame.schedules)
      s.c.reconnect_fail_count s.c.reconnect_delay_ms) :
    Accounted c.backoff
      (bs ++ if s.c.stopping then [] else f.notes a acts s'.c.reconnect_delay_ms)
      s'.c.stopping ((fs ++ rest).countP Frame.schedules) s'.c.reconnect_fail_count
      s'.c.reconnect_delay_ms := by
  refine hacc.unless_stopping (svc_owned h).1.stopping fun hstopping hbooked => ?_
  cases f with
  | do_connect =>
    obtain rfl := hpos.do_connect_alone
    simp only [Sys.svc] at h
    split at h
    · next hconnect =>
      cases h
      simpa [Frame.notes, hconnect, Frame.schedules] using hbooked.accounted
    · next error destroyed hconnect =>
      cases h
      simp only [fails_once, hconnect, hstopping, Bool.false_or, Bool.and_eq_true,
        Option.isNone_iff_eq_none, Bool.not_eq_true'] at hok
      obtain ⟨rfl, hasks⟩ := hok
      have hhook : c.backoff.hook = false := hconfig.asks.symm.trans hasks
      have hfailed : Booked c.backoff (bs ++ [.failure]) 1 s.c.reconnect_fail_count
          s.c.reconnect_delay_ms := hbooked.fail (by simp [hhook])
      simp only [Frame.notes, hconnect]
      cases destroyed <;> exact hfailed.accounted
  | connection_error msg =>
    -- The failure of the call would be scheduled twice.
    obtain ⟨x, _, hahead, _⟩ := hbooked
    have htwice : 0 < rest.countP Frame.schedules :=
      List.countP_pos_iff.mpr ⟨_, hpos.connection_error_returns, rfl⟩
    have hone := Bool.toNat_le x.due
    rw [List.countP_cons_of_pos rfl] at hahead
    omega
  | connect_return connected =>
    cases connected with
    | true =>
      cases h
      simpa [Frame.notes, Frame.schedules] using hbooked.accounted
    | false =>
      cases h
      have hsame : (.schedule_reconnect :: rest).countP Frame.schedules =
          (.connect_return false :: rest).countP Frame.schedules := by
        rw [List.countP_cons_of_pos rfl, List.countP_cons_of_pos rfl]
      rw [← hsame] at hbooked
      simpa [Frame.notes] using hbooked.accounted
  | schedule_reconnect =>
    cases h
    obtain rfl := List.append_cancel_left hacts
    rw [List.countP_cons_of_pos rfl] at hbooked
    obtain ⟨_, _, _, hc, _⟩ := schedule_reconnect_client s.c a.ret
    have hcount : (schedule_reconnect s.c a.ret).1.reconnect_fail_count =
        s.c.reconnect_fail_count := by rw [hc]
    have hscheduled := Booked.schedules hbooked hconfig a.ret
    simpa [Frame.notes, hcount] using hscheduled.accounted
  | write w n =>
    simp only [Sys.svc] at h
    split at h <;> cases h <;>
      simpa [Frame.notes, Frame.schedules] using hbooked.accounted
  | q_head_check =>
    cases h
    cases s.c.q.has_data <;> simpa [Frame.notes, Frame.schedules] using hbooked.accounted
  | wsi_destroy w =>
    cases h
    obtain ⟨wsi, hc⟩ := wsi_destroy_client s.c w
    simpa [Frame.notes, Frame.schedules, hc] using hbooked.accounted
  | lws_callback_on_writable | event_wait_cancelled =>
    cases h
    simpa [Frame.notes, Frame.schedules] using hbooked.accounted

/-- Only a start ends the stopping of a client, and no API call touches
    `reconnect_fail_count` or the delay. -/
theorem app_keeps_count {f : AppFrame} {a : Answer} {fs : List AppFrame}
    (h : s.app f a = some (fs, s')) :
    (f ≠ .start_thread → s'.c.stopping = false → s.c.stopping = false) ∧
      s'.c.reconnect_fail_count = s.c.reconnect_fail_count ∧
      s'.c.reconnect_delay_ms = s.c.reconnect_delay_ms := by
  cases f with
  | enqueue_msg data is_binary =>
    cases data <;> cases h <;> exact ⟨fun _ => id, rfl, rfl⟩
  | enqueue_msg_locked data is_binary =>
    simp only [Sys.app, Option.some.injEq, Prod.mk.injEq] at h
    obtain ⟨_, rfl⟩ := h
    rcases enqueue_msg_locked_spec s.c data is_binary a.ok with ⟨n, heq, _⟩ | heq <;> rw [heq] <;>
      exact ⟨fun _ => id, rfl, rfl⟩
  | wsl_start =>
    simp only [Sys.app] at h
    split at h
    · cases h
      exact ⟨fun _ => id, rfl, rfl⟩
    · split at h <;> cases h <;> exact ⟨fun _ => id, rfl, rfl⟩
  | start_thread =>
    simp only [Sys.app] at h
    split at h <;> cases h <;> exact ⟨fun hne => absurd rfl hne, rfl, rfl⟩
  | wsl_stop =>
    simp only [Sys.app] at h
    split at h <;> cases h
    · exact ⟨fun _ hstop => (by cases hstop), rfl, rfl⟩
    · exact ⟨fun _ => id, rfl, rfl⟩
  | stop_context =>
    simp only [Sys.app] at h
    split at h <;> cases h <;> exact ⟨fun _ => id, rfl, rfl⟩
  | stop_join | stop_context_destroyed =>
    simp only [Sys.app, Option.ite_none_right_eq_some, Option.some.injEq, Prod.mk.injEq] at h
    obtain ⟨_, _, rfl⟩ := h
    exact ⟨fun _ => id, rfl, rfl⟩
  | enqueue_msg_wake | lws_cancel_service | start_return | stop_cancel | stop_return | wsl_destroy =>
    cases h
    exact ⟨fun _ => id, rfl, rfl⟩

theorem step_accounted {cfg cfg' : Config} {l : Label} (hmove : system.Moves cfg l cfg')
    (hlife : Lifecycle cfg) (hconn : Conn cfg.svc cfg.shared) (hconfig : c.SameConfig cfg.shared.c)
    (hok : fails_once cfg l = true)
    (h : Accounted c.backoff bs cfg.shared.c.stopping (cfg.svc.countP Frame.schedules)
      cfg.shared.c.reconnect_fail_count cfg.shared.c.reconnect_delay_ms) :
    Accounted c.backoff (bs ++ notes cfg l) cfg'.shared.c.stopping (cfg'.svc.countP Frame.schedules)
      cfg'.shared.c.reconnect_fail_count cfg'.shared.c.reconnect_delay_ms := by
  have hstep := hmove.step
  unfold notes
  rw [hmove.after]
  cases hmove with
  | event hdeliver => exact deliver_accounted hdeliver hconfig h
  | svc hsvc =>
    obtain ⟨_, _, _, _, acts, hacts, _⟩ := svc_spec hsvc
    dsimp only
    rw [calls_eq hstep hacts]
    exact svc_accounted hsvc hacts hok hconfig (hconn.running (hlife.busy (by simp))) h
  | call _ _ => simpa using h
  | @app t f a s s' svc app rest fs htop happ =>
    obtain ⟨hstop, hcount, hdelay⟩ := app_keeps_count happ
    dsimp only at h hconfig ⊢
    rw [hcount]
    by_cases hf : f = .start_thread
    · -- The service thread is not running yet.
      subst hf
      have hidle : svc = [] := by
        by_contra hne
        have hrun := hlife.busy hne
        obtain rfl := hlife.rest_nil htop
        rcases hlife.frame htop with hsends | ⟨hthread, _⟩
        · cases hsends
        · rw [hthread] at hrun
          cases hrun
      subst hidle
      rw [if_pos (by simp [htop])]
      refine (Booked.start h.sound fun hasks => ?_).accounted
      have hhook : s.c.asks = true := hconfig.asks.trans hasks
      simpa [fails_once, htop, hhook] using hok
    · rw [if_neg (by cases f <;> first | exact absurd rfl hf | simp [htop]), List.append_nil]
      exact h.quiet fun hafter => ⟨hstop hf hafter, rfl, fun _ => rfl, hdelay⟩

variable {ok : Config → Label → Prop} {ls : List Label} {cfg : Config}

/-- No step of a run changes the configuration. -/
theorem Reaches.same_config (h : system.Reaches ok (initial c) cfg) : c.SameConfig cfg.shared.c := by
  refine h.invariant (I := fun cfg => c.SameConfig cfg.shared.c) (.refl c)
    fun cfg l cfg' _ hmove hbefore => ?_
  cases hmove with
  | event hdeliver => exact hbefore.trans (deliver_spec hdeliver).1
  | svc hsvc => exact hbefore.trans (svc_spec hsvc).1
  | call _ _ => exact hbefore
  | app _ happ => exact hbefore.trans (app_spec happ).1

theorem Follows.accounted (hc : c.Fresh)
    (h : system.Follows (fun cfg l => fails_once cfg l = true) (initial c) ls cfg) :
    Accounted c.backoff (system.observe notes (initial c) ls) cfg.shared.c.stopping
      (cfg.svc.countP Frame.schedules) cfg.shared.c.reconnect_fail_count
      cfg.shared.c.reconnect_delay_ms := by
  refine h.observed
    (J := fun cfg => Lifecycle cfg ∧ Conn cfg.svc cfg.shared ∧ c.SameConfig cfg.shared.c)
    (I := fun bs cfg => Accounted c.backoff bs cfg.shared.c.stopping
      (cfg.svc.countP Frame.schedules) cfg.shared.c.reconnect_fail_count
      cfg.shared.c.reconnect_delay_ms)
    (fun mid hmid => ?_) (Booked.initial fun _ => hc.fail_count).accounted
    fun bs cfg l cfg' ⟨hlife, hconn, hconfig⟩ hok hmove hbefore =>
      step_accounted hmove hlife hconn hconfig hok hbefore
  have hreach : Reachable mid := ⟨c, hc, hmid.mono fun _ _ _ => trivial⟩
  exact ⟨hreach.lifecycle, hreach.conn, Reaches.same_config hmid⟩

/-- Between two callbacks of a client that is not stopping, every failure so far
    has had its one `schedule_reconnect`, the hook was asked once in it with the
    number of failures, and the delay is where these have taken it. -/
theorem decided_once (hc : c.Fresh)
    (h : system.Follows (fun cfg l => fails_once cfg l = true) (initial c) ls cfg)
    (hstop : cfg.shared.c.stopping = false) (hidle : cfg.svc = []) :
    ∃ failures, ledger c.backoff (system.observe notes (initial c) ls) =
      some { failures, due := false, delay_ms := cfg.shared.c.reconnect_delay_ms } := by
  have hbooked := (Follows.accounted hc h).booked hstop
  rw [hidle] at hbooked
  obtain ⟨failures, hledger, _⟩ := hbooked.settled
  exact ⟨failures, hledger⟩

/-- A first attempt that fails with a CONNECTION_ERROR inside the call. -/
def nested_error_run : List Label :=
  [.call 0 .wsl_start, .app 0 {}, .app 0 {}, .app 0 {}, .event .service_thread,
    .svc { connect := .refused (some none) true }, .svc {}, .svc {}, .svc {}, .svc {}, .svc {}]

/-- A first attempt that returns NULL without one. -/
def null_run : List Label :=
  [.call 0 .wsl_start, .app 0 {}, .app 0 {}, .app 0 {}, .event .service_thread, .svc {}, .svc {},
    .svc {}]

/-- A connection that is lost, and an attempt that is lost before ESTABLISHED. -/
def lost_run : List Label :=
  connected_run ++ [.event (.callback 0 .CLIENT_CLOSED {}), .svc { ret := 250 },
    .event .sul_reconnect_cb, .svc { connect := .accepted }, .svc {},
    .event (.callback 1 (.CLIENT_CONNECTION_ERROR none) {}), .svc { ret := 250 }]

/-- A client with `on_reconnect_decision` set. -/
def asking_client : wsl_client :=
  wsl_set_event_hooks (wsl_create "localhost" 9000 none true) (some decision_hook)

theorem asking_client_fresh : asking_client.Fresh := by
  constructor <;> rfl

end lws_client.ws_client_v2
