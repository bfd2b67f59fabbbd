import LwsClientDemo.Backoff
import LwsClientDemo.WsClient.Decisions

open interleaving

namespace lws_client.ws_client

/-- What a run shows of the reconnect timing: a start, an ESTABLISHED, a failure
    with the time it is handled at, and an iteration of the service loop that
    calls `do_connect`, with its `ms_now()`. -/
inductive Turn where
  | started
  | established
  | failure (now : Int)
  | do_connect (now : Int)
  deriving DecidableEq

/-- The end of a connection of a stopping client is no failure: its handler
    schedules nothing. -/
def turns (cfg : Config) : Label → List Turn
  | .event (.callback _ .CLIENT_ESTABLISHED _) => [.established]
  | .event (.callback _ (.CLIENT_CONNECTION_ERROR _) a) | .event (.callback _ .CLIENT_CLOSED a) =>
    if cfg.shared.c.stopping then [] else [.failure a.now]
  | .event (.poll now) => [.do_connect now]
  | .svc a => if cfg.svc.head?.any (fun f => f matches .connect_return none) then [.failure a.now] else []
  | .app t _ => if (cfg.app t).head?.any (fun f => f matches .start_thread) then [.started] else []
  | _ => []

/-- The failures in a row, since the beginning or the last ESTABLISHED. -/
def streak (ts : List Turn) : Nat :=
  ts.foldl (fun k t =>
    match t with
    | .established => 0
    | .failure _ => k + 1
    | .started | .do_connect _ => k) 0

theorem streak_snoc (ts : List Turn) (t : Turn) : streak (ts ++ [t]) =
    match t with
    | .established => 0
    | .failure _ => streak ts + 1
    | .started | .do_connect _ => streak ts := by
  simp [streak]

/-- The iteration of the service loop at `now` calls `do_connect`. -/
def Reconnects (cfg : Config) (now : Int) : Prop :=
  ∃ next, system.step cfg (.event (.poll now)) = some next ∧ next.svc = [.do_connect]

variable {init_ms max_ms : Int} {ts : List Turn} {s s' : Sys} {stack stack' : List Frame}

/-- The test of the service loop. -/
theorem reconnects_iff {cfg : Config} {now : Int} (hrun : cfg.shared.thread = .running)
    (hidle : cfg.svc = []) (hstop : cfg.shared.c.stopping = false) : Reconnects cfg now ↔
      cfg.shared.c.state = .STATE_RECONNECT_WAIT ∧ reconnect_due cfg.shared.c ≤ now := by
  obtain ⟨s, svc, app⟩ := cfg
  subst hidle
  simp only [Reconnects, System.step, system, Sys.deliver]
  constructor
  · rintro ⟨next, hstep, _⟩
    simp only [Option.map_eq_some_iff, Option.ite_none_right_eq_some] at hstep
    obtain ⟨_, ⟨⟨_, _, hstate, hnow⟩, _⟩, _⟩ := hstep
    exact ⟨hstate, hnow⟩
  · rintro ⟨hstate, hnow⟩
    refine ⟨⟨s, [.do_connect], app⟩, ?_, rfl⟩
    simp only [Option.map_eq_some_iff]
    exact ⟨_, if_pos ⟨hrun, by simpa using hstop, hstate, hnow⟩, rfl⟩

/-- The turns end with a failure exactly while its reconnect is to come, and
    `reconnect_at` is its deadline; every reconnect so far answered the failure
    right before it, and not before the deadline. -/
structure Timed (init_ms max_ms : Int) (ts : List Turn) (stack : List Frame) (s : Sys) : Prop where
  init : s.c.reconnect_init_ms = init_ms
  max : s.c.reconnect_max_ms = max_ms
  delay : s.c.reconnect_delay_ms = capped init_ms max_ms (streak ts)
  waiting : ∀ before now, ts = before ++ [.failure now] →
    s.c.state = .STATE_RECONNECT_WAIT ∧ .do_connect ∉ stack ∧
      reconnect_due s.c = now + capped init_ms max_ms (streak before)
  due : s.c.state = .STATE_RECONNECT_WAIT → .do_connect ∉ stack →
    ∃ before now, ts = before ++ [.failure now]
  nested : ∀ msg, .connection_error msg ∈ stack → s.c.stopping = true
  called : ∀ before now after, ts = before ++ .do_connect now :: after →
    ∃ mid at_ms, before = mid ++ [.failure at_ms] ∧ at_ms + capped init_ms max_ms (streak mid) ≤ now

/-- The fields of the reconnect timing are the same. -/
structure SameWait (c c' : wsld_client) : Prop where
  init : c'.reconnect_init_ms = c.reconnect_init_ms
  max : c'.reconnect_max_ms = c.reconnect_max_ms
  delay : c'.reconnect_delay_ms = c.reconnect_delay_ms
  reconnect_at : c'.reconnect_at = c.reconnect_at
  state : c'.state = c.state

theorem SameWait.refl (c : wsld_client) : SameWait c c := ⟨rfl, rfl, rfl, rfl, rfl⟩

theorem SameWait.due {c c' : wsld_client} (h : SameWait c c') : reconnect_due c' = reconnect_due c := by
  rw [reconnect_due, reconnect_due, h.reconnect_at]

theorem SameWait.wsi_destroy (c : wsld_client) (w : WsiId) : SameWait c (wsi_destroy c w) := by
  obtain ⟨_, hc⟩ := wsi_destroy_client c w
  rw [hc]
  exact ⟨rfl, rfl, rfl, rfl, rfl⟩

/-- A connection of a stopping client ends without a word about the next. -/
theorem SameWait.closed {c : wsld_client} (hstop : c.stopping = true) (now : Int) :
    SameWait c (closed c now) := by
  simp only [ws_client.closed, hstop, if_true]
  exact ⟨rfl, rfl, rfl, rfl, rfl⟩

theorem Timed.quiet (h : Timed init_ms max_ms ts stack s) (hsame : SameWait s.c s'.c)
    (hnested : ∀ msg, .connection_error msg ∈ stack' → s'.c.stopping = true)
    (hcalls : .do_connect ∈ stack' ↔ .do_connect ∈ stack) : Timed init_ms max_ms ts stack' s' := by
  refine ⟨hsame.init.trans h.init, hsame.max.trans h.max, hsame.delay.trans h.delay,
    fun before now hts => ?_, fun hstate hnot => ?_, hnested, h.called⟩
  · obtain ⟨hstate, hnot, hdue⟩ := h.waiting before now hts
    exact ⟨hsame.state.trans hstate, fun hmem => hnot (hcalls.mp hmem), hsame.due.trans hdue⟩
  · exact h.due (hsame.state.symm.trans hstate) fun hmem => hnot (hcalls.mpr hmem)

/-- A turn other than a reconnect leaves the reconnects so far. -/
theorem called_snoc {p : List Turn → Int → Prop} {t : Turn}
    (h : ∀ before now after, ts = before ++ .do_connect now :: after → p before now)
    (ht : ∀ now, t = .do_connect now → p ts now) :
    ∀ before now after, ts ++ [t] = before ++ .do_connect now :: after → p before now := by
  intro before now after hts
  rcases List.eq_nil_or_concat after with rfl | ⟨rest, last, rfl⟩
  · obtain ⟨rfl, hlast⟩ := List.append_inj' hts rfl
    exact ht now (List.singleton_inj.mp hlast)
  · have hsplit : ts ++ [t] = (before ++ .do_connect now :: rest) ++ [last] := by simpa using hts
    exact h before now rest (List.append_inj' hsplit rfl).1

/-- After a turn that is no failure none is waited for. -/
theorem not_failure_snoc {t : Turn} (ht : ∀ now, t ≠ .failure now) (before : List Turn) (now : Int) :
    ts ++ [t] ≠ before ++ [.failure now] := by
  intro hts
  exact ht now (List.singleton_inj.mp (List.append_inj' hts rfl).2)

section doubling

variable (hpos : 0 < init_ms) (hmax : init_ms ≤ max_ms) (hint : 2 * max_ms ≤ INT_MAX)

include hpos hmax hint

/-- A failure sets `reconnect_at` and doubles the next delay. -/
theorem Timed.fail {now : Int} {c : wsld_client} (h : Timed init_ms max_ms ts stack s)
    (hsame : SameWait s.c c) (hc : s'.c = schedule_reconnect c now)
    (hnested : ∀ msg, .connection_error msg ∈ stack' → s'.c.stopping = true)
    (hcalls : .do_connect ∉ stack') : Timed init_ms max_ms (ts ++ [.failure now]) stack' s' := by
  have hdelay : c.reconnect_delay_ms = capped init_ms max_ms (streak ts) := hsame.delay.trans h.delay
  have hmax' : c.reconnect_max_ms = max_ms := hsame.max.trans h.max
  refine ⟨?_, ?_, ?_, fun before at_ms hts => ?_, fun _ _ => ⟨ts, now, rfl⟩, hnested,
    called_snoc h.called fun _ ht => by cases ht⟩
  · rw [hc]
    exact hsame.init.trans h.init
  · rw [hc]
    exact hmax'
  · rw [hc, streak_snoc]
    simp only [schedule_reconnect, hdelay, hmax']
    exact capped_doubled hpos hmax hint _
  · obtain ⟨rfl, hlast⟩ := List.append_inj' hts rfl
    cases hlast
    rw [hc]
    exact ⟨rfl, hcalls, by rw [reconnect_due_schedule, hdelay]⟩

end doubling

/-- ESTABLISHED starts the count again. -/
theorem Timed.establish (h : Timed init_ms max_ms ts stack s) (hmax : init_ms ≤ max_ms) {w : WsiId}
    (hc : s'.c = (established s.c w).1)
    (hnested : ∀ msg, .connection_error msg ∈ stack' → s'.c.stopping = true) :
    Timed init_ms max_ms (ts ++ [.established]) stack' s' := by
  refine ⟨?_, ?_, ?_, fun before now hts => ?_, fun hstate _ => ?_, hnested,
    called_snoc h.called fun _ ht => by cases ht⟩
  · rw [hc]
    exact h.init
  · rw [hc]
    exact h.max
  · rw [hc, streak_snoc]
    exact h.init.trans (capped_zero hmax).symm
  · exact absurd hts (not_failure_snoc (by simp) before now)
  · rw [hc] at hstate
    cases hstate

/-- A start drops a reconnect that a stop has left undone, and keeps the delay. -/
theorem Timed.start (h : Timed init_ms max_ms ts stack s)
    (hinit : s'.c.reconnect_init_ms = s.c.reconnect_init_ms)
    (hmax : s'.c.reconnect_max_ms = s.c.reconnect_max_ms)
    (hdelay : s'.c.reconnect_delay_ms = s.c.reconnect_delay_ms) (hstate : s'.c.state = .STATE_IDLE) :
    Timed init_ms max_ms (ts ++ [.started]) [] s' := by
  refine ⟨hinit.trans h.init, hmax.trans h.max, ?_, fun before now hts => ?_, fun hwait _ => ?_,
    fun _ hmem => (by cases hmem), called_snoc h.called fun _ ht => by cases ht⟩
  · rw [streak_snoc]
    exact hdelay.trans h.delay
  · exact absurd hts (not_failure_snoc (by simp) before now)
  · rw [hstate] at hwait
    cases hwait

/-- The loop reconnects when the deadline of the last turn, a failure, has come. -/
theorem Timed.call {now : Int} (h : Timed init_ms max_ms ts [] s)
    (hstate : s.c.state = .STATE_RECONNECT_WAIT) (hnow : now ≥ reconnect_due s.c) :
    Timed init_ms max_ms (ts ++ [.do_connect now]) [.do_connect] s := by
  refine ⟨h.init, h.max, ?_, fun before at_ms hts => ?_, fun _ hnot => ?_,
    fun _ hmem => (by simp at hmem), called_snoc h.called fun at_ms ht => ?_⟩
  · rw [streak_snoc]
    exact h.delay
  · exact absurd hts (not_failure_snoc (by simp) before at_ms)
  · exact absurd List.mem_cons_self hnot
  · cases ht
    obtain ⟨mid, failed_at, hts⟩ := h.due hstate (by simp)
    refine ⟨mid, failed_at, hts, ?_⟩
    rw [← (h.waiting mid failed_at hts).2.2]
    exact hnow

/-- A connect call that fails returns last, to the service loop. -/
theorem Position.return_alone {rest : List Frame} (h : Position (.connect_return none :: rest) s) :
    rest = [] := by
  cases h with
  | up _ hfs _ | down hfs _ => rcases hfs with hfs | hfs <;> cases hfs
  | sending v f hfs hf _ _ =>
    cases hfs
    exact absurd hf id
  | accepted _ hfs _ _ _ | connect hfs _ _ => cases hfs
  | failing gs hfs hgs _ _ =>
    cases gs with
    | nil =>
      cases hfs
      rfl
    | cons g gs =>
      simp only [List.cons_append, List.cons.injEq] at hfs
      have hg := hgs g (by simp)
      rw [← hfs.1] at hg
      cases hg

/-- A connect call is made while no connection is live. -/
theorem Position.connect_dead (h : Position stack s) (hmem : .do_connect ∈ stack) : s.NoLive := by
  cases h with
  | up _ hfs _ | down hfs _ => rcases hfs with rfl | rfl <;> simp at hmem
  | sending v f hfs hf _ _ =>
    subst hfs
    obtain rfl := List.mem_singleton.mp hmem
    exact absurd hf id
  | accepted _ hfs _ _ _ =>
    subst hfs
    simp at hmem
  | connect _ hnone _ => exact hnone
  | failing gs hfs hgs hnone _ => exact hnone

/-- Frames that neither connect nor report an error. -/
def Frame.calm : Frame → Bool
  | .do_connect | .connection_error _ => false
  | _ => true

theorem calm_not_mem {fs : List Frame} (h : ∀ f ∈ fs, f.calm = true) :
    .do_connect ∉ fs ∧ ∀ msg, .connection_error msg ∉ fs :=
  ⟨fun hmem => (by cases h _ hmem), fun _ hmem => (by cases h _ hmem)⟩

section doubling

variable (hpos : 0 < init_ms) (hmax : init_ms ≤ max_ms) (hint : 2 * max_ms ≤ INT_MAX)

include hpos hmax hint

theorem Timed.callback {w : WsiId} {a : Answer} {r : Reason} {fs : List Frame}
    {app : Nat → List AppFrame} (hcall : s.callback w a r = some (fs, s'))
    (h : Timed init_ms max_ms ts [] s) :
    Timed init_ms max_ms (ts ++ turns ⟨s, [], app⟩ (.event (.callback w r a))) fs s' := by
  have hquiet : ∀ {s' : Sys}, SameWait s.c s'.c → Timed init_ms max_ms (ts ++ []) [] s' := by
    intro s' hsame
    rw [List.append_nil]
    exact h.quiet hsame (fun _ hmem => (by cases hmem)) Iff.rfl
  cases r with
  | CLIENT_ESTABLISHED =>
    cases hcall
    exact h.establish hmax rfl fun _ hmem => (by cases hmem)
  | CLIENT_RECEIVE chunk =>
    simp only [Sys.callback, Option.map_eq_some_iff, Prod.mk.injEq] at hcall
    obtain ⟨o, ho, rfl, rfl⟩ := hcall
    obtain ⟨frag, hc⟩ := receive_client ho
    refine hquiet ?_
    split <;> exact ⟨by simp [hc], by simp [hc], by simp [hc], by simp [hc], by simp [hc]⟩
  | CLIENT_WRITEABLE =>
    have hsends : ∀ {s' : Sys} {fs : List Frame}, SameWait s.c s'.c → (∀ f ∈ fs, f.calm = true) →
        Timed init_ms max_ms (ts ++ []) fs s' := by
      intro s' fs hsame hcalm
      rw [List.append_nil]
      obtain ⟨hconnect, herror⟩ := calm_not_mem hcalm
      exact h.quiet hsame (fun msg hmem => absurd hmem (herror msg))
        ⟨fun hmem => absurd hmem hconnect, fun hmem => (by cases hmem)⟩
    simp only [Sys.callback] at hcall
    split at hcall
    · cases hcall
      exact hsends ⟨rfl, rfl, rfl, rfl, rfl⟩ (by simp [Frame.calm])
    · split at hcall <;> cases hcall <;>
        exact hsends ⟨rfl, rfl, rfl, rfl, rfl⟩ (by simp [Frame.calm])
  | TIMER =>
    obtain ⟨send_ping, hc⟩ := timer_client s.c w
    simp only [Sys.callback, Option.some.injEq, Prod.mk.injEq] at hcall
    obtain ⟨rfl, rfl⟩ := hcall
    refine hquiet ?_
    split <;> exact ⟨by simp [hc], by simp [hc], by simp [hc], by simp [hc], by simp [hc]⟩
  | CLIENT_CONNECTION_ERROR _ | CLIENT_CLOSED =>
    cases hcall
    cases hstop : s.c.stopping with
    | true =>
      simp only [turns, hstop, if_true]
      exact hquiet (.closed hstop a.now)
    | false =>
      simp only [turns, hstop, Bool.false_eq_true, if_false]
      refine h.fail hpos hmax hint (c := { s.c with wsi := none }) ⟨rfl, rfl, rfl, rfl, rfl⟩ ?_
        (fun _ hmem => (by cases hmem)) (by simp)
      simp [ws_client.closed, hstop]
  | WSI_DESTROY =>
    cases hcall
    exact hquiet (.wsi_destroy s.c w)
  | CLIENT_RECEIVE_PONG | CLIENT_APPEND_HANDSHAKE_HEADER =>
    cases hcall
    exact hquiet ⟨rfl, rfl, rfl, rfl, rfl⟩

theorem Timed.deliver {e : Event} {fs : List Frame} {app : Nat → List AppFrame}
    (hdeliver : s.deliver e = some (fs, s')) (hconn : Conn [] s)
    (h : Timed init_ms max_ms ts [] s) :
    Timed init_ms max_ms (ts ++ turns ⟨s, [], app⟩ (.event e)) fs s' := by
  cases e with
  | callback w r a =>
    simp only [Sys.deliver, Option.ite_none_right_eq_some] at hdeliver
    exact h.callback hpos hmax hint hdeliver.2
  | service_thread =>
    simp only [Sys.deliver, Option.ite_none_right_eq_some, Option.some.injEq, Prod.mk.injEq] at hdeliver
    obtain ⟨hthread, rfl, rfl⟩ := hdeliver
    -- A created thread starts from IDLE, so no reconnect is waited for.
    have hidle := (hconn.created hthread).2
    simp only [turns, List.append_nil]
    refine ⟨h.init, h.max, h.delay, fun before now hts => ?_, fun hstate _ => ?_,
      fun _ hmem => (by simp at hmem), h.called⟩
    · have hstate := (h.waiting before now hts).1
      rw [hidle] at hstate
      cases hstate
    · simp only [hidle] at hstate
      cases hstate
  | poll now =>
    simp only [Sys.deliver, Option.ite_none_right_eq_some, Option.some.injEq, Prod.mk.injEq] at hdeliver
    obtain ⟨⟨_, _, hstate, hnow⟩, rfl, rfl⟩ := hdeliver
    exact h.call hstate hnow
  | event_wait_cancelled wsi =>
    simp only [Sys.deliver, Option.ite_none_right_eq_some, Option.some.injEq, Prod.mk.injEq] at hdeliver
    obtain ⟨_, rfl, rfl⟩ := hdeliver
    simp only [turns, List.append_nil]
    refine h.quiet (.refl _) (fun _ hmem => ?_) ⟨fun hmem => ?_, fun hmem => (by cases hmem)⟩ <;>
      split at hmem <;> simp at hmem
  | exit =>
    simp only [Sys.deliver, Option.ite_none_right_eq_some, Option.map_eq_some_iff,
      Prod.mk.injEq] at hdeliver
    obtain ⟨_, ⟨freed, q⟩, _, rfl, rfl⟩ := hdeliver
    simp only [turns, List.append_nil]
    exact h.quiet ⟨rfl, rfl, rfl, rfl, rfl⟩ (fun _ hmem => (by cases hmem)) Iff.rfl
  | context_destroyed =>
    simp only [Sys.deliver, Option.ite_none_right_eq_some, Option.some.injEq, Prod.mk.injEq] at hdeliver
    obtain ⟨_, rfl, rfl⟩ := hdeliver
    simp only [turns, List.append_nil]
    exact h.quiet (.refl _) (fun _ hmem => (by cases hmem)) Iff.rfl

theorem Timed.svc {f : Frame} {a : Answer} {rest fs : List Frame} {app : Nat → List AppFrame}
    (hsvc : s.svc f a = some (fs, s')) (hok : fails_once ⟨s, f :: rest, app⟩ (.svc a) = true)
    (hposition : Position (f :: rest) s) (h : Timed init_ms max_ms ts (f :: rest) s) :
    Timed init_ms max_ms (ts ++ turns ⟨s, f :: rest, app⟩ (.svc a)) (fs ++ rest) s' := by
  have hstop := (svc_owned hsvc).1.stopping
  have hrest : ∀ msg, .connection_error msg ∈ rest → s.c.stopping = true :=
    fun msg hmem => h.nested msg (List.mem_cons_of_mem _ hmem)
  have hquiet : ∀ {s' : Sys} {fs : List Frame}, f ≠ .do_connect → SameWait s.c s'.c →
      s'.c.stopping = s.c.stopping → (∀ g ∈ fs, g.calm = true) →
        Timed init_ms max_ms (ts ++ []) (fs ++ rest) s' := by
    intro s' fs hf hsame hstop hcalm
    rw [List.append_nil]
    obtain ⟨hconnect, herror⟩ := calm_not_mem hcalm
    refine h.quiet hsame (fun msg hmem => ?_) ?_
    · rcases List.mem_append.mp hmem with hmem | hmem
      · exact absurd hmem (herror msg)
      · exact hstop.trans (hrest msg hmem)
    · simp [hconnect, hf.symm]
  cases f with
  | do_connect =>
    obtain rfl := hposition.do_connect_alone
    have hnone : ∀ before now, ts ≠ before ++ [.failure now] := fun before now hts =>
      (h.waiting before now hts).2.1 List.mem_cons_self
    have hconnecting : ∀ {s' : Sys} {fs : List Frame}, SameWait { s.c with state := .STATE_CONNECTING } s'.c →
        (∀ msg, .connection_error msg ∈ fs → s'.c.stopping = true) →
          Timed init_ms max_ms (ts ++ []) (fs ++ []) s' := by
      intro s' fs hsame hnested
      rw [List.append_nil, List.append_nil]
      refine ⟨hsame.init.trans h.init, hsame.max.trans h.max, hsame.delay.trans h.delay,
        fun before now hts => absurd hts (hnone before now), fun hstate _ => ?_, hnested, h.called⟩
      rw [hsame.state] at hstate
      cases hstate
    simp only [Sys.svc] at hsvc
    split at hsvc
    · cases hsvc
      exact hconnecting (.refl _) (by simp)
    · next error destroyed hconnect =>
      cases hsvc
      refine hconnecting (.refl _) fun msg hmem => ?_
      -- Only a stopping client gets a CONNECTION_ERROR inside the call.
      cases error with
      | none => cases destroyed <;> simp at hmem
      | some msg => simpa [fails_once, hconnect] using hok
  | connection_error msg =>
    cases hsvc
    exact hquiet (by simp) (.closed (h.nested msg List.mem_cons_self) a.now) hstop (by simp)
  | connect_return wsi =>
    cases wsi with
    | some w =>
      cases hsvc
      exact hquiet (by simp) ⟨rfl, rfl, rfl, rfl, rfl⟩ hstop (by simp)
    | none =>
      obtain rfl := hposition.return_alone
      cases hsvc
      exact h.fail hpos hmax hint (c := { s.c with wsi := none }) ⟨rfl, rfl, rfl, rfl, rfl⟩ rfl
        (fun _ hmem => (by cases hmem)) (by simp)
  | wsi_destroy w =>
    cases hsvc
    exact hquiet (by simp) (.wsi_destroy s.c w) hstop (by simp)
  | has_data_check w =>
    cases hsvc
    exact hquiet (by simp) (.refl _) rfl (by cases s.c.q.has_data <;> simp [Frame.calm])
  | lws_callback_on_writable w =>
    cases hsvc
    exact hquiet (by simp) (.refl _) rfl (by simp)
  | write w n more =>
    simp only [Sys.svc] at hsvc
    split at hsvc
    · cases hsvc
      exact hquiet (by simp) (.refl _) rfl (by simp)
    · cases hsvc
      exact hquiet (by simp) (.refl _) rfl (by cases more <;> simp [Frame.calm])
  | event_wait_cancelled =>
    cases hsvc
    exact hquiet (by simp) (.refl _) rfl
      (by cases event_wait_cancelled s.c <;> simp [Frame.calm])

end doubling

theorem wsld_client.Fresh.set_reconnect {c : wsld_client} (h : c.Fresh) (init_ms max_ms : Int) :
    (wsld_set_reconnect c init_ms max_ms).Fresh :=
  ⟨h.ctx, h.wsi, h.thread_started, h.stopping, h.state, h.send_ping, h.ping_pending, h.q, h.frag⟩

/-- Calls of the owner and of the senders, a start apart, leave the timing, and
    the stopping of a client that an error is still to be reported to. -/
theorem app_wait {f : AppFrame} {a : Answer} {fs : List AppFrame} (happ : s.app f a = some (fs, s'))
    (hf : f ≠ .start_thread) :
    SameWait s.c s'.c ∧ (s.c.stopping = true → s'.c.stopping = true) := by
  cases f with
  | start_thread => exact absurd rfl hf
  | enqueue data is_binary => cases data <;> cases happ <;> exact ⟨.refl _, id⟩
  | enqueue_locked data is_binary =>
    simp only [Sys.app, Option.some.injEq, Prod.mk.injEq] at happ
    obtain ⟨_, rfl⟩ := happ
    rcases enqueue_locked_spec s.c data is_binary a.ok with ⟨n, heq, _⟩ | heq <;>
      rw [Sys.act_c, heq] <;> exact ⟨⟨rfl, rfl, rfl, rfl, rfl⟩, id⟩
  | wsld_start | wsld_stop | stop_context =>
    simp only [Sys.app] at happ
    split at happ <;> cases happ <;>
      first | exact ⟨⟨rfl, rfl, rfl, rfl, rfl⟩, id⟩ | exact ⟨⟨rfl, rfl, rfl, rfl, rfl⟩, fun _ => rfl⟩
  | stop_join | stop_context_destroyed =>
    simp only [Sys.app, Option.ite_none_right_eq_some, Option.some.injEq, Prod.mk.injEq] at happ
    obtain ⟨_, _, rfl⟩ := happ
    exact ⟨⟨rfl, rfl, rfl, rfl, rfl⟩, id⟩
  | wsld_destroy =>
    simp only [Sys.app, Option.map_eq_some_iff, Prod.mk.injEq] at happ
    obtain ⟨_, _, _, rfl⟩ := happ
    exact ⟨.refl _, id⟩
  | enqueue_wake | lws_cancel_service | start_return | stop_cancel =>
    cases happ
    exact ⟨⟨rfl, rfl, rfl, rfl, rfl⟩, id⟩

section doubling

variable (hpos : 0 < init_ms) (hmax : init_ms ≤ max_ms) (hint : 2 * max_ms ≤ INT_MAX)

include hpos hmax hint

theorem Timed.step {cfg cfg' : Config} {l : Label} (hmove : system.Moves cfg l cfg')
    (hlife : Lifecycle cfg) (hconn : Conn cfg.svc cfg.shared) (hok : fails_once cfg l = true)
    (h : Timed init_ms max_ms ts cfg.svc cfg.shared) :
    Timed init_ms max_ms (ts ++ turns cfg l) cfg'.svc cfg'.shared := by
  cases hmove with
  | event hdeliver => exact h.deliver hpos hmax hint hdeliver hconn
  | svc hsvc => exact h.svc hpos hmax hint hsvc hok (hconn.running (hlife.busy (by simp)))
  | call _ _ => simpa [turns] using h
  | @app t f a s s' svc app rest fs htop happ =>
    by_cases hf : f = .start_thread
    · -- The service thread is not running yet.
      subst hf
      have hidle : svc = [] := by
        by_contra hne
        have hrun := hlife.busy hne
        obtain rfl := hlife.threads.rest_nil htop
        rcases hlife.frame htop with hsends | ⟨hthread, _⟩
        · cases hsends
        · rw [hthread] at hrun
          cases hrun
      subst hidle
      have hturn : turns ⟨s, [], app⟩ (.app t a) = [.started] := by simp [turns, htop]
      rw [hturn]
      simp only [system, Sys.app] at happ
      split at happ <;> cases happ <;> exact h.start rfl rfl rfl rfl
    · have hturn : turns ⟨s, svc, app⟩ (.app t a) = [] := by
        cases f <;> first | exact absurd rfl hf | simp [turns, htop]
      rw [hturn, List.append_nil]
      obtain ⟨hsame, hstop⟩ := app_wait happ hf
      exact h.quiet hsame (fun msg hmem => hstop (h.nested msg hmem)) Iff.rfl

variable {c : wsld_client} {ls : List Label} {cfg : Config}

theorem Follows.timed (hc : c.Fresh)
    (h : system.Follows (fun cfg l => fails_once cfg l = true)
      (initial (wsld_set_reconnect c init_ms max_ms)) ls cfg) :
    Timed init_ms max_ms (system.observe turns (initial (wsld_set_reconnect c init_ms max_ms)) ls)
      cfg.svc cfg.shared := by
  have hfresh := hc.set_reconnect init_ms max_ms
  refine h.observed (J := fun cfg => Lifecycle cfg ∧ Conn cfg.svc cfg.shared)
    (I := fun ts cfg => Timed init_ms max_ms ts cfg.svc cfg.shared)
    (fun mid hmid => ?_) ?_
    fun ts cfg l cfg' hknown hok hmove hbefore =>
      hbefore.step hpos hmax hint hmove hknown.1 hknown.2 hok
  · have hreach : Reachable mid := ⟨_, hfresh, hmid.mono fun _ _ _ => trivial⟩
    exact ⟨hreach.lifecycle, hreach.conn⟩
  · refine ⟨rfl, rfl, (capped_zero hmax).symm, fun before now hts => ?_, fun hstate _ => ?_,
      fun _ hmem => (by cases hmem), fun before now after hts => ?_⟩
    · simp at hts
    · rw [show (initial (wsld_set_reconnect c init_ms max_ms)).shared.c.state = .STATE_IDLE from
        hfresh.state] at hstate
      cases hstate
    · simp at hts

/-- With the backoff set to `init_ms` and `max_ms`, in a run that reports each
    failure once:

    * the failure handled at `now` after `k - 1` others in a row has set
      `reconnect_at` to `now + min(init_ms * 2^(k-1), max_ms)`;
    * `do_connect` is called by the loop only right after a failure, at or after
      its deadline, so once for each;
    * the first iteration at or after the deadline does call it;
    * it is never called while a connection is live. -/
theorem reconnect_exact (hc : c.Fresh)
    (h : system.Follows (fun cfg l => fails_once cfg l = true)
      (initial (wsld_set_reconnect c init_ms max_ms)) ls cfg) :
    let ts := system.observe turns (initial (wsld_set_reconnect c init_ms max_ms)) ls
    (∀ before now, ts = before ++ [.failure now] →
      reconnect_due cfg.shared.c = now + capped init_ms max_ms (streak before)) ∧
    (∀ before now after, ts = before ++ .do_connect now :: after →
      ∃ mid at_ms, before = mid ++ [.failure at_ms] ∧
        at_ms + capped init_ms max_ms (streak mid) ≤ now) ∧
    (cfg.shared.thread = .running → cfg.svc = [] → cfg.shared.c.stopping = false →
      ∀ now, Reconnects cfg now ↔ ∃ mid at_ms, ts = mid ++ [.failure at_ms] ∧
        at_ms + capped init_ms max_ms (streak mid) ≤ now) ∧
    (.do_connect ∈ cfg.svc → ∀ w, ¬ cfg.shared.lws.Live w) := by
  have htimed := Follows.timed hpos hmax hint hc h
  have hreach : Reachable cfg := ⟨_, hc.set_reconnect init_ms max_ms, h.reaches.mono fun _ _ _ => trivial⟩
  refine ⟨fun before now hts => (htimed.waiting before now hts).2.2, htimed.called,
    fun hrun hidle hstop now => ?_, fun hmem => ?_⟩
  · rw [hidle] at htimed
    rw [reconnects_iff hrun hidle hstop]
    constructor
    · rintro ⟨hstate, hnow⟩
      obtain ⟨mid, at_ms, hts⟩ := htimed.due hstate (by simp)
      exact ⟨mid, at_ms, hts, (htimed.waiting mid at_ms hts).2.2 ▸ hnow⟩
    · rintro ⟨mid, at_ms, hts, hnow⟩
      obtain ⟨hstate, _, hdue⟩ := htimed.waiting mid at_ms hts
      exact ⟨hstate, hdue ▸ hnow⟩
  · have hne : cfg.svc ≠ [] := List.ne_nil_of_mem hmem
    exact (hreach.conn.running (hreach.lifecycle.busy hne)).connect_dead hmem

end doubling

/-- A first attempt that fails at 0, and a second one at 1000. -/
def two_failures_run : List Label :=
  [.call 0 .wsld_start, .app 0 {}, .app 0 {}, .app 0 {}, .event .service_thread, .svc {}, .svc {},
    .event (.poll 1000), .svc {}, .svc { now := 1000 }]

theorem reconnect_exact_doubled : ∃ cfg, Reachable cfg ∧ reconnect_due cfg.shared.c = 3000 ∧
    Reconnects cfg 3000 ∧ ¬ Reconnects cfg 2999 := by
  have hc := wsld_create_fresh "localhost" 9000 none true
  obtain ⟨cfg, hfollows, hrun, hstop, hidle⟩ : ∃ cfg,
      system.Follows (fun cfg l => fails_once cfg l = true)
        (initial (wsld_set_reconnect (wsld_create "localhost" 9000 none true) 1000 60000))
        two_failures_run cfg ∧
      cfg.shared.thread = .running ∧ cfg.shared.c.stopping = false ∧ cfg.svc.length = 0 :=
    System.exists_follows_of_run (by decide)
  have hturns : system.observe turns
      (initial (wsld_set_reconnect (wsld_create "localhost" 9000 none true) 1000 60000))
      two_failures_run = [.started, .failure 0, .do_connect 1000] ++ [.failure 1000] := by decide
  obtain ⟨hdue, _, hcalls, _⟩ :=
    reconnect_exact (by decide : (0 : Int) < 1000) (by decide : (1000 : Int) ≤ 60000) (by decide) hc
      hfollows
  have hcalls' := hcalls hrun (List.length_eq_zero_iff.mp hidle) hstop
  refine ⟨cfg, ⟨_, hc.set_reconnect 1000 60000, hfollows.reaches.mono fun _ _ _ => trivial⟩,
    hdue _ _ hturns, (hcalls' 3000).mpr ⟨_, _, hturns, by decide⟩, fun hearly => ?_⟩
  obtain ⟨mid, at_ms, hts, hle⟩ := (hcalls' 2999).mp hearly
  rw [hturns] at hts
  obtain ⟨rfl, hlast⟩ := List.append_inj' hts rfl
  cases hlast
  exact absurd hle (by decide)

end lws_client.ws_client
