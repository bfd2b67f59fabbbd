import LwsClientDemo.Timed
import LwsClientDemo.WsClient.Heartbeat
import LwsClientDemo.WsPool.Heartbeat

open interleaving

namespace lws_client

/-- A pending ping was written so long before its connection's timer is due that
    the timeout, in milliseconds, lies between. Time stamps are in microseconds. -/
def Timely (timeout due : Int) (pending : Bool) (stamps : List (Int × Pulse)) : Prop :=
  pending = true → ∃ p, stamps.getLast? = some (p, .ping) ∧ p + timeout * 1000 ≤ due

/-- A step at time `t` keeps a pending ping timely, when a ping it writes is. -/
theorem Beats.timely {w : WsiId} {acts : List Act} {x y : lws_context} {pending pending' : Bool}
    {opened claimed sends : Prop} {pulses : List Pulse} {interval timeout t due : Int}
    {stamps : List (Int × Pulse)}
    (h : Beats w opened claimed sends interval timeout x y pending pending' acts pulses)
    (hclaimed : ¬ claimed) (hsends : sends → t + timeout * 1000 ≤ due)
    (hbefore : opened → Timely timeout due pending stamps) :
    Timely timeout (((timers w acts).getLast?.map (t + ·)).getD due) pending'
      (stamps ++ pulses.map (t, ·)) := by
  cases h with
  | quiet hopened _ _ hpending htimers =>
    rw [htimers, hpending]
    simpa using hbefore hopened
  | established _ hpending _ | pong _ _ hpending _ =>
    rw [hpending]
    intro hfalse
    cases hfalse
  | ping _ hwrites _ _ _ htimers =>
    rw [htimers]
    exact fun _ => ⟨t, by simp, hsends hwrites⟩
  | expire hopened _ hbefore' hpending htimers =>
    rw [htimers, hpending, ← hbefore']
    simpa using hbefore hopened
  | request _ _ _ hpending _ =>
    rw [hpending]
    intro hfalse
    cases hfalse
  | claim _ hhook _ _ => exact absurd hhook hclaimed

end lws_client

namespace lws_client.ws_client

/-- The timers of connections, and their TIMER callbacks. -/
def clock : Timers Sys Event Frame AppFrame Answer WsiId where
  sets cfg l w := timers w (calls cfg l)
  fires
    | .event (.callback w .TIMER _) => some w
    | _ => none

/-- A PING is written only while the timer of the connection has the pong timeout
    still to run. -/
def in_time (cfg : Config) (k : Clock WsiId) (t : Int) : Label → Prop
  | .event (.callback w .CLIENT_WRITEABLE _) =>
    cfg.shared.c.send_ping = true → t + cfg.shared.c.pong_timeout_ms * 1000 ≤ k.due w
  | _ => True

instance (cfg : Config) (k : Clock WsiId) (t : Int) (l : Label) : Decidable (in_time cfg k t l) := by
  unfold in_time
  split <;> infer_instance

variable {c : wsld_client} {start k : Clock WsiId} {ls : List (Int × Label)} {cfg : Config}

theorem Timed.timely (hc : c.Fresh) (h : system.Timed clock in_time (initial c) start ls cfg k)
    (w : WsiId) (hopen : cfg.shared.lws.phase w = some .established) :
    Timely c.pong_timeout_ms (k.due w) cfg.shared.c.ping_pending
      (system.stamped (pulses w) (initial c) ls) := by
  induction h with
  | nil => cases hopen
  | @snoc ls mid last k t l hmid _ _ hok hstep ih =>
    have hfollows : system.Follows Any (initial c) (ls.map Prod.snd) mid :=
      hmid.follows fun _ _ _ _ _ => trivial
    have hreach : Reachable mid := ⟨c, hc, hfollows.reaches⟩
    have hconfig : mid.shared.c.pong_timeout_ms = c.pong_timeout_ms := by
      rw [Reaches.config hfollows.reaches]
    obtain ⟨acts, htrace, hbeats⟩ := step_beats hstep hreach.conn hopen
    rw [← hconfig] at ih ⊢
    rw [hmid.stamped_snoc]
    have hsends : writes_ping w mid l → t + mid.shared.c.pong_timeout_ms * 1000 ≤ k.due w := by
      rintro ⟨hsend, a, rfl⟩
      exact hok hsend
    have htimely := hbeats.timely id hsends ih
    rw [← calls_eq hstep htrace] at htimely
    exact htimely

end lws_client.ws_client

namespace lws_client.ws_pool

/-- The timers of the connections of client `d`, and their TIMER callbacks. -/
def clock (d : ClientId) : Timers Sys Event Frame AppFrame Answer WsiId where
  sets cfg l w := timers w (calls d cfg l)
  fires
    | .event (.callback c w .TIMER _) => if c = d then some w else none
    | _ => none

/-- A PING of client `d` is written only while the timer of the connection has the
    pong timeout still to run. The adds of the client do not overlap. -/
def in_time (d : ClientId) (cfg : Config) (k : Clock WsiId) (t : Int) (l : Label) : Prop :=
  AddedOnce d cfg l ∧
    match l with
    | .event (.callback c w .CLIENT_WRITEABLE _) => c = d → (cfg.shared.client d).send_ping = true →
      t + (cfg.shared.client d).pong_timeout_ms * 1000 ≤ k.due w
    | _ => True

variable {client : ClientId → wsp_client} {d : ClientId} {start k : Clock WsiId}
  {ls : List (Int × Label)} {cfg : Config}

theorem Timed.timely (hfresh : ∀ c, (client c).Fresh)
    (hhook : hooked (client d).hooks (·.on_heartbeat_tick) = false)
    (h : system.Timed (clock d) (in_time d) (initial client) start ls cfg k) (w : WsiId)
    (hopen : cfg.shared.lws.link w = some (d, .established)) :
    Timely (client d).pong_timeout_ms (k.due w) (cfg.shared.client d).ping_pending
      (system.stamped (pulses d w) (initial client) ls) := by
  induction h with
  | nil => cases hopen
  | @snoc ls mid last k t l hmid _ _ hok hstep ih =>
    have hfollows : system.Follows (AddedOnce d) (initial client) (ls.map Prod.snd) mid :=
      hmid.follows fun _ _ _ _ hok => hok.1
    have hlinked := Reaches.linked (fun _ _ hok => hok) hfresh hfollows.reaches
    have hconfig := Reaches.config hfollows.reaches d
    have hnone : ¬ mid.shared.ticks d := by
      rw [Sys.ticks, hconfig, hhook]
      exact Bool.false_ne_true
    have htimeout : (mid.shared.client d).pong_timeout_ms = (client d).pong_timeout_ms := by
      rw [hconfig]
    obtain ⟨acts, htrace, hbeats⟩ := step_beats hstep hlinked (fun htick => absurd htick hnone) hopen
    rw [← htimeout] at ih ⊢
    rw [hmid.stamped_snoc]
    have hsends : writes_ping d w mid l →
        t + (mid.shared.client d).pong_timeout_ms * 1000 ≤ k.due w := by
      rintro ⟨hsend, a, rfl⟩
      exact hok.2 rfl hsend
    have htimely := hbeats.timely hnone hsends ih
    rw [← calls_eq hstep htrace] at htimely
    exact htimely

end lws_client.ws_pool

namespace lws_client

open ws_client (default_client)

/-- When every PING is written while the timer of its connection has the pong
    timeout still to run, a TIMER that returns -1 at time `t` comes that long after
    the unanswered PING. -/
theorem pong_deadline {c : ws_client.wsld_client} (hc : c.Fresh) (start : Clock WsiId) :
    (∀ ls cfg k, ws_client.system.Timed ws_client.clock ws_client.in_time (ws_client.initial c) start
        ls cfg k →
      ∀ w t a next, k.now ≤ t → k.due w ≤ t →
        ws_client.system.step cfg (.event (.callback w .TIMER a)) = some next →
        (ws_client.timer cfg.shared.c w).ret = -1 →
        ∃ p, (ws_client.system.stamped (ws_client.pulses w) (ws_client.initial c) ls).getLast? =
          some (p, .ping) ∧ p + c.pong_timeout_ms * 1000 ≤ t) ∧
    ∀ client : ws_pool.ClientId → ws_pool.wsp_client, (∀ d, (client d).Fresh) →
      ∀ d, hooked (client d).hooks (·.on_heartbeat_tick) = false →
      ∀ ls cfg k, ws_pool.system.Timed (ws_pool.clock d) (ws_pool.in_time d) (ws_pool.initial client)
          start ls cfg k →
        ∀ w t a next, k.now ≤ t → k.due w ≤ t →
          ws_pool.system.step cfg (.event (.callback d w .TIMER a)) = some next →
          (ws_pool.timer (cfg.shared.client d) w a.ret).ret = -1 →
          ∃ p, (ws_pool.system.stamped (ws_pool.pulses d w) (ws_pool.initial client) ls).getLast? =
            some (p, .ping) ∧ p + (client d).pong_timeout_ms * 1000 ≤ t := by
  constructor
  · intro ls cfg k h w t a next _ hdue hstep hret
    have hopen : cfg.shared.lws.phase w = some .established := by
      cases System.step_moves hstep with
      | event hdeliver =>
        simp only [ws_client.system, ws_client.Sys.deliver, Option.ite_none_right_eq_some] at hdeliver
        exact lws_context.phase_of_enables_ne hdeliver.1 (by simp)
    obtain ⟨p, hlast, hle⟩ := ws_client.Timed.timely hc h w hopen ((ws_client.timer_ret _ w).mp hret)
    exact ⟨p, hlast, Int.le_trans hle hdue⟩
  · intro client hfresh d hhook ls cfg k h w t a next _ hdue hstep hret
    have hopen : cfg.shared.lws.link w = some (d, .established) := by
      cases System.step_moves hstep with
      | event hdeliver =>
        simp only [ws_pool.system, ws_pool.Sys.deliver, Option.ite_none_right_eq_some,
          Bool.and_eq_true] at hdeliver
        obtain ⟨⟨huser, henabled⟩, _⟩ := hdeliver
        have hphase := lws_context.phase_of_enables_ne henabled (by simp)
        obtain ⟨i, hi, huser⟩ := (Option.any_eq_true _ _).mp huser
        simp only [lws_context.phase, hi, Option.map_some, Option.some.injEq] at hphase
        simp [lws_context.link, hi, hphase, Reason.phase, (by simpa using huser : i.user = d)]
    have hconfig : (cfg.shared.client d).hooks = (client d).hooks := by
      have hfollows : ws_pool.system.Follows Any (ws_pool.initial client) (ls.map Prod.snd) cfg :=
        h.follows fun _ _ _ _ _ => trivial
      rw [ws_pool.Reaches.config hfollows.reaches d]
    have htick : ¬ (hooked (cfg.shared.client d).hooks (·.on_heartbeat_tick) = true ∧ a.ret ≠ 0) := by
      rw [hconfig, hhook]
      simp
    obtain ⟨p, hlast, hle⟩ :=
      ws_pool.Timed.timely hfresh hhook h w hopen ((ws_pool.timer_ret htick).mp hret)
    exact ⟨p, hlast, Int.le_trans hle hdue⟩

/-- A connected v1 client whose TIMER comes after 30 s, and a WRITEABLE at time `t`. -/
def pinged_at (t : Int) : List (Int × ws_client.Label) :=
  ws_client.connected_run.map (0, ·) ++
    [(30000000, .event (.callback 0 .TIMER {})), (t, .event (.callback 0 .CLIENT_WRITEABLE {})),
      (t, .svc {})]

def at_zero : Clock WsiId := { now := 0, due := fun _ => 0 }

/-- TIMER can come at `t` and returns -1, with a PING written at `p` unanswered. -/
def expires (t p : Int) (cfg : ws_client.Config) (k : Clock WsiId) (ls : List (Int × ws_client.Label)) :
    Bool :=
  decide (k.now ≤ t) && decide (k.due 0 ≤ t) &&
    (ws_client.system.step cfg (.event (.callback 0 .TIMER {}))).isSome &&
    ((ws_client.timer cfg.shared.c 0).ret == -1) &&
    ((ws_client.system.stamped (ws_client.pulses 0) (ws_client.initial default_client) ls).getLast? ==
      some (p, .ping))

theorem pong_deadline_prompt : ∃ cfg k, ws_client.system.Timed ws_client.clock ws_client.in_time
      (ws_client.initial default_client) at_zero (pinged_at 30000000) cfg k ∧
    expires 40000000 30000000 cfg k (pinged_at 30000000) = true ∧
    ∃ p, (ws_client.system.stamped (ws_client.pulses 0) (ws_client.initial default_client)
      (pinged_at 30000000)).getLast? = some (p, .ping) ∧ p + 10000 * 1000 ≤ 40000000 := by
  obtain ⟨cfg, k, htimed, hexpires⟩ : ∃ cfg k, ws_client.system.Timed ws_client.clock
      ws_client.in_time (ws_client.initial default_client) at_zero (pinged_at 30000000) cfg k ∧
      expires 40000000 30000000 cfg k (pinged_at 30000000) = true :=
    System.exists_timed_of_clocked (by decide)
  have hfresh : default_client.Fresh := ws_client.wsld_create_fresh _ _ _ _
  simp only [expires, Bool.and_eq_true, decide_eq_true_eq, beq_iff_eq] at hexpires
  obtain ⟨⟨⟨⟨hnow, hdue⟩, hstep⟩, hret⟩, _⟩ := id hexpires
  obtain ⟨next, hnext⟩ := Option.isSome_iff_exists.mp hstep
  refine ⟨cfg, k, htimed, by simpa [expires] using hexpires, ?_⟩
  exact (pong_deadline hfresh at_zero).1 _ cfg k htimed 0 40000000 {} next hnow hdue hnext hret

/-- A WRITEABLE that comes 9.999 s after it was requested leaves the peer one
    millisecond to answer. -/
theorem late_ping : ∃ cfg k, ws_client.system.Timed ws_client.clock (fun _ _ _ _ => True)
      (ws_client.initial default_client) at_zero (pinged_at 39999000) cfg k ∧
    expires 40000000 39999000 cfg k (pinged_at 39999000) = true ∧
    default_client.pong_timeout_ms = 10000 ∧ ¬ (39999000 : Int) + 10000 * 1000 ≤ 40000000 := by
  obtain ⟨cfg, k, htimed, hexpires⟩ : ∃ cfg k, ws_client.system.Timed ws_client.clock
      (fun _ _ _ _ => True) (ws_client.initial default_client) at_zero (pinged_at 39999000) cfg k ∧
      expires 40000000 39999000 cfg k (pinged_at 39999000) = true :=
    System.exists_timed_of_clocked (by decide)
  exact ⟨cfg, k, htimed, hexpires, rfl, by decide⟩

end lws_client
