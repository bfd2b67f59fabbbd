import LwsClientDemo.WsClientV2.Decisions

open interleaving

namespace lws_client.ws_client_v2

/-- The step asks `on_reconnect_decision` and gets a negative answer. -/
def refuses (cfg : Config) : Label → Bool
  | .svc a => cfg.svc.head?.any (fun f => f matches .schedule_reconnect) && cfg.shared.c.asks &&
      decide (a.ret < 0)
  | _ => false

/-- The frame leads to a connect call or to an armed timer. -/
def Frame.retries : Frame → Bool
  | .do_connect | .connect_return false | .schedule_reconnect => true
  | _ => false

/-- A client that waits to reconnect will: its timer is armed, or it is about to
    be. No answer has stopped it. -/
structure Waits (fs : List Frame) (s : Sys) : Prop where
  waiting : s.thread = .running → s.c.stopping = false → s.c.state = .STATE_RECONNECT_WAIT →
    s.c.sul.isSome = true ∨ ∃ f ∈ fs, f.retries = true
  alive : s.c.state ≠ .STATE_STOPPED

variable {s s' : Sys} {fs rest : List Frame}

/-- Neither the state nor the timer changes, and no frame is lost. -/
theorem Waits.same (h : Waits fs s) (hthread : s'.thread = .running → s.thread = .running)
    (hstop : s'.c.stopping = false → s.c.stopping = false) (hstate : s'.c.state = s.c.state)
    (hsul : s'.c.sul = s.c.sul) {gs : List Frame} (hfs : ∀ f ∈ fs, f.retries = true → f ∈ gs) :
    Waits gs s' := by
  refine ⟨fun hrun hstopping hwait => ?_, hstate ▸ h.alive⟩
  rw [hsul]
  rw [hstate] at hwait
  exact (h.waiting (hthread hrun) (hstop hstopping) hwait).imp_right fun ⟨f, hf, hretries⟩ =>
    ⟨f, hfs f hf hretries, hretries⟩

/-- The client is connected, or being connected. -/
theorem Waits.of_state (hwait : s'.c.state ≠ .STATE_RECONNECT_WAIT)
    (halive : s'.c.state ≠ .STATE_STOPPED) : Waits fs s' :=
  ⟨fun _ _ hstate => absurd hstate hwait, halive⟩

theorem schedule_reconnect_agreed {c : wsl_client} {ret : Int} (h : c.asks = true → 0 ≤ ret) :
    (schedule_reconnect c ret).1.state = .STATE_RECONNECT_WAIT ∧
      (schedule_reconnect c ret).1.sul.isSome = true := by
  unfold schedule_reconnect
  dsimp only
  split
  · next hasks =>
    have hret := h hasks
    rw [if_neg (by omega)]
    exact ⟨rfl, rfl⟩
  · exact ⟨rfl, rfl⟩

theorem svc_waits {f : Frame} {a : Answer} (h : s.svc f a = some (fs, s'))
    (hok : f = .schedule_reconnect → s.c.asks = true → 0 ≤ a.ret) (hwaits : Waits (f :: rest) s) :
    Waits (fs ++ rest) s' := by
  have hsame : f.retries = false → s'.thread = s.thread → s'.c.stopping = s.c.stopping →
      s'.c.state = s.c.state → s'.c.sul = s.c.sul → Waits (fs ++ rest) s' := by
    intro hf hthread hstop hstate hsul
    refine hwaits.same (hthread ▸ id) (hstop ▸ id) hstate hsul fun g hg hretries => ?_
    rcases List.mem_cons.mp hg with rfl | hg
    · rw [hf] at hretries
      cases hretries
    · exact List.mem_append_right _ hg
  cases f with
  | do_connect =>
    simp only [Sys.svc] at h
    split at h <;> cases h <;> exact .of_state (by simp) (by simp)
  | connection_error msg =>
    simp only [Sys.svc, Option.some.injEq, Prod.mk.injEq] at h
    obtain ⟨rfl, rfl⟩ := h
    obtain ⟨n, hc⟩ := connection_error_client s.c msg
    refine ⟨fun _ hstop _ => .inr ⟨.schedule_reconnect, ?_, rfl⟩, by simp [hc]⟩
    have hbefore : s.c.stopping = false := by simpa [hc] using hstop
    simp [hbefore]
  | connect_return connected =>
    cases connected with
    | true =>
      cases h
      exact hsame rfl rfl rfl rfl rfl
    | false =>
      cases h
      exact ⟨fun _ _ _ => .inr ⟨.schedule_reconnect, by simp, rfl⟩, by simp⟩
  | schedule_reconnect =>
    cases h
    obtain ⟨hstate, hsul⟩ := schedule_reconnect_agreed (hok rfl)
    exact ⟨fun _ _ _ => .inl hsul, by rw [Sys.act_c, hstate]; simp⟩
  | wsi_destroy w =>
    cases h
    obtain ⟨wsi, hc⟩ := wsi_destroy_client s.c w
    exact hsame rfl rfl (by simp [hc]) (by simp [hc]) (by simp [hc])
  | write w n =>
    simp only [Sys.svc] at h
    split at h <;> cases h <;> exact hsame rfl rfl rfl rfl rfl
  | q_head_check | lws_callback_on_writable | event_wait_cancelled =>
    cases h
    exact hsame rfl rfl rfl rfl rfl

theorem callback_waits {w : WsiId} {a : Answer} {r : Reason}
    (h : s.callback w a r = some (fs, s')) (hwaits : Waits [] s) : Waits fs s' := by
  have hsame : s'.thread = s.thread → s'.c.stopping = s.c.stopping → s'.c.state = s.c.state →
      s'.c.sul = s.c.sul → Waits fs s' := fun hthread hstop hstate hsul =>
    hwaits.same (hthread ▸ id) (hstop ▸ id) hstate hsul (by simp)
  cases r with
  | CLIENT_ESTABLISHED =>
    cases h
    exact .of_state (by simp [established]) (by simp [established])
  | CLIENT_CONNECTION_ERROR msg =>
    simp only [Sys.callback, Option.some.injEq, Prod.mk.injEq] at h
    obtain ⟨rfl, rfl⟩ := h
    obtain ⟨n, hc⟩ := connection_error_client s.c msg
    refine ⟨fun _ hstop _ => .inr ⟨.schedule_reconnect, ?_, rfl⟩, by simp [hc]⟩
    have hbefore : s.c.stopping = false := by simpa [hc] using hstop
    simp [hbefore]
  | CLIENT_CLOSED =>
    simp only [Sys.callback, Option.some.injEq, Prod.mk.injEq] at h
    obtain ⟨rfl, rfl⟩ := h
    obtain ⟨n, hc⟩ := closed_client s.c
    refine ⟨fun _ hstop _ => .inr ⟨.schedule_reconnect, ?_, rfl⟩, by simp [hc]⟩
    have hbefore : s.c.stopping = false := by simpa [hc] using hstop
    simp [hbefore]
  | CLIENT_RECEIVE chunk =>
    simp only [Sys.callback, Option.map_eq_some_iff, Prod.mk.injEq] at h
    obtain ⟨o, ho, rfl, rfl⟩ := h
    obtain ⟨frag, hc⟩ := receive_client ho
    refine hsame ?_ ?_ ?_ ?_ <;> split <;> simp [hc]
  | CLIENT_WRITEABLE =>
    simp only [Sys.callback] at h
    split at h
    · cases h
      exact hsame rfl rfl rfl rfl
    · split at h <;> cases h <;> exact hsame rfl rfl rfl rfl
  | TIMER =>
    simp only [Sys.callback, Option.some.injEq, Prod.mk.injEq] at h
    obtain ⟨rfl, rfl⟩ := h
    refine hsame ?_ ?_ ?_ ?_ <;> rcases timer_client s.c a.ret with hc | hc <;> split <;> simp [hc]
  | WSI_DESTROY =>
    cases h
    obtain ⟨wsi, hc⟩ := wsi_destroy_client s.c w
    exact hsame rfl (by simp [hc]) (by simp [hc]) (by simp [hc])
  | CLIENT_RECEIVE_PONG | CLIENT_APPEND_HANDSHAKE_HEADER =>
    cases h
    exact hsame rfl rfl rfl rfl

theorem deliver_waits {e : Event} (h : s.deliver e = some (fs, s')) (hwaits : Waits [] s) :
    Waits fs s' := by
  cases e with
  | callback w r a =>
    simp only [Sys.deliver, Option.ite_none_right_eq_some] at h
    exact callback_waits h.2 hwaits
  | service_thread =>
    simp only [Sys.deliver, Option.ite_none_right_eq_some, Option.some.injEq, Prod.mk.injEq] at h
    obtain ⟨_, rfl, rfl⟩ := h
    exact ⟨fun _ _ _ => .inr ⟨.do_connect, by simp, rfl⟩, hwaits.alive⟩
  | event_wait_cancelled wsi =>
    simp only [Sys.deliver, Option.ite_none_right_eq_some, Option.some.injEq, Prod.mk.injEq] at h
    obtain ⟨_, rfl, rfl⟩ := h
    refine hwaits.same ?_ ?_ ?_ ?_ (by simp)
    · exact id
    · exact id
    · rfl
    · rfl
  | sul_reconnect_cb =>
    simp only [Sys.deliver, Option.ite_none_right_eq_some, Option.some.injEq, Prod.mk.injEq] at h
    obtain ⟨_, rfl, rfl⟩ := h
    refine ⟨fun _ hstop _ => .inr ⟨.do_connect, ?_, rfl⟩, hwaits.alive⟩
    have hbefore : s.c.stopping = false := hstop
    simp [hbefore]
  | exit =>
    simp only [Sys.deliver, Option.ite_none_right_eq_some, Option.map_eq_some_iff,
      Prod.mk.injEq] at h
    obtain ⟨_, _, _, rfl, rfl⟩ := h
    exact ⟨fun hrun => (by cases hrun), hwaits.alive⟩
  | context_destroyed =>
    simp only [Sys.deliver, Option.ite_none_right_eq_some, Option.some.injEq, Prod.mk.injEq] at h
    obtain ⟨_, rfl, rfl⟩ := h
    exact ⟨fun hrun => (by cases hrun), hwaits.alive⟩

/-- While the thread runs the owner can only stop the client. -/
theorem app_waits {f : AppFrame} {a : Answer} {fs : List AppFrame} {svc : List Frame}
    (h : s.app f a = some (fs, s')) (hf : f.sends = true ∨ Owner (some f) s)
    (hwaits : Waits svc s) : Waits svc s' := by
  have hkept : s'.thread = s.thread → (s'.c.stopping = false → s.c.stopping = false) →
      s'.c.state = s.c.state → s'.c.sul = s.c.sul → Waits svc s' := fun hthread hstop hstate hsul =>
    hwaits.same (hthread ▸ id) hstop hstate hsul fun _ hg _ => hg
  have hsent : f.sends = true → Waits svc s' := fun hsends => by
    obtain ⟨howned, hthread, _⟩ := app_sends h hsends
    have hlink := app_sends_link h hsends
    exact hkept hthread (howned.stopping ▸ id) hlink.state hlink.sul
  rcases hf with hsends | howner
  · exact hsent hsends
  · cases f with
    | enqueue_msg _ _ | enqueue_msg_locked _ _ | enqueue_msg_wake | lws_cancel_service =>
      exact hsent rfl
    | wsl_start =>
      simp only [Sys.app] at h
      split at h
      · cases h
        exact hwaits
      · split at h <;> cases h <;> exact hkept rfl id rfl rfl
    | start_thread =>
      simp only [Sys.app] at h
      split at h <;> cases h <;> exact .of_state (by simp) (by simp)
    | wsl_stop =>
      simp only [Sys.app] at h
      split at h <;> cases h
      · exact hkept rfl (fun hstop => by simp at hstop) rfl rfl
      · exact hwaits
    | stop_context =>
      simp only [Sys.app] at h
      split at h <;> cases h <;> exact ⟨fun hrun => (by cases hrun), hwaits.alive⟩
    | stop_join | stop_context_destroyed =>
      simp only [Sys.app, Option.ite_none_right_eq_some, Option.some.injEq, Prod.mk.injEq] at h
      obtain ⟨_, _, rfl⟩ := h
      exact hkept rfl id rfl rfl
    | stop_return =>
      cases h
      exact .of_state (by simp) (by simp)
    | start_return | stop_cancel | wsl_destroy =>
      cases h
      exact hkept rfl id rfl rfl

variable {c : wsl_client} {cfg : Config}

theorem Reaches.waits (hc : c.Fresh)
    (h : system.Reaches (fun cfg l => refuses cfg l = false) (initial c) cfg) :
    Waits cfg.svc cfg.shared := by
  refine h.invariant_under (I := fun cfg => Waits cfg.svc cfg.shared) (J := Lifecycle)
    (fun mid hmid => Reachable.lifecycle ⟨c, hc, hmid.mono fun _ _ _ => trivial⟩) ?_
    fun cfg l cfg' hlife hok hmove hwaits => ?_
  · refine .of_state ?_ ?_ <;> change c.state ≠ _ <;> rw [hc.state] <;> simp
  · cases hmove with
    | event hdeliver => exact deliver_waits hdeliver hwaits
    | svc hsvc =>
      refine svc_waits hsvc (fun hf hasks => ?_) hwaits
      subst hf
      by_contra hneg
      simp [refuses, hasks] at hok
      omega
    | call _ _ => exact hwaits
    | app htop happ =>
      obtain rfl := hlife.rest_nil htop
      exact app_waits happ (hlife.frame htop) hwaits

/-- Between two callbacks of the running service thread a client that is not
    stopping has one live connection, or its timer is armed, as `state` says. -/
theorem one_place (hc : c.Fresh)
    (h : system.Reaches (fun cfg l => refuses cfg l = false) (initial c) cfg)
    (hrun : cfg.shared.thread = .running) (hidle : cfg.svc = [])
    (hstop : cfg.shared.c.stopping = false) :
    ((∃ w, cfg.shared.c.wsi = some w ∧ cfg.shared.lws.Live w ∧
        ∀ v, cfg.shared.lws.Live v → v = w) ∧ cfg.shared.c.sul = none ∧
      (cfg.shared.c.state = .STATE_CONNECTING ∨ cfg.shared.c.state = .STATE_CONNECTED)) ∨
    ((∀ v, ¬ cfg.shared.lws.Live v) ∧ cfg.shared.c.sul.isSome = true ∧
      cfg.shared.c.state = .STATE_RECONNECT_WAIT) := by
  have hwaits := Reaches.waits hc h
  have hpos := (Reachable.conn ⟨c, hc, h.mono fun _ _ _ => trivial⟩).running hrun
  rw [hidle] at hwaits hpos
  rcases hpos.idle with ⟨w, hup⟩ | hdown
  · refine .inl ⟨⟨w, hup.wsi, hup.live, hup.only⟩, hup.sul, ?_⟩
    exact hup.state.imp And.right And.right
  · have hstate := hdown.state.resolve_right hwaits.alive
    have hsul := (hwaits.waiting hrun hstop hstate).resolve_right (by simp)
    exact .inr ⟨hdown.none_live, hsul, hstate⟩

end lws_client.ws_client_v2
