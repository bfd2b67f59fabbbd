import LwsClientDemo.FailureLimit
import LwsClientDemo.WsClientV2.Breaker
import LwsClientDemo.WsClientV2.Notifications
import LwsClientDemo.WsClientV2.Queue

open interleaving

namespace lws_client.ws_client_v2

/-- A question to the hook is answered by `hook`. -/
def answered (hook : Decision) (cfg : Config) : Label → Bool
  | .svc a =>
    !cfg.svc.head?.any (fun f => f matches .schedule_reconnect) ||
      hook.answers (schedule_reconnect cfg.shared.c a.ret).2 a.ret
  | _ => true

/-- What may be left to run after the last failure: questions to the hook. -/
def Frame.spent : Frame → Bool
  | .event_wait_cancelled | .schedule_reconnect | .wsi_destroy _ | .connect_return false => true
  | _ => false

/-- The client has had its last failure before its next start. -/
structure Tripped (svc : List Frame) (s : Sys) : Prop where
  none_live : s.NoLive
  sul : s.c.sul = none
  svc : ∀ f ∈ svc, f.spent = true
  thread : s.thread ≠ .created

variable {s s' : Sys} {fs rest svc : List Frame} {max : Int} {hook : Decision}

theorem Tripped.calm (h : Tripped svc s) : Calm [] s :=
  ⟨h.none_live, h.sul, by simp, h.thread⟩

theorem Tripped.of_calm (h : Calm [] s) (hsvc : ∀ f ∈ svc, f.spent = true) : Tripped svc s :=
  ⟨h.none_live, h.sul, hsvc, h.thread⟩

theorem svc_tripped {f : Frame} {a : Answer} (h : s.svc f a = some (fs, s'))
    (hrefuses : f = .schedule_reconnect → s.c.asks = true ∧ a.ret < 0)
    (htripped : Tripped (f :: rest) s) :
    Tripped (fs ++ rest) s' ∧ connects s'.trace = connects s.trace := by
  have hf : f.spent = true := htripped.svc f List.mem_cons_self
  have hrest : ∀ g ∈ rest, g.spent = true := fun g hg => htripped.svc g (List.mem_cons_of_mem _ hg)
  have hact : ∀ {gs : List Frame} {r : wsl_client × List Act}, r.1.sul = s.c.sul →
      connects r.2 = 0 → (∀ g ∈ gs, g.spent = true) →
      Tripped (gs ++ rest) (s.act r) ∧ connects (s.act r).trace = connects s.trace := by
    intro gs r hsul hconnects hgs
    refine ⟨⟨htripped.none_live.of_phase fun v => by simp, ?_, fun g hg => ?_, htripped.thread⟩, ?_⟩
    · rw [Sys.act_c, hsul]
      exact htripped.sul
    · rcases List.mem_append.mp hg with hg | hg
      · exact hgs g hg
      · exact hrest g hg
    · rw [Sys.act_trace, connects_append, hconnects, Nat.add_zero]
  cases f with
  | event_wait_cancelled =>
    cases h
    refine hact rfl ?_ (by simp)
    unfold event_wait_cancelled
    split
    · rfl
    · have hnone : retries (request_writable s.c) = [] := retries_eq_nil (Every.onWsi fun _ => rfl)
      change connects (request_writable s.c) = 0
      rw [← connects_retries, hnone]
      rfl
  | schedule_reconnect =>
    obtain ⟨hasks, hneg⟩ := hrefuses rfl
    rw [wsl_client.asks] at hasks
    cases h
    refine hact ?_ ?_ (by simp) <;> simp [schedule_reconnect, hasks, hneg, connects]
  | wsi_destroy w =>
    obtain ⟨wsi, hc⟩ := wsi_destroy_client s.c w
    cases h
    exact hact (by rw [hc]) rfl (by simp)
  | connect_return connected =>
    cases connected with
    | true => cases hf
    | false =>
      cases h
      exact hact rfl rfl (by simp [Frame.spent])
  | _ => cases hf

theorem deliver_tripped {e : Event} (h : s.deliver e = some (fs, s')) (htripped : Tripped [] s) :
    Tripped fs s' ∧ connects s'.trace = connects s.trace := by
  obtain ⟨hcalm, hsame⟩ := deliver_calm h htripped.calm
  refine ⟨⟨hcalm.none_live, hcalm.sul, fun f hf => ?_, hcalm.thread⟩, ?_⟩
  · rw [hcalm.svc f hf]
    rfl
  · rw [← connects_retries, hsame, connects_retries]

theorem app_tripped {f : AppFrame} {a : Answer} {gs : List AppFrame}
    (h : s.app f a = some (gs, s')) (hstarts : starts s'.trace = starts s.trace)
    (htripped : Tripped svc s) : Tripped svc s' ∧ connects s'.trace = connects s.trace := by
  obtain ⟨hcalm, hsame⟩ := app_calm h htripped.calm hstarts
  exact ⟨.of_calm hcalm htripped.svc, by rw [← connects_retries, hsame, connects_retries]⟩

/-- A CONNECTION_ERROR comes from a connect call, which has found no timer armed. -/
structure Alone (svc : List Frame) (s : Sys) : Prop where
  behind : ∀ f ∈ svc.tail, ∀ msg, f ≠ .connection_error msg
  failing : ∀ msg rest, svc = .connection_error msg :: rest → s.c.sul = none

theorem Alone.of_single (h : fs = [] ∨ ∃ f, fs = [f] ∧ ∀ msg, f ≠ .connection_error msg) :
    Alone fs s := by
  rcases h with rfl | ⟨f, rfl, hf⟩
  · exact ⟨by simp, fun msg rest hfs => by cases hfs⟩
  · refine ⟨by simp, fun msg rest hfs => ?_⟩
    exact absurd (List.cons.inj hfs).1 (hf msg)

/-- A section goes on to the ones behind it, or first to another one. -/
theorem Alone.replace {f : Frame} (h : Alone (f :: rest) s)
    (hfs : ∀ g ∈ fs, ∀ msg, g ≠ .connection_error msg) : Alone (fs ++ rest) s' := by
  have hall : ∀ g ∈ fs ++ rest, ∀ msg, g ≠ .connection_error msg := fun g hg =>
    (List.mem_append.mp hg).elim (hfs g) (h.behind g)
  refine ⟨fun g hg => hall g (List.mem_of_mem_tail hg), fun msg gs heq => ?_⟩
  exact absurd rfl (hall (.connection_error msg) (heq ▸ List.mem_cons_self) msg)

theorem svc_alone {f : Frame} {a : Answer} (h : s.svc f a = some (fs, s'))
    (hpos : Position (f :: rest) s) (halone : Alone (f :: rest) s) : Alone (fs ++ rest) s' := by
  cases f with
  | do_connect =>
    obtain rfl := hpos.do_connect_alone
    have hsul : s.c.sul = none := by
      cases hpos with
      | up _ hfs _ => rcases hfs with hfs | hfs | hfs <;> cases hfs
      | down hfs _ => rcases hfs with hfs | hfs | hfs <;> cases hfs
      | sending v f hfs hf _ _ =>
        cases hfs
        exact absurd hf id
      | connect _ _ hsul _ => exact hsul
      | failing gs hfs hgs _ _ => cases gs with
        | nil => cases hfs
        | cons g gs =>
          have hg := hgs g List.mem_cons_self
          rw [← (List.cons.inj hfs).1] at hg
          cases hg
    simp only [Sys.svc] at h
    split at h
    · cases h
      exact .of_single (.inr ⟨_, rfl, by simp⟩)
    · next error destroyed _ =>
      cases h
      refine ⟨fun g hg => ?_, fun _ _ _ => hsul⟩
      cases error <;> cases destroyed <;> simp at hg <;> rcases hg with rfl | rfl <;> simp
  | connection_error msg =>
    simp only [Sys.svc, Option.some.injEq, Prod.mk.injEq] at h
    obtain ⟨rfl, _⟩ := h
    exact halone.replace (by split <;> simp)
  | connect_return connected =>
    simp only [Sys.svc] at h
    split at h <;> cases h <;> exact halone.replace (by simp)
  | q_head_check =>
    simp only [Sys.svc, Option.some.injEq, Prod.mk.injEq] at h
    obtain ⟨rfl, _⟩ := h
    exact halone.replace (by split <;> simp)
  | write w n =>
    simp only [Sys.svc] at h
    split at h <;> cases h <;> exact halone.replace (by simp)
  | wsi_destroy _ | schedule_reconnect | lws_callback_on_writable | event_wait_cancelled =>
    cases h
    exact halone.replace (by simp)

/-- What a step does to the failures that are counted: nothing, or a connection
    ends the count, or there is one failure more, which leaves the client tripped. -/
inductive Fails (svc svc' : List Frame) (s s' : Sys) : Prop where
  | same : s'.c.reconnect_fail_count = s.c.reconnect_fail_count → Fails svc svc' s s'
  | reset : s.thread = .running → ¬ Tripped svc s → s'.c.reconnect_fail_count = 0 →
      Fails svc svc' s s'
  | fail : ¬ Tripped svc s → Tripped svc' s' →
      s'.c.reconnect_fail_count = s.c.reconnect_fail_count + 1 → Fails svc svc' s s'

/-- The one connection of a running client ends. -/
theorem Up.tripped {w : WsiId} {r : wsl_client × List Act} (hup : Up s w)
    (hrun : s.thread = .running) (hsul : r.1.sul = s.c.sul) :
    ¬ Tripped [] s ∧
      Tripped [.schedule_reconnect] ((s.setLws (s.lws.setPhase w .closed)).act r) := by
  refine ⟨fun htripped => htripped.none_live w hup.live, ?_, ?_, by simp [Frame.spent], ?_⟩
  · exact .of_closed (w := w) hup.only fun v => by simp
  · rw [Sys.act_c, hsul]
    exact hup.sul
  · rw [Sys.act_thread]
    change s.thread ≠ .created
    rw [hrun]
    decide

theorem callback_fails {w : WsiId} {a : Answer} {r : Reason} (h : s.callback w a r = some (fs, s'))
    (henabled : s.callback_enabled w r = true)
    (hstop : s.thread = .destroying → s.c.stopping = true) (hconn : Conn [] s) :
    Fails [] fs s s' := by
  have hrunning : r = .CLIENT_ESTABLISHED ∨ s.c.stopping = false → r ≠ .WSI_DESTROY →
      s.thread = .running ∧ s.lws.phase w = some r.phase := by
    intro hcase hr
    refine ⟨?_, lws_context.phase_of_enables_ne henabled hr⟩
    cases hthread : s.thread with
    | running => rfl
    | destroying =>
      rcases hcase with rfl | hgoing
      · simp [Sys.callback_enabled, lws_context.enables, hthread] at henabled
      · rw [hstop hthread] at hgoing
        cases hgoing
    | _ => cases r <;> simp [Sys.callback_enabled, lws_context.enables, hthread] at henabled
  cases r with
  | CLIENT_ESTABLISHED =>
    obtain ⟨hrun, hphase⟩ := hrunning (.inl rfl) (by simp)
    cases h
    exact .reset hrun (fun htripped => htripped.none_live w (.inl hphase)) rfl
  | CLIENT_CONNECTION_ERROR msg =>
    simp only [Sys.callback, Option.some.injEq, Prod.mk.injEq] at h
    obtain ⟨rfl, rfl⟩ := h
    by_cases hstop : s.c.stopping = true
    · exact .same (by simp [connection_error_stopping hstop])
    · have hgoing : s.c.stopping = false := by simpa using hstop
      obtain ⟨hrun, hphase⟩ := hrunning (.inr hgoing) (by simp)
      obtain ⟨hbefore, hafter⟩ := ((hconn.running hrun).up_of_live (.inl hphase)).tripped
        hrun (connection_error_link s msg).1
      rw [if_neg hstop]
      exact .fail hbefore hafter (by simp [connection_error_going hgoing])
  | CLIENT_CLOSED =>
    simp only [Sys.callback, Option.some.injEq, Prod.mk.injEq] at h
    obtain ⟨rfl, rfl⟩ := h
    by_cases hstop : s.c.stopping = true
    · exact .same (by simp [closed_stopping hstop])
    · have hgoing : s.c.stopping = false := by simpa using hstop
      obtain ⟨hrun, hphase⟩ := hrunning (.inr hgoing) (by simp)
      obtain ⟨_, hc⟩ := closed_client s.c
      obtain ⟨hbefore, hafter⟩ := ((hconn.running hrun).up_of_live (.inr hphase)).tripped
        hrun (r := closed s.c) (by rw [hc])
      rw [if_neg hstop]
      exact .fail hbefore hafter (by simp [closed_going hgoing])
  | CLIENT_RECEIVE chunk =>
    simp only [Sys.callback, Option.map_eq_some_iff, Prod.mk.injEq] at h
    obtain ⟨o, ho, _, rfl⟩ := h
    obtain ⟨frag, hc⟩ := receive_client ho
    exact .same (by split <;> simp [hc])
  | CLIENT_WRITEABLE =>
    simp only [Sys.callback] at h
    split at h
    · cases h
      exact .same rfl
    · split at h <;> cases h <;> exact .same rfl
  | TIMER =>
    simp only [Sys.callback, Option.some.injEq, Prod.mk.injEq] at h
    obtain ⟨_, rfl⟩ := h
    rcases timer_client s.c a.ret with hc | hc <;> exact .same (by split <;> simp [hc])
  | WSI_DESTROY =>
    obtain ⟨wsi, hc⟩ := wsi_destroy_client s.c w
    cases h
    exact .same (by simp [hc])
  | CLIENT_RECEIVE_PONG | CLIENT_APPEND_HANDSHAKE_HEADER =>
    cases h
    exact .same rfl

theorem deliver_fails {e : Event} (h : s.deliver e = some (fs, s'))
    (hstop : s.thread = .destroying → s.c.stopping = true) (hconn : Conn [] s) :
    Fails [] fs s s' := by
  cases e with
  | callback w r a =>
    simp only [Sys.deliver, Option.ite_none_right_eq_some] at h
    exact callback_fails h.2 h.1 hstop hconn
  | exit =>
    simp only [Sys.deliver, Option.ite_none_right_eq_some, Option.map_eq_some_iff,
      Prod.mk.injEq] at h
    obtain ⟨_, ⟨freed, q⟩, _, _, rfl⟩ := h
    exact .same rfl
  | service_thread | event_wait_cancelled _ | sul_reconnect_cb | context_destroyed =>
    simp only [Sys.deliver, Option.ite_none_right_eq_some, Option.some.injEq, Prod.mk.injEq] at h
    obtain ⟨_, _, rfl⟩ := h
    exact .same rfl

theorem svc_fails {f : Frame} {a : Answer} (h : s.svc f a = some (fs, s'))
    (hrun : s.thread = .running) (hpos : Position (f :: rest) s) (halone : Alone (f :: rest) s) :
    Fails (f :: rest) (fs ++ rest) s s' := by
  cases f with
  | connection_error msg =>
    simp only [Sys.svc, Option.some.injEq, Prod.mk.injEq] at h
    obtain ⟨rfl, rfl⟩ := h
    by_cases hstop : s.c.stopping = true
    · exact .same (by simp [connection_error_stopping hstop])
    · have hgoing : s.c.stopping = false := by simpa using hstop
      have hinside : s.NoLive ∧ ∀ g ∈ rest, g.spent = true := by
        cases hpos with
        | up _ hfs _ => rcases hfs with hfs | hfs | hfs <;> cases hfs
        | down hfs _ => rcases hfs with hfs | hfs | hfs <;> cases hfs
        | sending v f hfs hf _ _ =>
          cases hfs
          exact absurd hf id
        | connect hfs _ _ _ => cases hfs
        | failing gs hfs hgs hnone _ =>
          refine ⟨hnone, fun g hg => ?_⟩
          have hmem : g ∈ gs ++ [Frame.connect_return false] := hfs ▸ List.mem_cons_of_mem _ hg
          rcases List.mem_append.mp hmem with hmem | hmem
          · have hnested := hgs g hmem
            have hother := halone.behind g hg
            cases g with
            | connection_error msg' => exact absurd rfl (hother msg')
            | wsi_destroy _ | schedule_reconnect => rfl
            | _ => cases hnested
          · rw [List.mem_singleton.mp hmem]
            rfl
      rw [if_neg hstop]
      refine .fail (fun htripped => ?_) ⟨?_, ?_, ?_, ?_⟩ (by simp [connection_error_going hgoing])
      · cases htripped.svc (.connection_error msg) List.mem_cons_self
      · exact hinside.1.of_phase fun v => by simp
      · rw [Sys.act_c, (connection_error_link s msg).1]
        exact halone.failing msg rest rfl
      · exact List.forall_mem_cons.mpr ⟨rfl, hinside.2⟩
      · rw [Sys.act_thread, hrun]
        decide
  | do_connect =>
    simp only [Sys.svc] at h
    split at h <;> cases h <;> exact .same rfl
  | connect_return connected =>
    simp only [Sys.svc] at h
    split at h <;> cases h <;> exact .same rfl
  | schedule_reconnect =>
    obtain ⟨_, _, _, hc, _⟩ := schedule_reconnect_client s.c a.ret
    cases h
    exact .same (by simp [hc])
  | wsi_destroy w =>
    obtain ⟨wsi, hc⟩ := wsi_destroy_client s.c w
    cases h
    exact .same (by simp [hc])
  | write w n =>
    simp only [Sys.svc] at h
    split at h <;> cases h <;> exact .same rfl
  | q_head_check | lws_callback_on_writable | event_wait_cancelled =>
    cases h
    exact .same rfl

/-- An API call counts no failure and leaves the timer alone. -/
theorem app_count {f : AppFrame} {a : Answer} {gs : List AppFrame}
    (h : s.app f a = some (gs, s')) :
    s'.c.reconnect_fail_count = s.c.reconnect_fail_count ∧ s'.c.sul = s.c.sul := by
  cases f with
  | enqueue_msg data is_binary => cases data <;> cases h <;> exact ⟨rfl, rfl⟩
  | enqueue_msg_locked data is_binary =>
    simp only [Sys.app, Option.some.injEq, Prod.mk.injEq] at h
    obtain ⟨_, rfl⟩ := h
    rcases enqueue_msg_locked_spec s.c data is_binary a.ok with ⟨n, heq, _⟩ | heq <;> simp [heq]
  | wsl_start =>
    simp only [Sys.app] at h
    split at h
    · cases h
      exact ⟨rfl, rfl⟩
    · split at h <;> cases h <;> exact ⟨rfl, rfl⟩
  | start_thread | wsl_stop | stop_context =>
    simp only [Sys.app] at h
    split at h <;> cases h <;> exact ⟨rfl, rfl⟩
  | stop_join | stop_context_destroyed =>
    simp only [Sys.app, Option.ite_none_right_eq_some, Option.some.injEq, Prod.mk.injEq] at h
    obtain ⟨_, _, rfl⟩ := h
    exact ⟨rfl, rfl⟩
  | enqueue_msg_wake | lws_cancel_service | start_return | stop_cancel | stop_return
  | wsl_destroy =>
    cases h
    exact ⟨rfl, rfl⟩

theorem schedule_reconnect_asks {c : wsl_client} (hasks : c.asks = true) (ret : Int) :
    ∃ delay, .on_reconnect_decision c.reconnect_fail_count delay ∈ (schedule_reconnect c ret).2 := by
  rw [wsl_client.asks] at hasks
  unfold schedule_reconnect
  simp only [hasks, if_true]
  split <;> exact ⟨_, List.mem_cons_self⟩

/-- A callback goes on to one section at most. -/
theorem callback_alone {w : WsiId} {a : Answer} {r : Reason} (h : s.callback w a r = some (fs, s')) :
    fs = [] ∨ ∃ f, fs = [f] ∧ ∀ msg, f ≠ .connection_error msg := by
  cases r with
  | CLIENT_RECEIVE chunk =>
    simp only [Sys.callback, Option.map_eq_some_iff, Prod.mk.injEq] at h
    obtain ⟨_, _, rfl, _⟩ := h
    exact .inl rfl
  | CLIENT_WRITEABLE =>
    simp only [Sys.callback] at h
    split at h
    · cases h
      exact .inr ⟨_, rfl, by simp⟩
    · split at h <;> cases h
      · exact .inl rfl
      · exact .inr ⟨_, rfl, by simp⟩
  | CLIENT_CONNECTION_ERROR _ | CLIENT_CLOSED =>
    simp only [Sys.callback, Option.some.injEq, Prod.mk.injEq] at h
    obtain ⟨rfl, _⟩ := h
    split
    · exact .inl rfl
    · exact .inr ⟨_, rfl, by simp⟩
  | CLIENT_ESTABLISHED =>
    cases h
    exact .inr ⟨_, rfl, by simp⟩
  | TIMER | CLIENT_RECEIVE_PONG | WSI_DESTROY | CLIENT_APPEND_HANDSHAKE_HEADER =>
    cases h
    exact .inl rfl

theorem deliver_alone {e : Event} (h : s.deliver e = some (fs, s')) :
    fs = [] ∨ ∃ f, fs = [f] ∧ ∀ msg, f ≠ .connection_error msg := by
  cases e with
  | callback w r a =>
    simp only [Sys.deliver, Option.ite_none_right_eq_some] at h
    exact callback_alone h.2
  | sul_reconnect_cb =>
    simp only [Sys.deliver, Option.ite_none_right_eq_some, Option.some.injEq, Prod.mk.injEq] at h
    obtain ⟨_, rfl, _⟩ := h
    split
    · exact .inl rfl
    · exact .inr ⟨_, rfl, by simp⟩
  | exit =>
    simp only [Sys.deliver, Option.ite_none_right_eq_some, Option.map_eq_some_iff,
      Prod.mk.injEq] at h
    obtain ⟨_, _, _, rfl, _⟩ := h
    exact .inl rfl
  | service_thread | event_wait_cancelled _ =>
    simp only [Sys.deliver, Option.ite_none_right_eq_some, Option.some.injEq, Prod.mk.injEq] at h
    obtain ⟨_, rfl, _⟩ := h
    exact .inr ⟨_, rfl, by simp⟩
  | context_destroyed =>
    simp only [Sys.deliver, Option.ite_none_right_eq_some, Option.some.injEq, Prod.mk.injEq] at h
    obtain ⟨_, rfl, _⟩ := h
    exact .inl rfl

section runs

variable {cfg cfg' mid : Config} {l : Label} {c : wsl_client}

/-- What is known of each configuration of a run. -/
structure Known (cfg : Config) : Prop where
  life : Lifecycle cfg
  conn : Conn cfg.svc cfg.shared
  started : cfg.shared.thread ≠ .none → starts cfg.shared.trace ≠ 0
  alone : Alone cfg.svc cfg.shared
  asks : cfg.shared.c.asks = true

theorem alone_step (hmove : system.Moves cfg l cfg') (hlife : Lifecycle cfg)
    (hconn : Conn cfg.svc cfg.shared) (h : Alone cfg.svc cfg.shared) :
    Alone cfg'.svc cfg'.shared := by
  cases hmove with
  | event hdeliver => exact .of_single (deliver_alone hdeliver)
  | svc hsvc => exact svc_alone hsvc (hconn.running (hlife.busy (by simp))) h
  | call _ _ => exact h
  | app _ happ =>
    exact ⟨h.behind, fun msg rest hfs => (app_count happ).2.trans (h.failing msg rest hfs)⟩

theorem Reaches.known {ok : Config → Label → Prop} (hc : c.Fresh) (hasks : c.asks = true)
    (h : system.Reaches ok (initial c) cfg) : Known cfg := by
  have hreach : ∀ {next}, system.Reaches ok (initial c) next → Reachable next := fun hnext =>
    ⟨c, hc, hnext.mono fun _ _ _ => trivial⟩
  refine ⟨(hreach h).lifecycle, (hreach h).conn, (hreach h).single_run.not_fresh, ?_,
    (Reaches.same_config h).asks.trans hasks⟩
  exact h.invariant_under (I := fun next => Alone next.svc next.shared)
    (J := fun next => Lifecycle next ∧ Conn next.svc next.shared)
    (fun next hnext => ⟨(hreach hnext).lifecycle, (hreach hnext).conn⟩) (.of_single (.inl rfl))
    fun _ _ _ ⟨hlife, hconn⟩ _ hmove => alone_step hmove hlife hconn

theorem fails_step (hmove : system.Moves cfg l cfg') (hknown : Known cfg) :
    Fails cfg.svc cfg'.svc cfg.shared cfg'.shared := by
  cases hmove with
  | event hdeliver => exact deliver_fails hdeliver hknown.life.owner.destroying hknown.conn
  | svc hsvc =>
    have hrun := hknown.life.busy (by simp)
    exact svc_fails hsvc hrun (hknown.conn.running hrun) hknown.alone
  | call _ _ => exact .same rfl
  | app _ happ => exact .same (app_count happ).1

/-- A tripped client stays tripped until its next start. -/
theorem tripped_step (hmove : system.Moves cfg l cfg') (hknown : Known cfg)
    (hlimits : hook.Limits max) (hok : answered hook cfg l = true)
    (hcount : cfg.svc ≠ [] → max ≤ cfg.shared.c.reconnect_fail_count)
    (hstarts : starts cfg'.shared.trace = starts cfg.shared.trace)
    (htripped : Tripped cfg.svc cfg.shared) :
    Tripped cfg'.svc cfg'.shared ∧ connects cfg'.shared.trace = connects cfg.shared.trace := by
  cases hmove with
  | event hdeliver => exact deliver_tripped hdeliver htripped
  | @svc f a s s' app rest fs hsvc =>
    refine svc_tripped hsvc ?_ htripped
    rintro rfl
    have hasks : s.c.asks = true := hknown.asks
    have hanswered : hook.answers (schedule_reconnect s.c a.ret).2 a.ret = true := by
      simpa [answered] using hok
    obtain ⟨delay, hcall⟩ := schedule_reconnect_asks hasks a.ret
    exact ⟨hasks, hlimits.answer hanswered hcall (hcount (by simp))⟩
  | call _ _ => exact ⟨htripped, rfl⟩
  | app _ happ => exact app_tripped happ hstarts htripped

/-- The failures are bounded by `max` and the restarts, and a client whose
    failures have reached the bound is tripped. -/
structure Counted (max : Int) (cfg : Config) : Prop where
  bound : cfg.shared.c.reconnect_fail_count < max + starts cfg.shared.trace
  tripped : cfg.shared.c.reconnect_fail_count + 1 = max + starts cfg.shared.trace →
    Tripped cfg.svc cfg.shared

theorem Counted.step (hmove : system.Moves cfg l cfg') (hmax : 1 ≤ max) (hknown : Known cfg)
    (hlimits : hook.Limits max) (hok : answered hook cfg l = true) (h : Counted max cfg) :
    Counted max cfg' := by
  have hbound := h.bound
  have hgrows := starts_monotone hmove
  cases fails_step hmove hknown with
  | same hcount =>
    refine ⟨by omega, fun heq => ?_⟩
    refine (tripped_step hmove hknown hlimits hok (fun hne => ?_) (by omega)
      (h.tripped (by omega))).1
    have hstarted := hknown.started (by rw [hknown.life.busy hne]; decide)
    omega
  | reset hrun _ hzero =>
    have hstarted := hknown.started (by rw [hrun]; decide)
    exact ⟨by omega, fun heq => by omega⟩
  | fail hbefore hafter hcount =>
    refine ⟨?_, fun _ => hafter⟩
    by_contra hover
    exact hbefore (h.tripped (by omega))

theorem Reaches.counted (hc : c.Fresh) (hasks : c.asks = true) (hmax : 1 ≤ max)
    (hlimits : hook.Limits max)
    (h : system.Reaches (fun cfg l => answered hook cfg l = true) (initial c) cfg) :
    Counted max cfg := by
  have hzero : (initial c).shared.c.reconnect_fail_count = 0 := hc.fail_count
  have hnone : starts (initial c).shared.trace = 0 := rfl
  refine h.invariant_under (fun _ hmid => Reaches.known hc hasks hmid) ⟨?_, fun _ => ?_⟩
    fun _ _ _ hknown hok hmove => Counted.step hmove hmax hknown hlimits hok
  · rw [hzero, hnone, Nat.cast_zero]
    omega
  · exact ⟨fun w hlive => by simp [initial, lws_context.Live, lws_context.phase] at hlive, hc.sul,
      fun f hf => (by cases hf), by simp [initial]⟩

/-- A client that is tripped with `max` failures is so until its next start. -/
theorem tripped_until_start {first : Config} (hlimits : hook.Limits max)
    (hknown : ∀ next, system.Reaches (fun cfg l => answered hook cfg l = true) first next → Known next)
    (hcount : max ≤ first.shared.c.reconnect_fail_count) (htripped : Tripped first.svc first.shared)
    (h : system.Reaches (fun cfg l => answered hook cfg l = true) first cfg')
    (hstarts : starts cfg'.shared.trace = starts first.shared.trace) :
    Tripped cfg'.svc cfg'.shared ∧ connects cfg'.shared.trace = connects first.shared.trace := by
  have hstill : starts first.shared.trace ≤ starts cfg'.shared.trace ∧
      (starts cfg'.shared.trace = starts first.shared.trace →
        max ≤ cfg'.shared.c.reconnect_fail_count ∧ Tripped cfg'.svc cfg'.shared ∧
          connects cfg'.shared.trace = connects first.shared.trace) := by
    refine h.invariant_under (J := Known) (I := fun next =>
        starts first.shared.trace ≤ starts next.shared.trace ∧
        (starts next.shared.trace = starts first.shared.trace →
          max ≤ next.shared.c.reconnect_fail_count ∧ Tripped next.svc next.shared ∧
            connects next.shared.trace = connects first.shared.trace)) hknown
      ⟨le_rfl, fun _ => ⟨hcount, htripped, rfl⟩⟩ fun next l last hknown hok hmove ⟨hle, hnext⟩ => ?_
    have hgrows := starts_monotone hmove
    refine ⟨hle.trans hgrows, fun heq => ?_⟩
    -- No start lies between `first` and `next` either.
    obtain ⟨hcount, htripped, hsame⟩ := hnext (by omega)
    obtain ⟨hlast, hkept⟩ := tripped_step hmove hknown hlimits hok (fun _ => hcount) (by omega) htripped
    refine ⟨?_, hlast, hkept.trans hsame⟩
    cases fails_step hmove hknown with
    | same hequal => exact hequal ▸ hcount
    | reset _ hbefore _ | fail hbefore _ _ => exact absurd htripped hbefore
  exact (hstill.2 hstarts).2

/-- A hook that refuses from `max` failures in a row on limits its client to so
    many, and to one more for each start after the first, which does not reset
    the count. A failure that reaches `max` or more is the last one before the
    next start, although a connect call that fails asks the hook twice. -/
theorem session_failures_limited (hc : c.Fresh) (hasks : c.asks = true) (hmax : 1 ≤ max)
    (hlimits : hook.Limits max)
    (h : system.Reaches (fun cfg l => answered hook cfg l = true) (initial c) cfg) :
    cfg.shared.c.reconnect_fail_count < max + starts cfg.shared.trace ∧
      ∀ l mid cfg', answered hook cfg l = true → system.step cfg l = some mid →
        cfg.shared.c.reconnect_fail_count < mid.shared.c.reconnect_fail_count →
        max ≤ mid.shared.c.reconnect_fail_count →
        system.Reaches (fun cfg l => answered hook cfg l = true) mid cfg' →
        starts cfg'.shared.trace = starts mid.shared.trace →
          connects cfg'.shared.trace = connects mid.shared.trace ∧
          cfg'.shared.c.sul = none ∧ ∀ w, ¬ cfg'.shared.lws.Live w := by
  refine ⟨(Reaches.counted hc hasks hmax hlimits h).bound,
    fun l mid cfg' hok hstep hfails hcount hlater hstarts => ?_⟩
  have hmid := h.step hok hstep
  have htripped : Tripped mid.svc mid.shared := by
    cases fails_step (System.step_moves hstep) (Reaches.known hc hasks h) with
    | same hequal => omega
    | reset _ _ hzero => omega
    | fail _ hafter _ => exact hafter
  obtain ⟨hend, hsame⟩ := tripped_until_start hlimits
    (fun next hnext => Reaches.known hc hasks (hmid.trans hnext)) hcount htripped hlater hstarts
  exact ⟨hsame, hend.sul, hend.none_live⟩

def start_run : List Label :=
  [.call 0 .wsl_start, .app 0 {}, .app 0 {}, .app 0 {}, .event .service_thread]

def idle_stop_run : List Label :=
  [.call 0 .wsl_stop, .app 0 {}, .app 0 {}, .event .exit, .app 0 {}, .app 0 {},
    .event .context_destroyed, .app 0 {}, .app 0 {}]

/-- A connect call that fails with a CONNECTION_ERROR, and the two answers to it. -/
def failing_attempt (ret ret' : Int) : List Label :=
  [.svc { connect := .refused (some none) true }, .svc {}, .svc { ret }, .svc {}, .svc {},
    .svc { ret := ret' }]

/-- Of two failures after which a client is stopped the first attempt after its
    next start is the third in a row. -/
example : (system.run (fun cfg l => answered (v2_hooks_demo.reconnect_decision 2) cfg l = true)
    (initial asking_client) (start_run ++ failing_attempt 1000 2000 ++
      .event .sul_reconnect_cb :: failing_attempt (-1) (-1) ++ idle_stop_run ++ start_run ++
      failing_attempt (-1) (-1))).map (fun cfg => cfg.shared.c.reconnect_fail_count) = some 3 := by
  decide

/-- The second failure, up to the report of it. -/
def second_failure : List Label :=
  start_run ++ failing_attempt 1000 2000 ++
  .event .sul_reconnect_cb :: (failing_attempt (-1) (-1)).take 1

theorem session_failures_limited_second : ∃ cfg : Config, cfg.svc = [] ∧
    cfg.shared.c.reconnect_fail_count < 2 + starts cfg.shared.trace ∧
    connects cfg.shared.trace = 2 ∧ cfg.shared.c.sul = none := by
  obtain ⟨cfg, hfollows, hok, hmid⟩ : ∃ cfg,
      system.Follows (fun cfg l => answered (v2_hooks_demo.reconnect_decision 2) cfg l = true)
        (initial asking_client) second_failure cfg ∧
      answered (v2_hooks_demo.reconnect_decision 2) cfg (.svc {}) = true ∧
      (system.step cfg (.svc {})).any (fun mid =>
        decide (cfg.shared.c.reconnect_fail_count < mid.shared.c.reconnect_fail_count ∧
          2 ≤ mid.shared.c.reconnect_fail_count ∧ connects mid.shared.trace = 2) &&
        (system.run (fun cfg l => answered (v2_hooks_demo.reconnect_decision 2) cfg l = true) mid
          ((failing_attempt (-1) (-1)).drop 2)).any fun last =>
            decide (starts last.shared.trace = starts mid.shared.trace) && last.svc.isEmpty) = true :=
    System.exists_follows_of_run (by decide)
  obtain ⟨mid, hstep, hmid⟩ := (Option.any_eq_true _ _).mp hmid
  rw [Bool.and_eq_true, decide_eq_true_eq] at hmid
  obtain ⟨⟨hfails, hcount, hconnects⟩, hlast⟩ := hmid
  obtain ⟨last, hrun, hlast⟩ := (Option.any_eq_true _ _).mp hlast
  rw [Bool.and_eq_true, decide_eq_true_eq] at hlast
  have hlater := (System.Follows.of_run hrun).reaches
  have hhook : (v2_hooks_demo.reconnect_decision 2).Limits 2 := refuse_from_limits 2
  obtain ⟨_, hfinal⟩ :=
    session_failures_limited asking_client_fresh rfl (by decide) hhook hfollows.reaches
  obtain ⟨hsame, hsul, _⟩ := hfinal _ _ _ hok hstep hfails hcount hlater hlast.1
  have hend := (hfollows.reaches.step hok hstep).trans hlater
  exact ⟨last, List.isEmpty_iff.mp hlast.2,
    (session_failures_limited asking_client_fresh rfl (by decide) hhook hend).1,
    hsame.trans hconnects, hsul⟩

end runs

end lws_client.ws_client_v2
