import LwsClientDemo.WsClientV2.Lifecycle

open interleaving

namespace lws_client.ws_client_v2

def Sys.NoLive (s : Sys) : Prop := ∀ v, ¬ s.lws.Live v

/-- The one live connection is `w`, it is the one in `c->wsi`, the reconnect
    timer is not armed, and `state` says how far the connection is. -/
structure Up (s : Sys) (w : WsiId) : Prop where
  wsi : s.c.wsi = some w
  only : ∀ v, s.lws.Live v → v = w
  sul : s.c.sul = none
  state : (s.lws.phase w = some .connecting ∧ s.c.state = .STATE_CONNECTING) ∨
    (s.lws.phase w = some .established ∧ s.c.state = .STATE_CONNECTED)

/-- No connection is live and none is being made. -/
structure Down (s : Sys) : Prop where
  none_live : s.NoLive
  state : s.c.state = .STATE_RECONNECT_WAIT ∨ s.c.state = .STATE_STOPPED

/-- Sections that lws runs inside a connect call that fails. -/
def Frame.nested : Frame → Bool
  | .connection_error _ | .wsi_destroy _ | .schedule_reconnect => true
  | _ => false

/-- Sections of `CLIENT_ESTABLISHED` and `CLIENT_WRITEABLE` of connection `w`. -/
def Frame.sending (w : WsiId) : Frame → Prop
  | .q_head_check | .lws_callback_on_writable => True
  | .write v _ => v = w
  | _ => False

/-- Where the running service thread can be, and what it knows there. -/
inductive Position (fs : List Frame) (s : Sys) : Prop where
  | up (w : WsiId) : fs = [] ∨ fs = [.event_wait_cancelled] ∨ fs = [.connect_return true] →
      Up s w → Position fs s
  | down : fs = [] ∨ fs = [.event_wait_cancelled] ∨ fs = [.schedule_reconnect] →
      Down s → Position fs s
  | sending (w : WsiId) (f : Frame) : fs = [f] → f.sending w → Up s w →
      s.c.state = .STATE_CONNECTED → Position fs s
  | connect : fs = [.do_connect] → s.NoLive → s.c.sul = none →
      s.c.state ≠ .STATE_CONNECTED → Position fs s
  | failing (gs : List Frame) : fs = gs ++ [.connect_return false] →
      (∀ g ∈ gs, g.nested = true) → s.NoLive → s.c.state ≠ .STATE_CONNECTED → Position fs s

/-- The fields that a position speaks about are the same. -/
structure SameLink (s s' : Sys) : Prop where
  wsi : s'.c.wsi = s.c.wsi
  sul : s'.c.sul = s.c.sul
  state : s'.c.state = s.c.state
  phase : ∀ v, s'.lws.phase v = s.lws.phase v

theorem SameLink.live_iff {s s' : Sys} (h : SameLink s s') (v : WsiId) :
    s'.lws.Live v ↔ s.lws.Live v := by
  simp only [lws_context.Live, h.phase]

theorem SameLink.noLive {s s' : Sys} (h : SameLink s s') (hnone : s.NoLive) : s'.NoLive :=
  fun v hlive => hnone v ((h.live_iff v).mp hlive)

theorem Up.congr {s s' : Sys} {w : WsiId} (h : Up s w) (hs : SameLink s s') : Up s' w := by
  refine ⟨hs.wsi.trans h.wsi, fun v hlive => h.only v ((hs.live_iff v).mp hlive),
    hs.sul.trans h.sul, ?_⟩
  rw [hs.phase, hs.state]
  exact h.state

theorem Down.congr {s s' : Sys} (h : Down s) (hs : SameLink s s') : Down s' := by
  refine ⟨hs.noLive h.none_live, ?_⟩
  rw [hs.state]
  exact h.state

theorem Position.congr {fs : List Frame} {s s' : Sys} (h : Position fs s) (hs : SameLink s s') :
    Position fs s' := by
  cases h with
  | up w hfs hup => exact .up w hfs (hup.congr hs)
  | down hfs hdown => exact .down hfs (hdown.congr hs)
  | sending w f hfs hf hup hstate => exact .sending w f hfs hf (hup.congr hs) (hs.state.trans hstate)
  | connect hfs hnone hsul hstate =>
    exact .connect hfs (hs.noLive hnone) (hs.sul.trans hsul) (hs.state ▸ hstate)
  | failing gs hfs hnested hnone hstate =>
    exact .failing gs hfs hnested (hs.noLive hnone) (hs.state ▸ hstate)

theorem Up.live {s : Sys} {w : WsiId} (h : Up s w) : s.lws.Live w := by
  rcases h.state with ⟨hphase, _⟩ | ⟨hphase, _⟩
  · exact .inl hphase
  · exact .inr hphase

theorem Up.established {s : Sys} {w : WsiId} (h : Up s w) (hstate : s.c.state = .STATE_CONNECTED) :
    s.lws.phase w = some .established := by
  rcases h.state with ⟨_, hconnecting⟩ | ⟨hphase, _⟩
  · rw [hstate] at hconnecting
    cases hconnecting
  · exact hphase

/-- An idle service thread with a live connection is up, and on that one. -/
theorem Position.up_of_live {s : Sys} {v : WsiId} (h : Position [] s) (hlive : s.lws.Live v) :
    Up s v := by
  cases h with
  | up w _ hup =>
    rw [hup.only v hlive]
    exact hup
  | down _ hdown => exact absurd hlive (hdown.none_live v)
  | sending w f hfs _ _ _ => cases hfs
  | connect hfs _ _ _ => cases hfs
  | failing gs hfs _ _ _ => simp at hfs

theorem Position.idle {s : Sys} (h : Position [] s) : (∃ w, Up s w) ∨ Down s := by
  cases h with
  | up w _ hup => exact .inl ⟨w, hup⟩
  | down _ hdown => exact .inr hdown
  | sending w f hfs _ _ _ => cases hfs
  | connect hfs _ _ _ => cases hfs
  | failing gs hfs _ _ _ => simp at hfs

/-- A WRITEABLE callback runs alone, and on the one live connection. -/
theorem Position.write {s : Sys} {w : WsiId} {n : ws_msg_node_t} {rest : List Frame}
    (h : Position (.write w n :: rest) s) : rest = [] ∧ Up s w := by
  cases h with
  | up _ hfs _ => rcases hfs with hfs | hfs | hfs <;> cases hfs
  | down hfs _ => rcases hfs with hfs | hfs | hfs <;> cases hfs
  | sending v f hfs hf hup _ =>
    cases hfs
    obtain rfl : w = v := hf
    exact ⟨rfl, hup⟩
  | connect hfs _ _ _ => cases hfs
  | failing gs hfs hgs _ _ =>
    cases gs with
    | nil => cases hfs
    | cons g gs =>
      simp only [List.cons_append, List.cons.injEq] at hfs
      have hg := hgs g (by simp)
      rw [← hfs.1] at hg
      cases hg

/-- A connect call is made alone. -/
theorem Position.do_connect_alone {s : Sys} {rest : List Frame}
    (h : Position (.do_connect :: rest) s) : rest = [] := by
  cases h with
  | up _ hfs _ | down hfs _ => rcases hfs with hfs | hfs | hfs <;> cases hfs
  | sending v f hfs hf _ _ =>
    cases hfs
    exact absurd hf id
  | connect hfs _ _ _ =>
    cases hfs
    rfl
  | failing gs hfs hgs _ _ =>
    cases gs with
    | nil => cases hfs
    | cons g gs =>
      simp only [List.cons_append, List.cons.injEq] at hfs
      have hg := hgs g (by simp)
      rw [← hfs.1] at hg
      cases hg

/-- No connection is live when one is to be made. -/
theorem Position.connecting {s : Sys} {rest : List Frame}
    (h : Position (.do_connect :: rest) s) : s.NoLive := by
  cases h with
  | up _ hfs _ => rcases hfs with hfs | hfs | hfs <;> cases hfs
  | down _ hdown => exact hdown.none_live
  | sending v f hfs hf _ _ =>
    cases hfs
    exact absurd hf id
  | connect _ hnone _ _ => exact hnone
  | failing _ _ _ hnone _ => exact hnone

/-- Inside a connect call no connection is live. -/
theorem Position.destroy {s : Sys} {w : WsiId} {rest : List Frame}
    (h : Position (.wsi_destroy w :: rest) s) : s.c.state ≠ .STATE_CONNECTED := by
  cases h with
  | up _ hfs _ => rcases hfs with hfs | hfs | hfs <;> cases hfs
  | down hfs _ => rcases hfs with hfs | hfs | hfs <;> cases hfs
  | sending v f hfs hf _ _ =>
    cases hfs
    exact absurd hf id
  | connect hfs _ _ _ => cases hfs
  | failing _ _ _ _ hstate => exact hstate

/-- While the service thread runs it is in a position; before it runs and after
    it there is no connection and no timer, and a new client is idle. -/
structure Conn (fs : List Frame) (s : Sys) : Prop where
  running : s.thread = .running → Position fs s
  created : s.thread = .created → s.NoLive ∧ s.c.sul = none ∧ s.c.state = .STATE_IDLE
  none : s.thread = .none →
    s.NoLive ∧ s.c.sul = none ∧ (s.c.state = .STATE_IDLE ∨ s.c.stopping = true)

theorem schedule_reconnect_state (c : wsl_client) (ret : Int) :
    (schedule_reconnect c ret).1.state = .STATE_RECONNECT_WAIT ∨
      (schedule_reconnect c ret).1.state = .STATE_STOPPED := by
  obtain ⟨_, _, _, hc, hstate⟩ := schedule_reconnect_client c ret
  rw [hc]
  exact hstate

theorem Sys.NoLive.of_phase {s s' : Sys} (hphase : ∀ v, s'.lws.phase v = s.lws.phase v)
    (h : s.NoLive) : s'.NoLive := by
  intro v hlive
  simp only [lws_context.Live, hphase] at hlive
  exact h v hlive

/-- A connection that ends leaves none when it was the only one. -/
theorem Sys.NoLive.of_closed {s s' : Sys} {w : WsiId} (honly : ∀ v, s.lws.Live v → v = w)
    (hphase : ∀ v, s'.lws.phase v = if v = w then (s.lws.phase w).map (fun _ => .closed)
      else s.lws.phase v) : s'.NoLive := by
  intro v hlive
  by_cases hv : v = w
  · subst hv
    simp only [lws_context.Live, hphase, if_true, Option.map_eq_some_iff] at hlive
    rcases hlive with ⟨_, _, h⟩ | ⟨_, _, h⟩ <;> cases h
  · simp only [lws_context.Live, hphase, if_neg hv] at hlive
    exact hv (honly v hlive)

theorem connection_error_link (s : Sys) (msg : Option String) :
    (connection_error s.c msg).1.sul = s.c.sul ∧
      (connection_error s.c msg).1.state = .STATE_RECONNECT_WAIT := by
  obtain ⟨n, hc⟩ := connection_error_client s.c msg
  rw [hc]
  exact ⟨rfl, rfl⟩

private theorem failing_cons {f : Frame} {rest gs : List Frame}
    (hfs : f :: rest = gs ++ [.connect_return false]) :
    (f = .connect_return false ∧ gs = [] ∧ rest = []) ∨
      ∃ gs', gs = f :: gs' ∧ rest = gs' ++ [.connect_return false] := by
  cases gs with
  | nil =>
    simp only [List.nil_append, List.cons.injEq] at hfs
    exact .inl ⟨hfs.1, rfl, hfs.2⟩
  | cons g gs' =>
    simp only [List.cons_append, List.cons.injEq] at hfs
    exact .inr ⟨gs', by rw [hfs.1], hfs.2⟩

/-- The sections inside a failing connect call stay inside it. -/
theorem svc_position_failing {f : Frame} {a : Answer} {s s' : Sys} {gs fs : List Frame}
    (h : s.svc f a = some (fs, s')) (hf : f.nested = true) (hgs : ∀ g ∈ gs, g.nested = true)
    (hnone : s.NoLive) (hstate : s.c.state ≠ .STATE_CONNECTED) :
    Position (fs ++ (gs ++ [.connect_return false])) s' := by
  cases f with
  | connection_error msg =>
    simp only [Sys.svc, Option.some.injEq, Prod.mk.injEq] at h
    obtain ⟨rfl, rfl⟩ := h
    have hlink := connection_error_link s msg
    refine .failing ((if s.c.stopping then [] else [.schedule_reconnect]) ++ gs) (by simp) ?_
      (hnone.of_phase fun v => by simp) ?_
    · intro g hg
      rcases List.mem_append.mp hg with hg | hg
      · split at hg
        · simp at hg
        · obtain rfl : g = .schedule_reconnect := by simpa using hg
          rfl
      · exact hgs g hg
    · simp [hlink.2]
  | wsi_destroy w =>
    obtain ⟨wsi, hc⟩ := wsi_destroy_client s.c w
    simp only [Sys.svc, Option.some.injEq, Prod.mk.injEq] at h
    obtain ⟨rfl, rfl⟩ := h
    refine .failing gs (by simp) hgs (hnone.of_phase fun v => by simp) ?_
    simp only [Sys.act_c, hc]
    exact hstate
  | schedule_reconnect =>
    simp only [Sys.svc, Option.some.injEq, Prod.mk.injEq] at h
    obtain ⟨rfl, rfl⟩ := h
    refine .failing gs (by simp) hgs (hnone.of_phase fun v => by simp) ?_
    rcases schedule_reconnect_state s.c a.ret with hwait | hstop
    · simp [hwait]
    · simp [hstop]
  | _ => simp [Frame.nested] at hf

/-- Writing, and asking for WRITEABLE, keep the connection as it is. -/
theorem svc_position_sending {f : Frame} {a : Answer} {s s' : Sys} {w : WsiId} {fs : List Frame}
    (h : s.svc f a = some (fs, s')) (hf : f.sending w) (hup : Up s w)
    (hstate : s.c.state = .STATE_CONNECTED) : Position fs s' := by
  cases f with
  | q_head_check =>
    simp only [Sys.svc, Option.some.injEq, Prod.mk.injEq] at h
    obtain ⟨rfl, rfl⟩ := h
    split
    · exact .sending w .lws_callback_on_writable rfl trivial hup hstate
    · exact .up w (.inl rfl) hup
  | lws_callback_on_writable =>
    cases h
    exact .up w (.inl rfl) (hup.congr ⟨rfl, rfl, rfl, fun v => by simp⟩)
  | write v n =>
    simp only [Sys.svc] at h
    split at h
    · cases h
      exact .up w (.inl rfl) (hup.congr ⟨rfl, rfl, rfl, fun v => by simp⟩)
    · cases h
      exact .sending w .q_head_check rfl trivial (hup.congr ⟨rfl, rfl, rfl, fun v => by simp⟩) hstate
  | _ => simp [Frame.sending] at hf

/-- A connect call leaves a connection in `c->wsi`, or goes on failing. -/
theorem svc_position_connect {a : Answer} {s s' : Sys} {fs : List Frame}
    (h : s.svc .do_connect a = some (fs, s')) (hnone : s.NoLive) (hsul : s.c.sul = none) :
    Position fs s' := by
  simp only [Sys.svc] at h
  split at h
  · cases h
    refine .up s.lws.next (.inr (.inr rfl)) ⟨rfl, ?_, hsul, .inl ⟨by simp [lws_context.perform,
      lws_context.performs], rfl⟩⟩
    intro v hlive
    by_contra hv
    refine hnone v ?_
    simpa [lws_context.Live, lws_context.perform, lws_context.performs, hv] using hlive
  · next error destroyed _ =>
    cases h
    refine .failing ((error.map Frame.connection_error).toList ++
      (if destroyed then [.wsi_destroy s.lws.next] else [])) rfl ?_ (hnone.of_phase fun v => rfl)
      (by simp)
    intro g hg
    cases error <;> cases destroyed <;> simp at hg <;> rcases hg with rfl | rfl <;> rfl

/-- Each section leads from a position to a position. -/
theorem svc_position {f : Frame} {a : Answer} {s s' : Sys} {rest fs : List Frame}
    (h : s.svc f a = some (fs, s')) (hpos : Position (f :: rest) s) : Position (fs ++ rest) s' := by
  cases hpos with
  | up w hfs hup =>
    rcases hfs with hfs | hfs | hfs <;> cases hfs <;> cases h
    · exact .up w (.inl rfl) (hup.congr ⟨rfl, rfl, rfl, fun v => by simp⟩)
    · exact .up w (.inl rfl) hup
  | down hfs hdown =>
    rcases hfs with hfs | hfs | hfs <;> cases hfs
    · cases h
      exact .down (.inl rfl) (hdown.congr ⟨rfl, rfl, rfl, fun v => by simp⟩)
    · simp only [Sys.svc, Option.some.injEq, Prod.mk.injEq] at h
      obtain ⟨rfl, rfl⟩ := h
      exact .down (.inl rfl)
        ⟨hdown.none_live.of_phase fun v => by simp, schedule_reconnect_state s.c a.ret⟩
  | sending w g hfs hf hup hstate =>
    cases hfs
    simpa using svc_position_sending h hf hup hstate
  | connect hfs hnone hsul _ =>
    cases hfs
    simpa using svc_position_connect h hnone hsul
  | failing gs hfs hgs hnone hstate =>
    rcases failing_cons hfs with ⟨rfl, rfl, rfl⟩ | ⟨gs', rfl, rfl⟩
    · cases h
      exact .down (.inr (.inr rfl)) ⟨hnone.of_phase fun v => by simp, .inl rfl⟩
    · exact svc_position_failing h (hgs f (by simp)) (fun g hg => hgs g (by simp [hg])) hnone hstate

/-- Callbacks of an open connection leave it as it is. -/
theorem callback_position_open {w : WsiId} {a : Answer} {r : Reason} {s s' : Sys}
    {fs : List Frame} (h : s.callback w a r = some (fs, s')) (hup : Up s w)
    (hstate : s.c.state = .STATE_CONNECTED)
    (hr : match r with
      | .CLIENT_RECEIVE _ | .CLIENT_WRITEABLE | .TIMER | .CLIENT_RECEIVE_PONG => True
      | _ => False) : Position fs s' := by
  have htaken : ∀ v, (s.lws.modify w fun i => { i with writable := false }).phase v = s.lws.phase v :=
    fun v => s.lws.phase_modify_same w v fun _ => rfl
  have hfired : ∀ v, (s.lws.modify w fun i => { i with timer := none }).phase v = s.lws.phase v :=
    fun v => s.lws.phase_modify_same w v fun _ => rfl
  cases r with
  | CLIENT_RECEIVE chunk =>
    simp only [Sys.callback, Option.map_eq_some_iff, Prod.mk.injEq] at h
    obtain ⟨o, ho, rfl, rfl⟩ := h
    obtain ⟨frag, hc⟩ := receive_client ho
    refine .up w (.inl rfl) (hup.congr ?_)
    split <;> exact ⟨by simp [hc], by simp [hc], by simp [hc], fun v => by simp⟩
  | CLIENT_WRITEABLE =>
    simp only [Sys.callback] at h
    split at h
    · cases h
      refine .sending w .q_head_check rfl trivial (hup.congr ⟨rfl, rfl, rfl, fun v => ?_⟩) hstate
      rw [Sys.act_lws, lws_context.phase_performs, Sys.setLws_lws, htaken]
    · split at h
      · cases h
        exact .up w (.inl rfl) (hup.congr ⟨rfl, rfl, rfl, htaken⟩)
      · next n q _ =>
        cases h
        exact .sending w (.write w n) rfl rfl
          (hup.congr ⟨rfl, rfl, rfl, htaken⟩) hstate
  | TIMER =>
    simp only [Sys.callback, Option.some.injEq, Prod.mk.injEq] at h
    obtain ⟨rfl, rfl⟩ := h
    refine .up w (.inl rfl) (hup.congr ?_)
    rcases timer_client s.c a.ret with hc | hc <;> split <;>
      exact ⟨by simp [hc], by simp [hc], by simp [hc], fun v => by
        simp only [Sys.setLws_lws, Sys.act_lws, lws_context.phase_fail, lws_context.phase_performs,
          hfired]⟩
  | CLIENT_RECEIVE_PONG =>
    cases h
    exact .up w (.inl rfl) (hup.congr ⟨rfl, rfl, rfl, fun v => by simp⟩)
  | _ => exact absurd hr id

/-- Each callback leads from an idle service thread to a position. -/
theorem callback_position {w : WsiId} {a : Answer} {r : Reason} {s s' : Sys} {fs : List Frame}
    (h : s.callback w a r = some (fs, s')) (henabled : s.callback_enabled w r = true)
    (hrun : s.thread = .running) (hpos : Position [] s) : Position fs s' := by
  have hlive : s.lws.phase w = some .connecting ∨ s.lws.phase w = some .established → Up s w :=
    hpos.up_of_live
  cases r with
  | CLIENT_ESTABLISHED =>
    simp [Sys.callback_enabled, lws_context.enables, hrun] at henabled
    have hup := hlive (.inl henabled)
    cases h
    refine .sending w .q_head_check rfl trivial ⟨hup.wsi, ?_, hup.sul, .inr ⟨by simp [henabled], rfl⟩⟩ rfl
    intro v hv
    by_contra hne
    refine hne (hup.only v ?_)
    simpa [lws_context.Live, hne] using hv
  | CLIENT_RECEIVE chunk | CLIENT_WRITEABLE | CLIENT_RECEIVE_PONG =>
    simp [Sys.callback_enabled, lws_context.enables, hrun] at henabled
    have hup := hlive (.inr henabled)
    refine callback_position_open h hup ?_ trivial
    rcases hup.state with ⟨hphase, _⟩ | ⟨_, hstate⟩
    · rw [henabled] at hphase
      cases hphase
    · exact hstate
  | TIMER =>
    simp [Sys.callback_enabled, lws_context.enables, hrun] at henabled
    have hup := hlive (.inr henabled.1)
    refine callback_position_open h hup ?_ trivial
    rcases hup.state with ⟨hphase, _⟩ | ⟨_, hstate⟩
    · rw [henabled.1] at hphase
      cases hphase
    · exact hstate
  | CLIENT_CONNECTION_ERROR msg =>
    simp [Sys.callback_enabled, lws_context.enables, hrun] at henabled
    have hup := hlive (.inl henabled)
    simp only [Sys.callback, Option.some.injEq, Prod.mk.injEq] at h
    obtain ⟨rfl, rfl⟩ := h
    refine .down ?_ ⟨.of_closed (w := w) hup.only fun v => by simp, .inl ?_⟩
    · split
      · exact .inl rfl
      · exact .inr (.inr rfl)
    · exact (connection_error_link s msg).2
  | CLIENT_CLOSED =>
    simp [Sys.callback_enabled, lws_context.enables, hrun] at henabled
    have hup := hlive (.inr henabled)
    obtain ⟨n, hc⟩ := closed_client s.c
    simp only [Sys.callback, Option.some.injEq, Prod.mk.injEq] at h
    obtain ⟨rfl, rfl⟩ := h
    refine .down ?_ ⟨.of_closed (w := w) hup.only fun v => by simp, .inl (by simp [hc])⟩
    split
    · exact .inl rfl
    · exact .inr (.inr rfl)
  | WSI_DESTROY =>
    simp [Sys.callback_enabled, lws_context.enables, hrun] at henabled
    simp only [Sys.callback, Option.some.injEq, Prod.mk.injEq] at h
    obtain ⟨rfl, rfl⟩ := h
    have hphase : ∀ v, v ≠ w → (s.lws.remove w).phase v = s.lws.phase v := fun v hv => by simp [hv]
    rcases hpos.idle with ⟨u, hup⟩ | hdown
    · have hu : u ≠ w := by
        rintro rfl
        rcases hup.live with hphase | hphase <;> rw [henabled] at hphase <;> cases hphase
      have hc : wsi_destroy s.c w = s.c := by
        rw [wsi_destroy, if_neg]
        rw [hup.wsi]
        simpa using hu
      refine .up u (.inl rfl) ⟨by simpa [hc] using hup.wsi, ?_, by simpa [hc] using hup.sul,
        by simpa [hc, hu] using hup.state⟩
      intro v hv
      by_cases hvw : v = w
      · subst hvw
        simp [lws_context.Live] at hv
      · exact hup.only v (by simpa [lws_context.Live, hvw] using hv)
    · obtain ⟨wsi, hc⟩ := wsi_destroy_client s.c w
      refine .down (.inl rfl) ⟨?_, by simpa [hc] using hdown.state⟩
      intro v hv
      by_cases hvw : v = w
      · subst hvw
        simp [lws_context.Live] at hv
      · exact hdown.none_live v (by simpa [lws_context.Live, hvw] using hv)
  | CLIENT_APPEND_HANDSHAKE_HEADER =>
    cases h
    exact hpos.congr ⟨rfl, rfl, rfl, fun v => by simp⟩

theorem deliver_conn {e : Event} {s s' : Sys} {fs : List Frame}
    (h : s.deliver e = some (fs, s')) (hstop : s.thread = .destroying → s.c.stopping = true)
    (hconn : Conn [] s) : Conn fs s' := by
  cases e with
  | service_thread =>
    simp only [Sys.deliver, Option.ite_none_right_eq_some, Option.some.injEq, Prod.mk.injEq] at h
    obtain ⟨hthread, rfl, rfl⟩ := h
    obtain ⟨hnone, hsul, hstate⟩ := hconn.created hthread
    refine ⟨fun _ => .connect rfl hnone hsul ?_, by simp, by simp⟩
    rw [hstate]
    decide
  | callback w r a =>
    simp only [Sys.deliver, Option.ite_none_right_eq_some] at h
    obtain ⟨henabled, h⟩ := h
    have hthread := (callback_owned h).2.1
    have hactive : s.thread = .running ∨ s.thread = .destroying := by
      cases r <;> simp [Sys.callback_enabled, lws_context.enables] at henabled <;> tauto
    refine ⟨fun hrun => callback_position h henabled (hthread ▸ hrun)
      (hconn.running (hthread ▸ hrun)), ?_, ?_⟩ <;>
    · intro hother
      rw [hthread] at hother
      simp [hother] at hactive
  | event_wait_cancelled wsi =>
    simp only [Sys.deliver, Option.ite_none_right_eq_some, Option.some.injEq, Prod.mk.injEq] at h
    obtain ⟨⟨hrun, _⟩, rfl, rfl⟩ := h
    have hlink : SameLink s (s.setLws { s.lws with cancelled := false }) :=
      ⟨rfl, rfl, rfl, fun _ => rfl⟩
    refine ⟨fun _ => ?_, by simp [hrun], by simp [hrun]⟩
    rcases (hconn.running hrun).idle with ⟨w, hup⟩ | hdown
    · exact .up w (.inr (.inl rfl)) (hup.congr hlink)
    · exact .down (.inr (.inl rfl)) (hdown.congr hlink)
  | sul_reconnect_cb =>
    simp only [Sys.deliver, Option.ite_none_right_eq_some, Option.some.injEq, Prod.mk.injEq] at h
    obtain ⟨⟨hrun, hsul⟩, rfl, rfl⟩ := h
    refine ⟨fun _ => ?_, by simp [hrun], by simp [hrun]⟩
    rcases (hconn.running hrun).idle with ⟨w, hup⟩ | hdown
    · simp [hup.sul] at hsul
    · split
      · exact .down (.inl rfl) ⟨hdown.none_live, hdown.state⟩
      · refine .connect rfl hdown.none_live rfl ?_
        rcases hdown.state with hstate | hstate <;> simp [hstate]
  | exit =>
    simp only [Sys.deliver, Option.ite_none_right_eq_some, Option.map_eq_some_iff,
      Prod.mk.injEq] at h
    obtain ⟨_, ⟨freed, q⟩, _, rfl, rfl⟩ := h
    exact ⟨by simp, by simp, by simp⟩
  | context_destroyed =>
    simp only [Sys.deliver, Option.ite_none_right_eq_some, Option.some.injEq, Prod.mk.injEq] at h
    obtain ⟨hthread, rfl, rfl⟩ := h
    exact ⟨by simp, by simp, fun _ => ⟨by simp [Sys.NoLive, lws_context.Live], rfl, .inr (hstop hthread)⟩⟩

theorem Conn.congr {fs : List Frame} {s s' : Sys} (h : Conn fs s) (hs : SameLink s s')
    (hthread : s'.thread = s.thread) (hstop : s.c.stopping = true → s'.c.stopping = true) :
    Conn fs s' := by
  refine ⟨fun hrun => (h.running (hthread ▸ hrun)).congr hs, fun hcreated => ?_, fun hnone => ?_⟩
  · obtain ⟨hlive, hsul, hstate⟩ := h.created (hthread ▸ hcreated)
    exact ⟨hs.noLive hlive, hs.sul.trans hsul, hs.state.trans hstate⟩
  · obtain ⟨hlive, hsul, hstate⟩ := h.none (hthread ▸ hnone)
    exact ⟨hs.noLive hlive, hs.sul.trans hsul, hstate.imp hs.state.trans hstop⟩

/-- A send changes the queue and the outstanding cancel only. -/
theorem app_sends_link {f : AppFrame} {a : Answer} {s s' : Sys} {fs : List AppFrame}
    (h : s.app f a = some (fs, s')) (hf : f.sends = true) : SameLink s s' := by
  cases f with
  | enqueue_msg data is_binary => cases data <;> cases h <;> exact ⟨rfl, rfl, rfl, fun v => by simp⟩
  | enqueue_msg_locked data is_binary =>
    simp only [Sys.app, Option.some.injEq, Prod.mk.injEq] at h
    obtain ⟨_, rfl⟩ := h
    rcases enqueue_msg_locked_spec s.c data is_binary a.ok with ⟨n, heq, _⟩ | heq <;> rw [heq] <;>
      exact ⟨rfl, rfl, rfl, fun v => by simp⟩
  | enqueue_msg_wake =>
    cases h
    exact ⟨rfl, rfl, rfl, fun v => rfl⟩
  | lws_cancel_service =>
    cases h
    exact ⟨rfl, rfl, rfl, fun v => by simp⟩
  | _ => simp [AppFrame.sends] at hf

theorem app_conn {f : AppFrame} {a : Answer} {s s' : Sys} {gs : List Frame} {fs : List AppFrame}
    (h : s.app f a = some (fs, s')) (howner : f.sends = true ∨ Owner (some f) s)
    (hconn : Conn gs s) : Conn gs s' := by
  by_cases hsends : f.sends = true
  · obtain ⟨howned, hthread, _⟩ := app_sends h hsends
    exact hconn.congr (app_sends_link h hsends) hthread fun hstop => howned.stopping.trans hstop
  · replace howner := howner.resolve_left hsends
    cases f with
    | enqueue_msg _ _ | enqueue_msg_locked _ _ | enqueue_msg_wake | lws_cancel_service =>
      exact absurd rfl hsends
    | wsl_start =>
      simp only [Sys.app] at h
      split at h
      · cases h
        exact hconn
      · next hstarted =>
        split at h
        · cases h
          have hthread : s.thread = .none := by simpa [Owner, hstarted] using howner
          obtain ⟨_, hsul, hstate⟩ := hconn.none hthread
          exact ⟨by simp [hthread], by simp [hthread],
            fun _ => ⟨by simp [Sys.NoLive, lws_context.Live], hsul, hstate⟩⟩
        · cases h
          exact hconn
    | start_thread =>
      obtain ⟨hlive, hsul, _⟩ := hconn.none howner.1
      simp only [Sys.app] at h
      split at h
      · cases h
        exact ⟨by simp, fun _ => ⟨hlive.of_phase fun v => by simp, hsul, rfl⟩, by simp⟩
      · cases h
        have hthread := howner.1
        exact ⟨by simp [hthread], by simp [hthread],
          fun _ => ⟨hlive.of_phase fun v => by simp, hsul, .inl rfl⟩⟩
    | start_return =>
      cases h
      exact hconn.congr ⟨rfl, rfl, rfl, fun v => by simp⟩ rfl id
    | wsl_stop =>
      simp only [Sys.app] at h
      split at h
      · cases h
        exact hconn.congr ⟨rfl, rfl, rfl, fun v => by simp⟩ rfl fun _ => rfl
      · cases h
        exact hconn
    | stop_cancel =>
      cases h
      exact hconn.congr ⟨rfl, rfl, rfl, fun v => by simp⟩ rfl id
    | stop_join =>
      simp only [Sys.app, Option.ite_none_right_eq_some, Option.some.injEq, Prod.mk.injEq] at h
      obtain ⟨_, rfl, rfl⟩ := h
      exact hconn.congr ⟨rfl, rfl, rfl, fun v => by simp⟩ rfl id
    | stop_context =>
      simp only [Sys.app, howner.2.2.1, if_true, Option.some.injEq, Prod.mk.injEq] at h
      obtain ⟨_, rfl⟩ := h
      exact ⟨by simp, by simp, by simp⟩
    | stop_context_destroyed =>
      simp only [Sys.app, Option.ite_none_right_eq_some, Option.some.injEq, Prod.mk.injEq] at h
      obtain ⟨_, rfl, rfl⟩ := h
      exact hconn.congr ⟨rfl, rfl, rfl, fun v => by simp⟩ rfl id
    | stop_return =>
      cases h
      have hthread := howner.1
      obtain ⟨hlive, hsul, _⟩ := hconn.none hthread
      exact ⟨by simp [hthread], by simp [hthread],
        fun _ => ⟨hlive.of_phase fun v => by simp, hsul, .inl rfl⟩⟩
    | wsl_destroy =>
      cases h
      exact hconn.congr ⟨rfl, rfl, rfl, fun v => by simp⟩ rfl id

/-- The frame an owner or sender runs next is known by the life cycle. -/
theorem Lifecycle.frame {s : Sys} {svc : List Frame} {app : Nat → List AppFrame} {t : Nat}
    {f : AppFrame} (h : Lifecycle ⟨s, svc, app⟩) (htop : app t = [f]) :
    f.sends = true ∨ Owner (some f) s := by
  by_cases ht : t = 0
  · subst ht
    have howner := h.owner
    simp only [htop, List.head?_cons] at howner
    exact .inr howner
  · exact .inl (h.others t ht f (by simp [htop]))

theorem Conn.step {cfg cfg' : Config} {l : Label} (hmove : system.Moves cfg l cfg')
    (hlife : Lifecycle cfg) (h : Conn cfg.svc cfg.shared) : Conn cfg'.svc cfg'.shared := by
  cases hmove with
  | event hdeliver => exact deliver_conn hdeliver hlife.owner.destroying h
  | svc hsvc =>
    have hrun := hlife.busy (by simp)
    have hthread := (svc_owned hsvc).2.trans hrun
    exact ⟨fun _ => svc_position hsvc (h.running hrun), by simp [hthread], by simp [hthread]⟩
  | call _ _ => exact h
  | app htop happ =>
    obtain rfl := hlife.rest_nil htop
    exact app_conn happ (hlife.frame htop) h

theorem initial_conn {c : wsl_client} (hc : c.Fresh) :
    Conn (initial c).svc (initial c).shared := by
  refine ⟨by simp [initial], by simp [initial], fun _ => ⟨?_, hc.sul, .inl hc.state⟩⟩
  simp [initial, Sys.NoLive, lws_context.Live, lws_context.phase]

/-- In every run the service thread is in a position while it runs. -/
theorem Reachable.conn {cfg : Config} (h : Reachable cfg) : Conn cfg.svc cfg.shared := by
  obtain ⟨c, hc, hreach⟩ := h
  exact hreach.invariant_under (fun mid hmid => Reachable.lifecycle ⟨c, hc, hmid⟩)
    (initial_conn hc) fun _ _ _ hlife _ hmove => Conn.step hmove hlife

end lws_client.ws_client_v2
