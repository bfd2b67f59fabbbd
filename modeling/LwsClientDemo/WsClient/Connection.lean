import LwsClientDemo.WsClient.Lifecycle

open interleaving

namespace lws_client.ws_client

def Sys.NoLive (s : Sys) : Prop := ∀ v, ¬ s.lws.Live v

/-- The one live connection is `w`, it is the one in `c->wsi`, and `state` says
    how far it is. -/
structure Up (s : Sys) (w : WsiId) : Prop where
  wsi : s.c.wsi = some w
  only : ∀ v, s.lws.Live v → v = w
  state : (s.lws.phase w = some .connecting ∧ s.c.state = .STATE_CONNECTING) ∨
    (s.lws.phase w = some .established ∧ s.c.state = .STATE_CONNECTED)

/-- No connection is live. A stopping client may keep any state. -/
structure Down (s : Sys) : Prop where
  wsi : s.c.wsi = none
  none_live : s.NoLive
  state : s.c.state = .STATE_RECONNECT_WAIT ∨ s.c.stopping = true

/-- Sections that lws runs inside a connect call that fails. -/
def Frame.nested : Frame → Bool
  | .connection_error _ | .wsi_destroy _ => true
  | _ => false

/-- Sections of `CLIENT_WRITEABLE`, or of EVENT_WAIT_CANCELLED, on connection `w`. -/
def Frame.sending (w : WsiId) : Frame → Prop
  | .has_data_check v | .lws_callback_on_writable v | .write v _ _ => v = w
  | _ => False

/-- Where the running service thread can be, and what it knows there. -/
inductive Position (fs : List Frame) (s : Sys) : Prop where
  | up (w : WsiId) : fs = [] ∨ fs = [.event_wait_cancelled] → Up s w → Position fs s
  | down : fs = [] ∨ fs = [.event_wait_cancelled] → Down s → Position fs s
  | sending (w : WsiId) (f : Frame) : fs = [f] → f.sending w → Up s w →
      s.c.state = .STATE_CONNECTED → Position fs s
  | accepted (w : WsiId) : fs = [.connect_return (some w)] → s.lws.phase w = some .connecting →
      (∀ v, s.lws.Live v → v = w) → s.c.state = .STATE_CONNECTING → Position fs s
  | connect : fs = [.do_connect] → s.NoLive → s.c.state ≠ .STATE_CONNECTED → Position fs s
  | failing (gs : List Frame) : fs = gs ++ [.connect_return none] →
      (∀ g ∈ gs, g.nested = true) → s.NoLive → s.c.state ≠ .STATE_CONNECTED → Position fs s

/-- The fields that a position speaks about are the same. -/
structure SameLink (s s' : Sys) : Prop where
  wsi : s'.c.wsi = s.c.wsi
  state : s'.c.state = s.c.state
  stopping : s.c.stopping = true → s'.c.stopping = true
  phase : ∀ v, s'.lws.phase v = s.lws.phase v

theorem SameLink.live_iff {s s' : Sys} (h : SameLink s s') (v : WsiId) :
    s'.lws.Live v ↔ s.lws.Live v := by
  simp only [lws_context.Live, h.phase]

theorem SameLink.noLive {s s' : Sys} (h : SameLink s s') (hnone : s.NoLive) : s'.NoLive :=
  fun v hlive => hnone v ((h.live_iff v).mp hlive)

theorem Up.congr {s s' : Sys} {w : WsiId} (h : Up s w) (hs : SameLink s s') : Up s' w := by
  refine ⟨hs.wsi.trans h.wsi, fun v hlive => h.only v ((hs.live_iff v).mp hlive), ?_⟩
  rw [hs.phase, hs.state]
  exact h.state

theorem Down.congr {s s' : Sys} (h : Down s) (hs : SameLink s s') : Down s' :=
  ⟨hs.wsi.trans h.wsi, hs.noLive h.none_live, h.state.imp hs.state.trans hs.stopping⟩

theorem Position.congr {fs : List Frame} {s s' : Sys} (h : Position fs s) (hs : SameLink s s') :
    Position fs s' := by
  cases h with
  | up w hfs hup => exact .up w hfs (hup.congr hs)
  | down hfs hdown => exact .down hfs (hdown.congr hs)
  | sending w f hfs hf hup hstate => exact .sending w f hfs hf (hup.congr hs) (hs.state.trans hstate)
  | accepted w hfs hphase honly hstate =>
    exact .accepted w hfs ((hs.phase w).trans hphase)
      (fun v hlive => honly v ((hs.live_iff v).mp hlive)) (hs.state.trans hstate)
  | connect hfs hnone hstate => exact .connect hfs (hs.noLive hnone) (hs.state ▸ hstate)
  | failing gs hfs hnested hnone hstate =>
    exact .failing gs hfs hnested (hs.noLive hnone) (hs.state ▸ hstate)

theorem Up.live {s : Sys} {w : WsiId} (h : Up s w) : s.lws.Live w := h.state.imp And.left And.left

theorem Up.established {s : Sys} {w : WsiId} (h : Up s w) (hstate : s.c.state = .STATE_CONNECTED) :
    s.lws.phase w = some .established := by
  rcases h.state with ⟨_, hconnecting⟩ | ⟨hphase, _⟩
  · rw [hstate] at hconnecting
    cases hconnecting
  · exact hphase

theorem Up.connected {s : Sys} {w : WsiId} (h : Up s w)
    (hphase : s.lws.phase w = some .established) : s.c.state = .STATE_CONNECTED := by
  rcases h.state with ⟨hconnecting, _⟩ | ⟨_, hstate⟩
  · rw [hphase] at hconnecting
    cases hconnecting
  · exact hstate

theorem Position.idle {s : Sys} (h : Position [] s) : (∃ w, Up s w) ∨ Down s := by
  cases h with
  | up w _ hup => exact .inl ⟨w, hup⟩
  | down _ hdown => exact .inr hdown
  | sending _ _ hfs _ _ _ | accepted _ hfs _ _ _ | connect hfs _ _ => cases hfs
  | failing gs hfs _ _ _ => simp at hfs

/-- An idle service thread with a live connection is up, and on that one. -/
theorem Position.up_of_live {s : Sys} {v : WsiId} (h : Position [] s) (hlive : s.lws.Live v) :
    Up s v := by
  rcases h.idle with ⟨w, hup⟩ | hdown
  · rw [hup.only v hlive]
    exact hup
  · exact absurd hlive (hdown.none_live v)

/-- Inside a connect call the client is not connected. -/
theorem Position.destroy {s : Sys} {w : WsiId} {rest : List Frame}
    (h : Position (.wsi_destroy w :: rest) s) : s.c.state ≠ .STATE_CONNECTED := by
  cases h with
  | up _ hfs _ => rcases hfs with hfs | hfs <;> cases hfs
  | down hfs _ => rcases hfs with hfs | hfs <;> cases hfs
  | sending v f hfs hf _ _ =>
    cases hfs
    exact absurd hf id
  | accepted _ hfs _ _ _ | connect hfs _ _ => cases hfs
  | failing _ _ _ _ hstate => exact hstate

/-- A connect call is made alone. -/
theorem Position.do_connect_alone {s : Sys} {rest : List Frame}
    (h : Position (.do_connect :: rest) s) : rest = [] := by
  cases h with
  | up _ hfs _ | down hfs _ => rcases hfs with hfs | hfs <;> cases hfs
  | sending v f hfs hf _ _ =>
    cases hfs
    exact absurd hf id
  | accepted _ hfs _ _ _ => cases hfs
  | connect hfs _ _ =>
    cases hfs
    rfl
  | failing gs hfs hgs _ _ =>
    cases gs with
    | nil => cases hfs
    | cons g gs =>
      simp only [List.cons_append, List.cons.injEq] at hfs
      have hg := hgs g (by simp)
      rw [← hfs.1] at hg
      cases hg

/-- A section on a connection runs alone, and on the one live connection. -/
theorem Position.sent {s : Sys} {w : WsiId} {f : Frame} {rest : List Frame}
    (h : Position (f :: rest) s) (hf : f.sending w) : rest = [] ∧ Up s w := by
  cases h with
  | up _ hfs _ | down hfs _ =>
    rcases hfs with hfs | hfs <;> cases hfs
    exact absurd hf id
  | sending v g hfs hg hup _ =>
    cases hfs
    have hvw : w = v := by
      cases f <;> first | exact (show _ = w from hf).symm.trans hg | exact absurd hf id
    rw [hvw]
    exact ⟨rfl, hup⟩
  | accepted _ hfs _ _ _ | connect hfs _ _ =>
    cases hfs
    exact absurd hf id
  | failing gs hfs hgs _ _ =>
    cases gs with
    | nil =>
      cases hfs
      exact absurd hf id
    | cons g gs =>
      simp only [List.cons_append, List.cons.injEq] at hfs
      obtain ⟨rfl, _⟩ := hfs
      have hg := hgs f (by simp)
      cases f <;> first | exact absurd hf id | cases hg

/-- While the service thread runs it is in a position; before it runs and after
    it there is no connection, and a new client is idle. -/
structure Conn (fs : List Frame) (s : Sys) : Prop where
  running : s.thread = .running → Position fs s
  created : s.thread = .created → s.NoLive ∧ s.c.state = .STATE_IDLE
  none : s.thread = .none → s.NoLive ∧ (s.c.state = .STATE_IDLE ∨ s.c.stopping = true)

theorem Sys.NoLive.of_phase {s s' : Sys} (hphase : ∀ v, s'.lws.phase v = s.lws.phase v)
    (h : s.NoLive) : s'.NoLive := by
  intro v hlive
  simp only [lws_context.Live, hphase] at hlive
  exact h v hlive

theorem Sys.NoLive.fresh {s : Sys} (hphase : ∀ v, s.lws.phase v = .none) : s.NoLive := by
  intro v hlive
  simp [lws_context.Live, hphase] at hlive

/-- A connection that ends leaves none when it was the only one. -/
theorem Sys.NoLive.of_closed {s s' : Sys} {w : WsiId} (honly : ∀ v, s.lws.Live v → v = w)
    (hphase : ∀ v, s'.lws.phase v = if v = w then (s.lws.phase w).map (fun _ => .closed)
      else s.lws.phase v) : s'.NoLive := by
  intro v hlive
  by_cases hv : v = w
  · subst hv
    simp only [lws_context.Live, hphase, if_true, Option.map_eq_some_iff] at hlive
    rcases hlive with ⟨_, _, h⟩ | ⟨_, _, h⟩ <;> cases h
  · simp only [lws_context.Live, hphase, if_neg hv] at hlive
    exact hv (honly v hlive)

/-- The sections inside a failing connect call stay inside it. -/
theorem svc_position_failing {f : Frame} {a : Answer} {s s' : Sys} {gs fs : List Frame}
    (h : s.svc f a = some (fs, s')) (hf : f.nested = true) (hgs : ∀ g ∈ gs, g.nested = true)
    (hnone : s.NoLive) (hstate : s.c.state ≠ .STATE_CONNECTED) :
    Position (fs ++ (gs ++ [.connect_return none])) s' := by
  cases f with
  | connection_error msg =>
    cases h
    obtain ⟨_, _, state, hc, hclosed⟩ := closed_client s.c a.now
    refine .failing gs rfl hgs (hnone.of_phase fun v => by simp) ?_
    rw [Sys.act_c, hc]
    rcases hclosed with rfl | ⟨_, rfl⟩
    · simp
    · exact hstate
  | wsi_destroy w =>
    cases h
    obtain ⟨wsi, hc⟩ := wsi_destroy_client s.c w
    refine .failing gs rfl hgs (hnone.of_phase fun v => by simp) ?_
    simpa [hc] using hstate
  | _ => cases hf

/-- Writing, and asking for WRITEABLE, keep the connection as it is. -/
theorem svc_position_sending {f : Frame} {a : Answer} {s s' : Sys} {w : WsiId} {fs : List Frame}
    (h : s.svc f a = some (fs, s')) (hf : f.sending w) (hup : Up s w)
    (hstate : s.c.state = .STATE_CONNECTED) : Position fs s' := by
  cases f with
  | has_data_check v =>
    obtain rfl : v = w := hf
    simp only [Sys.svc, Option.some.injEq, Prod.mk.injEq] at h
    obtain ⟨rfl, rfl⟩ := h
    split
    · exact .sending v _ rfl rfl hup hstate
    · exact .up v (.inl rfl) hup
  | lws_callback_on_writable v =>
    cases h
    exact .up w (.inl rfl) (hup.congr ⟨rfl, rfl, id, fun v => by simp⟩)
  | write v n more =>
    obtain rfl : v = w := hf
    simp only [Sys.svc] at h
    split at h
    · cases h
      exact .up v (.inl rfl) (hup.congr ⟨rfl, rfl, id, fun v => by simp⟩)
    · simp only [Option.some.injEq, Prod.mk.injEq] at h
      obtain ⟨rfl, rfl⟩ := h
      have hup' : Up (s.act (s.c, writeable_write n v)) v :=
        hup.congr ⟨rfl, rfl, id, fun v => by simp⟩
      split
      · exact .sending v _ rfl rfl hup' hstate
      · exact .up v (.inl rfl) hup'
  | _ => exact absurd hf id

/-- A connect call goes on to return its connection, or to fail. -/
theorem svc_position_connect {a : Answer} {s s' : Sys} {fs : List Frame}
    (h : s.svc .do_connect a = some (fs, s')) (hnone : s.NoLive) : Position fs s' := by
  simp only [Sys.svc] at h
  split at h
  · cases h
    refine .accepted s.lws.next rfl (by simp [lws_context.performs, lws_context.perform]) ?_ rfl
    intro v hlive
    by_contra hv
    refine hnone v ?_
    simpa [lws_context.Live, lws_context.perform, lws_context.performs, hv] using hlive
  · next error destroyed _ =>
    cases h
    refine .failing ((error.map Frame.connection_error).toList ++
      (if destroyed then [.wsi_destroy s.lws.next] else [])) rfl ?_ (hnone.of_phase fun v => rfl)
      (by simp)
    intro g hg
    cases error <;> cases destroyed <;> simp at hg <;> rcases hg with rfl | rfl <;> rfl

/-- EVENT_WAIT_CANCELLED asks for WRITEABLE on the open connection only. -/
theorem svc_position_cancelled {a : Answer} {s s' : Sys} {fs : List Frame}
    (h : s.svc .event_wait_cancelled a = some (fs, s')) (hidle : Position [] s) :
    Position fs s' := by
  cases h
  have hasked : event_wait_cancelled s.c = if s.c.state = .STATE_CONNECTED ∧ s.c.q.has_data = true
      then s.c.wsi else none := rfl
  rcases hidle.idle with ⟨w, hup⟩ | hdown
  · rw [hasked, hup.wsi]
    split
    · next hdata => exact .sending w _ rfl rfl hup hdata.1
    · exact .up w (.inl rfl) hup
  · rw [hasked, hdown.wsi, ite_self]
    exact .down (.inl rfl) hdown

/-- Each section leads from a position to a position. -/
theorem svc_position {f : Frame} {a : Answer} {s s' : Sys} {rest fs : List Frame}
    (h : s.svc f a = some (fs, s')) (hpos : Position (f :: rest) s) : Position (fs ++ rest) s' := by
  cases hpos with
  | up w hfs hup =>
    rcases hfs with hfs | hfs <;> cases hfs
    simpa using svc_position_cancelled h (.up w (.inl rfl) hup)
  | down hfs hdown =>
    rcases hfs with hfs | hfs <;> cases hfs
    simpa using svc_position_cancelled h (.down (.inl rfl) hdown)
  | sending w g hfs hf hup hstate =>
    cases hfs
    simpa using svc_position_sending h hf hup hstate
  | accepted w hfs hphase honly hstate =>
    cases hfs
    cases h
    exact .up w (.inl rfl) ⟨rfl, fun v hlive => honly v (by simpa [lws_context.Live] using hlive),
      .inl ⟨by simpa using hphase, hstate⟩⟩
  | connect hfs hnone _ =>
    cases hfs
    simpa using svc_position_connect h hnone
  | failing gs hfs hgs hnone hstate =>
    cases gs with
    | nil =>
      cases hfs
      cases h
      exact .down (.inl rfl) ⟨rfl, hnone.of_phase fun v => by simp, .inl rfl⟩
    | cons g gs =>
      cases hfs
      exact svc_position_failing h (hgs f (by simp)) (fun g hg => hgs g (by simp [hg])) hnone hstate

/-- The end of the only connection leaves none. -/
theorem closed_position {s : Sys} {w : WsiId} (now : Int) (hup : Up s w) :
    Position [] ((s.setLws (s.lws.setPhase w .closed)).act (closed s.c now, [])) := by
  obtain ⟨_, _, state, hc, hclosed⟩ := closed_client s.c now
  refine .down (.inl rfl) ⟨by simp [hc], .of_closed (w := w) hup.only fun v => by simp, ?_⟩
  rcases hclosed with rfl | ⟨hstop, _⟩
  · exact .inl (by simp [hc])
  · exact .inr (by simpa [hc] using hstop)

/-- Callbacks of an open connection leave it as it is. -/
theorem callback_position_open {w : WsiId} {a : Answer} {r : Reason} {s s' : Sys}
    {fs : List Frame} (h : s.callback w a r = some (fs, s')) (hup : Up s w)
    (hphase : s.lws.phase w = some .established)
    (hr : match r with
      | .CLIENT_RECEIVE _ | .CLIENT_WRITEABLE | .TIMER | .CLIENT_RECEIVE_PONG => True
      | _ => False) : Position fs s' := by
  have hstate := hup.connected hphase
  have htaken : ∀ v, (s.lws.modify w fun i => { i with writable := false }).phase v = s.lws.phase v :=
    fun v => s.lws.phase_modify_same w v fun _ => rfl
  have hfired : ∀ v, (s.lws.modify w fun i => { i with timer := none }).phase v = s.lws.phase v :=
    fun v => s.lws.phase_modify_same w v fun _ => rfl
  cases r with
  | CLIENT_RECEIVE chunk =>
    simp only [Sys.callback, Option.map_eq_some_iff, Prod.mk.injEq] at h
    obtain ⟨o, ho, rfl, rfl⟩ := h
    obtain ⟨frag, hc⟩ := receive_client ho
    refine .up w (.inl rfl) (hup.congr ?_)
    split <;> exact ⟨by simp [hc], by simp [hc], by simp [hc], fun v => by simp⟩
  | CLIENT_WRITEABLE =>
    simp only [Sys.callback] at h
    split at h
    · cases h
      refine .sending w (.has_data_check w) rfl rfl (hup.congr ⟨rfl, rfl, id, fun v => ?_⟩) hstate
      rw [Sys.act_lws, lws_context.phase_performs, Sys.setLws_lws, htaken]
    · split at h
      · cases h
        exact .up w (.inl rfl) (hup.congr ⟨rfl, rfl, id, htaken⟩)
      · next n q _ =>
        cases h
        exact .sending w (.write w n q.has_data) rfl rfl (hup.congr ⟨rfl, rfl, id, htaken⟩) hstate
  | TIMER =>
    obtain ⟨send_ping, hc⟩ := timer_client s.c w
    simp only [Sys.callback, Option.some.injEq, Prod.mk.injEq] at h
    obtain ⟨rfl, rfl⟩ := h
    refine .up w (.inl rfl) (hup.congr ?_)
    split <;>
      exact ⟨by simp [hc], by simp [hc], by simp [hc], fun v => by
        simp only [Sys.setLws_lws, Sys.act_lws, lws_context.phase_fail, lws_context.phase_performs,
          hfired]⟩
  | CLIENT_RECEIVE_PONG =>
    cases h
    exact .up w (.inl rfl) (hup.congr ⟨rfl, rfl, id, fun v => by simp⟩)
  | _ => exact absurd hr id

/-- Each callback leads from an idle service thread to a position. -/
theorem callback_position {w : WsiId} {a : Answer} {r : Reason} {s s' : Sys} {fs : List Frame}
    (h : s.callback w a r = some (fs, s')) (henabled : s.lws.enables s.thread w r = true)
    (hrun : s.thread = .running) (hpos : Position [] s) : Position fs s' := by
  rw [hrun] at henabled
  have hphase := lws_context.phase_of_enables henabled
  cases r with
  | CLIENT_ESTABLISHED =>
    have hup := hpos.up_of_live (.inl hphase)
    cases h
    refine .up w (.inl rfl) ⟨rfl, fun v hv => ?_, .inr ⟨by simp [hphase], rfl⟩⟩
    by_contra hne
    refine hne (hup.only v ?_)
    simpa [lws_context.Live, hne] using hv
  | CLIENT_RECEIVE chunk | CLIENT_WRITEABLE | TIMER | CLIENT_RECEIVE_PONG =>
    exact callback_position_open h (hpos.up_of_live (.inr hphase)) hphase trivial
  | CLIENT_CONNECTION_ERROR msg =>
    cases h
    exact closed_position a.now (hpos.up_of_live (.inl hphase))
  | CLIENT_CLOSED =>
    cases h
    exact closed_position a.now (hpos.up_of_live (.inr hphase))
  | WSI_DESTROY =>
    cases h
    have hkept : ∀ v, v ≠ w → ((s.lws.remove w).Live v ↔ s.lws.Live v) := fun v hv => by
      simp [lws_context.Live, hv]
    have hgone : ¬ (s.lws.remove w).Live w := by simp [lws_context.Live]
    rcases hpos.idle with ⟨u, hup⟩ | hdown
    · have hu : u ≠ w := by
        rintro rfl
        rcases hup.live with hlive | hlive <;> rw [hphase] at hlive <;> cases hlive
      have hc : wsi_destroy s.c w = s.c := by
        rw [wsi_destroy, if_neg]
        rw [hup.wsi]
        simpa using hu
      refine .up u (.inl rfl) ⟨by simpa [hc] using hup.wsi, fun v hv => ?_,
        by simpa [hc, hu] using hup.state⟩
      have hvw : v ≠ w := fun heq => hgone (heq ▸ hv)
      exact hup.only v ((hkept v hvw).mp hv)
    · have hc : wsi_destroy s.c w = s.c := by
        rw [wsi_destroy, if_neg]
        simp [hdown.wsi]
      refine .down (.inl rfl) ⟨by simpa [hc] using hdown.wsi, fun v hv => ?_,
        by simpa [hc] using hdown.state⟩
      have hvw : v ≠ w := fun heq => hgone (heq ▸ hv)
      exact hdown.none_live v ((hkept v hvw).mp hv)
  | CLIENT_APPEND_HANDSHAKE_HEADER =>
    cases h
    exact hpos

theorem deliver_conn {e : Event} {s s' : Sys} {fs : List Frame}
    (h : s.deliver e = some (fs, s')) (hstop : s.thread = .destroying → s.c.stopping = true)
    (hconn : Conn [] s) : Conn fs s' := by
  cases e with
  | service_thread =>
    simp only [Sys.deliver, Option.ite_none_right_eq_some, Option.some.injEq, Prod.mk.injEq] at h
    obtain ⟨hthread, rfl, rfl⟩ := h
    obtain ⟨hnone, hstate⟩ := hconn.created hthread
    refine ⟨fun _ => .connect rfl hnone ?_, by simp, by simp⟩
    rw [hstate]
    decide
  | callback w r a =>
    simp only [Sys.deliver, Option.ite_none_right_eq_some] at h
    obtain ⟨henabled, h⟩ := h
    have hthread := (callback_owned h).2.1
    have hactive : s.thread = .running ∨ s.thread = .destroying := by
      cases r <;> simp [lws_context.enables] at henabled <;> tauto
    refine ⟨fun hrun => callback_position h henabled (hthread ▸ hrun)
      (hconn.running (hthread ▸ hrun)), ?_, ?_⟩ <;>
    · intro hother
      rw [hthread] at hother
      simp [hother] at hactive
  | event_wait_cancelled wsi =>
    simp only [Sys.deliver, Option.ite_none_right_eq_some, Option.some.injEq, Prod.mk.injEq] at h
    obtain ⟨⟨hrun, _⟩, rfl, rfl⟩ := h
    have hlink : SameLink s (s.setLws { s.lws with cancelled := false }) :=
      ⟨rfl, rfl, id, fun _ => rfl⟩
    have hframes : (if wsi = true then [Frame.event_wait_cancelled] else []) = [] ∨
        (if wsi = true then [Frame.event_wait_cancelled] else []) = [.event_wait_cancelled] := by
      cases wsi <;> simp
    refine ⟨fun _ => ?_, by simp [hrun], by simp [hrun]⟩
    rcases (hconn.running hrun).idle with ⟨w, hup⟩ | hdown
    · exact .up w hframes (hup.congr hlink)
    · exact .down hframes (hdown.congr hlink)
  | poll now =>
    simp only [Sys.deliver, Option.ite_none_right_eq_some, Option.some.injEq, Prod.mk.injEq] at h
    obtain ⟨⟨hrun, _, hwait, _⟩, rfl, rfl⟩ := h
    refine ⟨fun _ => ?_, by simp [hrun], by simp [hrun]⟩
    rcases (hconn.running hrun).idle with ⟨w, hup⟩ | hdown
    · rcases hup.state with ⟨_, hstate⟩ | ⟨_, hstate⟩ <;> rw [hwait] at hstate <;> cases hstate
    · exact .connect rfl hdown.none_live (by simp [hwait])
  | exit =>
    simp only [Sys.deliver, Option.ite_none_right_eq_some, Option.map_eq_some_iff,
      Prod.mk.injEq] at h
    obtain ⟨_, ⟨freed, q⟩, _, rfl, rfl⟩ := h
    exact ⟨by simp, by simp, by simp⟩
  | context_destroyed =>
    simp only [Sys.deliver, Option.ite_none_right_eq_some, Option.some.injEq, Prod.mk.injEq] at h
    obtain ⟨hthread, rfl, rfl⟩ := h
    exact ⟨by simp, by simp, fun _ => ⟨.fresh fun v => rfl, .inr (hstop hthread)⟩⟩

theorem Conn.congr {fs : List Frame} {s s' : Sys} (h : Conn fs s) (hs : SameLink s s')
    (hthread : s'.thread = s.thread) : Conn fs s' := by
  refine ⟨fun hrun => (h.running (hthread ▸ hrun)).congr hs, fun hcreated => ?_, fun hnone => ?_⟩
  · obtain ⟨hlive, hstate⟩ := h.created (hthread ▸ hcreated)
    exact ⟨hs.noLive hlive, hs.state.trans hstate⟩
  · obtain ⟨hlive, hstate⟩ := h.none (hthread ▸ hnone)
    exact ⟨hs.noLive hlive, hstate.imp hs.state.trans hs.stopping⟩

/-- A send changes the queue and the outstanding cancel only. -/
theorem app_sends_link {f : AppFrame} {a : Answer} {s s' : Sys} {fs : List AppFrame}
    (h : s.app f a = some (fs, s')) (hf : f.sends = true) : SameLink s s' := by
  cases f with
  | enqueue data is_binary => cases data <;> cases h <;> exact ⟨rfl, rfl, id, fun v => by simp⟩
  | enqueue_locked data is_binary =>
    simp only [Sys.app, Option.some.injEq, Prod.mk.injEq] at h
    obtain ⟨_, rfl⟩ := h
    rcases enqueue_locked_spec s.c data is_binary a.ok with ⟨n, heq, _⟩ | heq <;> rw [heq] <;>
      exact ⟨rfl, rfl, id, fun v => by simp⟩
  | enqueue_wake | lws_cancel_service =>
    cases h
    exact ⟨rfl, rfl, id, fun v => by simp⟩
  | _ => cases hf

theorem app_conn {f : AppFrame} {a : Answer} {s s' : Sys} {gs : List Frame} {fs : List AppFrame}
    (h : s.app f a = some (fs, s')) (howner : f.sends = true ∨ Owner (some f) s)
    (hconn : Conn gs s) : Conn gs s' := by
  by_cases hsends : f.sends = true
  · exact hconn.congr (app_sends_link h hsends) (app_sends h hsends).2.1
  · replace howner := howner.resolve_left hsends
    cases f with
    | enqueue _ _ | enqueue_locked _ _ | enqueue_wake | lws_cancel_service =>
      exact absurd rfl hsends
    | wsld_start =>
      have hthread := howner.1
      obtain ⟨hlive, hstate⟩ := hconn.none hthread
      simp only [Sys.app] at h
      split at h
      · cases h
        exact ⟨by simp [hthread], by simp [hthread], fun _ => ⟨.fresh fun v => rfl, hstate⟩⟩
      · cases h
        exact ⟨by simp [hthread], by simp [hthread], fun _ => ⟨hlive, hstate⟩⟩
    | start_thread =>
      have hthread := howner.1
      obtain ⟨hlive, _⟩ := hconn.none hthread
      simp only [Sys.app] at h
      split at h
      · cases h
        exact ⟨by simp, fun _ => ⟨hlive.of_phase fun v => by simp, rfl⟩, by simp⟩
      · cases h
        exact ⟨by simp [hthread], by simp [hthread],
          fun _ => ⟨hlive.of_phase fun v => by simp, .inl rfl⟩⟩
    | wsld_stop =>
      simp only [Sys.app] at h
      split at h
      · cases h
        exact hconn.congr ⟨rfl, rfl, fun _ => rfl, fun v => by simp⟩ rfl
      · cases h
        exact hconn
    | stop_join =>
      simp only [Sys.app, Option.ite_none_right_eq_some, Option.some.injEq, Prod.mk.injEq] at h
      obtain ⟨hthread, rfl, rfl⟩ := h
      exact ⟨by simp [hthread], by simp [hthread], by simp [hthread]⟩
    | stop_context =>
      simp only [Sys.app, howner.2.2.1, if_true, Option.some.injEq, Prod.mk.injEq] at h
      obtain ⟨_, rfl⟩ := h
      exact ⟨by simp, by simp, by simp⟩
    | stop_context_destroyed =>
      simp only [Sys.app, Option.ite_none_right_eq_some, Option.some.injEq, Prod.mk.injEq] at h
      obtain ⟨_, rfl, rfl⟩ := h
      exact hconn.congr ⟨rfl, rfl, id, fun v => by simp⟩ rfl
    | wsld_destroy =>
      simp only [Sys.app, Option.map_eq_some_iff, Prod.mk.injEq] at h
      obtain ⟨_, _, rfl, rfl⟩ := h
      exact hconn.congr ⟨rfl, rfl, id, fun v => by simp⟩ rfl
    | start_return | stop_cancel =>
      cases h
      exact hconn.congr ⟨rfl, rfl, id, fun v => by simp⟩ rfl

theorem Conn.step {cfg cfg' : Config} {l : Label} (hmove : system.Moves cfg l cfg')
    (hlife : Lifecycle cfg) (h : Conn cfg.svc cfg.shared) : Conn cfg'.svc cfg'.shared := by
  cases hmove with
  | event hdeliver =>
    exact deliver_conn hdeliver (fun hthread => hlife.owner.destroying (.inl hthread)) h
  | svc hsvc =>
    have hrun := hlife.busy (by simp)
    have hthread := (svc_owned hsvc).2.trans hrun
    exact ⟨fun _ => svc_position hsvc (h.running hrun), by simp [hthread], by simp [hthread]⟩
  | call _ _ => exact h
  | app htop happ =>
    obtain rfl := hlife.threads.rest_nil htop
    exact app_conn happ (hlife.frame htop) h

theorem initial_conn {c : wsld_client} (hc : c.Fresh) :
    Conn (initial c).svc (initial c).shared :=
  ⟨by simp [initial], by simp [initial], fun _ => ⟨.fresh fun v => rfl, .inl hc.state⟩⟩

/-- In every run the service thread is in a position while it runs. -/
theorem Reachable.conn {cfg : Config} (h : Reachable cfg) : Conn cfg.svc cfg.shared := by
  obtain ⟨c, hc, hreach⟩ := h
  exact hreach.invariant_under (fun mid hmid => Reachable.lifecycle ⟨c, hc, hmid⟩)
    (initial_conn hc) fun _ _ _ hlife _ hmove => Conn.step hmove hlife

end lws_client.ws_client
