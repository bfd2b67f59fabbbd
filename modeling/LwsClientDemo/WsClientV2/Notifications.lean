import LwsClientDemo.Listener
import LwsClientDemo.WsClientV2.Connection
import LwsClientDemo.WsClientV2.Decisions

open interleaving

namespace lws_client.ws_client_v2

/-- What reports the connections on the channel is set. -/
def wsl_client.Reports (c : wsl_client) (ch : Channel) : Prop :=
  ch.set c.conn_cb (hooked c.hooks (·.on_connected)) = true ∧
    ch.set c.conn_cb (hooked c.hooks (·.on_disconnected)) = true

variable {ch : Channel} {c : wsl_client} {l m : Listener} {s s' : Sys} {fs gs rest : List Frame}

section calls

theorem established_listen (hreports : c.Reports ch) (hup : l.up = false) :
    l.listen ch (established c).2 = some { up := true, failures := 0 } := by
  unfold established
  rw [List.append_assoc]
  refine Listener.listen_trans (Listener.listen_unheard ?_)
    (Listener.listen_connected _ hreports.1 hup)
  split
  · exact Every.onWsi fun _ => rfl
  · exact Every.nil

theorem connection_error_listen (hreports : c.Reports ch) (hgoing : c.stopping = false)
    (hup : l.up = false) (msg : Option String) : l.listen ch (connection_error c msg).2 =
      some { up := false, failures := l.failures + 1 } := by
  simp only [connection_error, hgoing, Bool.false_eq_true, if_false]
  rw [List.append_assoc]
  exact Listener.listen_trans (Listener.listen_trans
    (Listener.listen_callIf fun _ => Listener.hear_attempt hup trivial)
    (Listener.listen_callIf fun _ => Listener.hear_attempt hup trivial))
    (Listener.listen_disconnected _ hreports.2)

theorem closed_listen (hreports : c.Reports ch) (hgoing : c.stopping = false) :
    l.listen ch (closed c).2 = some { up := false, failures := l.failures + 1 } := by
  simp only [closed, hgoing, Bool.false_eq_true, if_false]
  exact Listener.listen_disconnected _ hreports.2

theorem timer_listen (hup : l.up = true) (tick : Int) :
    l.listen ch (timer c tick).acts = some l := by
  have hasked : l.listen ch (callIf (hooked c.hooks (·.on_heartbeat_tick)) .on_heartbeat_tick) =
      some l := Listener.listen_callIf fun _ => Listener.hear_tick hup
  unfold timer
  dsimp only
  split
  · refine Listener.listen_trans hasked (Listener.listen_unheard ?_)
    split
    · exact Every.onWsi fun _ => rfl
    · exact Every.nil
  · split
    · exact hasked
    · exact Listener.listen_trans hasked (Listener.listen_unheard (Every.onWsi fun _ => rfl))

/-- The decision is asked for with the failures the listener has counted. -/
theorem schedule_reconnect_listen (hup : l.up = false) (hcount : l.failures = c.reconnect_fail_count)
    (ret : Int) : l.listen ch (schedule_reconnect c ret).2 = some l := by
  have hasked : ∀ delay, l.listen ch [.on_reconnect_decision c.reconnect_fail_count delay] =
      some l := fun delay => Listener.listen_single (Listener.hear_decision hup hcount delay)
  have harmed : ∀ usecs, l.listen ch [.lws_sul_schedule usecs] = some l := fun _ =>
    Listener.listen_unheard (Every.single rfl)
  unfold schedule_reconnect
  dsimp only
  split
  · split
    · exact hasked _
    · rw [← List.singleton_append]
      exact Listener.listen_trans (hasked _) (harmed _)
  · exact harmed _

end calls

/-- The calls of a section lead a listener on. -/
def Hears (ch : Channel) (l m : Listener) (s s' : Sys) : Prop :=
  ∃ acts, s'.trace = s.trace ++ acts ∧ l.listen ch acts = some m

theorem Hears.of_eq (h : s'.trace = s.trace) : Hears ch l l s s' :=
  ⟨[], by rw [h, List.append_nil], rfl⟩

theorem Hears.unheard {acts : List Act} (htrace : s'.trace = s.trace ++ acts)
    (h : Every Act.unheard acts) : Hears ch l l s s' :=
  ⟨acts, htrace, Listener.listen_unheard h⟩

/-- What a listener knows of a client that runs: it is connected, or it was when
    the stop came and nothing will connect it again. -/
structure Told (fs : List Frame) (s : Sys) (l : Listener) : Prop where
  failures : l.failures = s.c.reconnect_fail_count
  created : s.thread = .created → l.up = false
  up : s.thread = .running → s.c.state = .STATE_CONNECTED → l.up = true
  down : s.thread = .running → s.c.state ≠ .STATE_CONNECTED → l.up = true →
    s.NoLive ∧ s.c.stopping = true ∧ (fs = [] ∨ fs = [.event_wait_cancelled])

/-- A connection that is being made has not been reported. -/
theorem Told.connecting (h : Told fs s l) (hrun : s.thread = .running)
    (hstate : s.c.state ≠ .STATE_CONNECTED) {w : WsiId} (hlive : s.lws.Live w) : l.up = false := by
  by_contra hup
  exact (h.down hrun hstate (by simpa using hup)).1 w hlive

/-- Nor has one been whose loss is on its way to `schedule_reconnect`. -/
theorem Told.busy {f : Frame} (h : Told (f :: rest) s l) (hrun : s.thread = .running)
    (hstate : s.c.state ≠ .STATE_CONNECTED) (hf : f ≠ .event_wait_cancelled) : l.up = false := by
  by_contra hup
  rcases (h.down hrun hstate (by simpa using hup)).2.2 with hfs | hfs
  · cases hfs
  · exact hf (List.cons.inj hfs).1

theorem Told.opened (hrun : s'.thread = .running) (hstate : s'.c.state = .STATE_CONNECTED)
    (hup : l.up = true) (hcount : l.failures = s'.c.reconnect_fail_count) : Told fs s' l :=
  ⟨hcount, fun hcreated => absurd (hrun.symm.trans hcreated) (by simp), fun _ _ => hup,
    fun _ hother => absurd hstate hother⟩

theorem Told.closed (hstate : s'.c.state ≠ .STATE_CONNECTED)
    (hup : l.up = false) (hcount : l.failures = s'.c.reconnect_fail_count) : Told fs s' l :=
  ⟨hcount, fun _ => hup, fun _ hother => absurd hother hstate,
    fun _ _ hother => absurd (hup.symm.trans hother) (by simp)⟩

/-- Nothing is asked of a listener while the service thread does not run. -/
theorem Told.away (hcreated : s'.thread ≠ .created) (hrun : s'.thread ≠ .running)
    (hcount : l.failures = s'.c.reconnect_fail_count) : Told fs s' l :=
  ⟨hcount, fun h => absurd h hcreated, fun h => absurd h hrun, fun h => absurd h hrun⟩

theorem Told.same (h : Told fs s l) (hs : SameLink s s') (hthread : s'.thread = s.thread)
    (hstop : s.c.stopping = true → s'.c.stopping = true)
    (hcount : s'.c.reconnect_fail_count = s.c.reconnect_fail_count)
    (hfs : fs = [] ∨ fs = [.event_wait_cancelled] → gs = [] ∨ gs = [.event_wait_cancelled]) :
    Told gs s' l := by
  refine ⟨hcount ▸ h.failures, hthread ▸ h.created, fun hrun hstate =>
    h.up (hthread ▸ hrun) (hs.state ▸ hstate), fun hrun hstate hup => ?_⟩
  obtain ⟨hnone, hstopping, hrests⟩ := h.down (hthread ▸ hrun) (hs.state ▸ hstate) hup
  exact ⟨hs.noLive hnone, hstop hstopping, hfs hrests⟩

/-- A callback of an open connection. -/
theorem callback_told_open {w : WsiId} {a : Answer} {r : Reason}
    (h : s.callback w a r = some (fs, s')) (hrun : s.thread = .running)
    (hstate : s.c.state = .STATE_CONNECTED)
    (hr : match r with
      | .CLIENT_RECEIVE _ | .CLIENT_WRITEABLE | .TIMER | .CLIENT_RECEIVE_PONG => True
      | _ => False) (htold : Told [] s l) : Hears ch l l s s' ∧ Told fs s' l := by
  have hup := htold.up hrun hstate
  cases r with
  | CLIENT_RECEIVE chunk =>
    simp only [Sys.callback, Option.map_eq_some_iff, Prod.mk.injEq] at h
    obtain ⟨o, ho, rfl, rfl⟩ := h
    obtain ⟨frag, hc⟩ := receive_client ho
    have hacts : Every Act.delivers o.acts := receive_acts (fun _ _ => rfl) (fun _ _ => rfl) ho
    refine ⟨⟨o.acts, by split <;> rfl, Listener.listen_delivers hup hacts⟩, ?_⟩
    split <;> exact .opened hrun (by simpa [hc] using hstate) hup (by simpa [hc] using htold.failures)
  | CLIENT_WRITEABLE =>
    simp only [Sys.callback] at h
    split at h
    · cases h
      exact ⟨.unheard rfl (Every.single rfl), .opened hrun hstate hup htold.failures⟩
    · split at h <;> cases h <;> exact ⟨.of_eq rfl, .opened hrun hstate hup htold.failures⟩
  | TIMER =>
    simp only [Sys.callback, Option.some.injEq, Prod.mk.injEq] at h
    obtain ⟨rfl, rfl⟩ := h
    refine ⟨⟨_, by split <;> rfl, timer_listen hup a.ret⟩, ?_⟩
    rcases timer_client s.c a.ret with hc | hc <;> split <;>
      exact .opened hrun (by simpa [hc] using hstate) hup (by simpa [hc] using htold.failures)
  | CLIENT_RECEIVE_PONG =>
    cases h
    refine ⟨.unheard rfl ?_, .opened hrun hstate hup htold.failures⟩
    unfold receive_pong
    dsimp only
    split
    · exact Every.onWsi fun _ => rfl
    · exact Every.nil
  | _ => exact absurd hr id

/-- A connection that ends while the client is stopping is not reported, and
    leaves nothing that would connect it again. -/
theorem connection_error_stopping (hstop : c.stopping = true) (msg : Option String) :
    connection_error c msg = ({ c with wsi := none, state := .STATE_RECONNECT_WAIT }, []) := by
  simp [connection_error, hstop]

theorem closed_stopping (hstop : c.stopping = true) :
    closed c = ({ c with wsi := none, state := .STATE_RECONNECT_WAIT }, []) := by
  simp [ws_client_v2.closed, hstop]

/-- The client of a failure that is reported. -/
theorem connection_error_going (hgoing : c.stopping = false) (msg : Option String) :
    (connection_error c msg).1 = { c with
      wsi := none, state := .STATE_RECONNECT_WAIT
      reconnect_fail_count := c.reconnect_fail_count + 1 } := by
  simp [connection_error, hgoing]

theorem closed_going (hgoing : c.stopping = false) : (ws_client_v2.closed c).1 = { c with
    wsi := none, state := .STATE_RECONNECT_WAIT
    reconnect_fail_count := c.reconnect_fail_count + 1 } := by
  simp [ws_client_v2.closed, hgoing]

theorem callback_told {w : WsiId} {a : Answer} {r : Reason} (hreports : s.c.Reports ch)
    (h : s.callback w a r = some (fs, s')) (henabled : s.callback_enabled w r = true)
    (hrun : s.thread = .running) (hpos : Position [] s) (htold : Told [] s l) :
    ∃ m, Hears ch l m s s' ∧ Told fs s' m := by
  have hphase : s.lws.phase w = some r.phase := by
    rw [Sys.callback_enabled, hrun] at henabled
    exact lws_context.phase_of_enables henabled
  have hcount := htold.failures
  have hopen : s.lws.phase w = some .established → s.c.state = .STATE_CONNECTED := by
    intro hopen
    rcases (hpos.up_of_live (.inr hopen)).state with ⟨hother, _⟩ | ⟨_, hstate⟩
    · rw [hopen] at hother
      cases hother
    · exact hstate
  have hconnecting : s.lws.phase w = some .connecting → l.up = false := by
    intro hconnecting
    refine htold.connecting hrun ?_ (.inl hconnecting)
    rcases (hpos.up_of_live (.inl hconnecting)).state with ⟨_, hstate⟩ | ⟨hother, _⟩
    · simp [hstate]
    · rw [hconnecting] at hother
      cases hother
  cases r with
  | CLIENT_ESTABLISHED =>
    cases h
    exact ⟨{ up := true, failures := 0 },
      ⟨_, rfl, established_listen hreports (hconnecting hphase)⟩, .opened hrun rfl rfl rfl⟩
  | CLIENT_RECEIVE _ | CLIENT_WRITEABLE | TIMER | CLIENT_RECEIVE_PONG =>
    exact ⟨l, callback_told_open h hrun (hopen hphase) trivial htold⟩
  | CLIENT_CONNECTION_ERROR msg =>
    have hup := hconnecting hphase
    simp only [Sys.callback, Option.some.injEq, Prod.mk.injEq] at h
    obtain ⟨_, rfl⟩ := h
    by_cases hstop : s.c.stopping = true
    · have heq := connection_error_stopping hstop msg
      exact ⟨l, .of_eq (by simp [heq]), .closed (by simp [heq]) hup (by simpa [heq] using hcount)⟩
    · have hgoing : s.c.stopping = false := by simpa using hstop
      have heq := connection_error_going hgoing msg
      exact ⟨_, ⟨_, rfl, connection_error_listen hreports hgoing hup msg⟩,
        .closed (by simp [heq]) rfl (by simp [heq, hcount])⟩
  | CLIENT_CLOSED =>
    simp only [Sys.callback, Option.some.injEq, Prod.mk.injEq] at h
    obtain ⟨rfl, rfl⟩ := h
    by_cases hstop : s.c.stopping = true
    · have heq := closed_stopping hstop
      refine ⟨l, .of_eq (by simp [heq]), ⟨by simpa [heq] using hcount,
        fun hcreated => absurd (hrun.symm.trans hcreated) (by simp), fun _ => by simp [heq],
        fun _ _ _ => ⟨?_, by simpa [heq] using hstop, .inl (by simp [hstop])⟩⟩⟩
      exact .of_closed (w := w) (hpos.up_of_live (.inr hphase)).only fun v => by simp
    · have hgoing : s.c.stopping = false := by simpa using hstop
      have heq := closed_going hgoing
      exact ⟨_, ⟨_, rfl, closed_listen hreports hgoing⟩,
        .closed (by simp [heq]) rfl (by simp [heq, hcount])⟩
  | WSI_DESTROY =>
    obtain ⟨wsi, hc⟩ := wsi_destroy_client s.c w
    cases h
    refine ⟨l, .of_eq (by simp), ⟨by simpa [hc] using hcount, by simpa using htold.created,
      fun _ hstate => htold.up hrun (by simpa [hc] using hstate), fun _ hstate hup => ?_⟩⟩
    obtain ⟨hnone, hstop, _⟩ := htold.down hrun (by simpa [hc] using hstate) hup
    refine ⟨fun v hlive => ?_, by simpa [hc] using hstop, .inl rfl⟩
    by_cases hv : v = w
    · subst hv
      simp [lws_context.Live] at hlive
    · exact hnone v (by simpa [lws_context.Live, hv] using hlive)
  | CLIENT_APPEND_HANDSHAKE_HEADER =>
    have hup := hconnecting hphase
    cases h
    refine ⟨l, ⟨_, rfl, Listener.listen_callIf fun _ => Listener.hear_attempt hup trivial⟩, ?_⟩
    exact htold.same ⟨rfl, rfl, rfl, fun v => by simp⟩ rfl id rfl id

/-- Inside `lws_context_destroy` nothing is reported. -/
theorem callback_told_destroying {w : WsiId} {a : Answer} {r : Reason}
    (h : s.callback w a r = some (fs, s')) (henabled : s.callback_enabled w r = true)
    (hthread : s.thread = .destroying) (hstop : s.c.stopping = true) (htold : Told [] s l) :
    Hears ch l l s s' ∧ Told fs s' l := by
  cases r with
  | CLIENT_CONNECTION_ERROR msg =>
    have heq := connection_error_stopping hstop msg
    cases h
    exact ⟨.of_eq (by simp [heq]), .away (by simp [hthread]) (by simp [hthread])
      (by simpa [heq] using htold.failures)⟩
  | CLIENT_CLOSED =>
    have heq := closed_stopping hstop
    cases h
    exact ⟨.of_eq (by simp [heq]), .away (by simp [hthread]) (by simp [hthread])
      (by simpa [heq] using htold.failures)⟩
  | WSI_DESTROY =>
    obtain ⟨wsi, hc⟩ := wsi_destroy_client s.c w
    cases h
    exact ⟨.of_eq (by simp), .away (by simp [hthread]) (by simp [hthread])
      (by simpa [hc] using htold.failures)⟩
  | _ => simp [Sys.callback_enabled, lws_context.enables, hthread] at henabled

theorem deliver_told {e : Event} (hreports : s.c.Reports ch) (h : s.deliver e = some (fs, s'))
    (hstop : s.thread = .destroying → s.c.stopping = true) (hconn : Conn [] s)
    (htold : Told [] s l) : ∃ m, Hears ch l m s s' ∧ Told fs s' m := by
  cases e with
  | service_thread =>
    simp only [Sys.deliver, Option.ite_none_right_eq_some, Option.some.injEq, Prod.mk.injEq] at h
    obtain ⟨hcreated, rfl, rfl⟩ := h
    obtain ⟨_, _, hstate⟩ := hconn.created hcreated
    exact ⟨l, .of_eq rfl, .closed (by simp [hstate]) (htold.created hcreated) htold.failures⟩
  | callback w r a =>
    simp only [Sys.deliver, Option.ite_none_right_eq_some] at h
    obtain ⟨henabled, h⟩ := h
    cases hthread : s.thread with
    | running => exact callback_told hreports h henabled hthread (hconn.running hthread) htold
    | destroying =>
      exact ⟨l, callback_told_destroying h henabled hthread (hstop hthread) htold⟩
    | _ => cases r <;> simp [Sys.callback_enabled, lws_context.enables, hthread] at henabled
  | event_wait_cancelled wsi =>
    simp only [Sys.deliver, Option.ite_none_right_eq_some, Option.some.injEq, Prod.mk.injEq] at h
    obtain ⟨_, rfl, rfl⟩ := h
    exact ⟨l, .of_eq rfl, htold.same ⟨rfl, rfl, rfl, fun _ => rfl⟩ rfl id rfl fun _ => .inr rfl⟩
  | sul_reconnect_cb =>
    simp only [Sys.deliver, Option.ite_none_right_eq_some, Option.some.injEq, Prod.mk.injEq] at h
    obtain ⟨⟨hrun, hsul⟩, rfl, rfl⟩ := h
    refine ⟨l, .of_eq rfl, ⟨htold.failures, htold.created, htold.up, fun _ hstate hup => ?_⟩⟩
    obtain ⟨hnone, hstopping, _⟩ := htold.down hrun hstate hup
    exact ⟨hnone, hstopping, .inl (by simp [hstopping])⟩
  | exit =>
    simp only [Sys.deliver, Option.ite_none_right_eq_some, Option.map_eq_some_iff,
      Prod.mk.injEq] at h
    obtain ⟨_, ⟨freed, q⟩, _, rfl, rfl⟩ := h
    exact ⟨l, .unheard rfl (Every.map (fun _ => rfl) freed),
      .away (by simp) (by simp) htold.failures⟩
  | context_destroyed =>
    simp only [Sys.deliver, Option.ite_none_right_eq_some, Option.some.injEq, Prod.mk.injEq] at h
    obtain ⟨_, rfl, rfl⟩ := h
    exact ⟨l, .of_eq rfl, .away (by simp) (by simp) htold.failures⟩

/-- Sections that run while no connection is open. -/
def Frame.apart : Frame → Bool
  | .do_connect | .connection_error _ | .wsi_destroy _ | .connect_return false |
    .schedule_reconnect => true
  | _ => false

theorem Position.apart {f : Frame} (h : Position (f :: rest) s) (hf : f.apart = true) :
    s.c.state ≠ .STATE_CONNECTED := by
  cases h with
  | up _ hfs _ => rcases hfs with hfs | hfs | hfs <;> cases hfs <;> cases hf
  | down _ hdown => rcases hdown.state with hstate | hstate <;> simp [hstate]
  | sending _ g hfs hg _ _ =>
    cases hfs
    cases f with
    | q_head_check | lws_callback_on_writable | write _ _ => cases hf
    | _ => exact absurd hg id
  | connect _ _ _ hstate | failing _ _ _ _ hstate => exact hstate

/-- Sections without an open connection: nothing has been reported that is not
    over. -/
theorem svc_told_apart {f : Frame} {a : Answer} (hreports : s.c.Reports ch)
    (h : s.svc f a = some (fs, s')) (hf : f.apart = true) (hstate : s.c.state ≠ .STATE_CONNECTED)
    (hup : l.up = false) (hcount : l.failures = s.c.reconnect_fail_count) :
    ∃ m, Hears ch l m s s' ∧ Told gs s' m := by
  cases f with
  | do_connect =>
    simp only [Sys.svc] at h
    split at h <;> cases h <;>
      exact ⟨l, .unheard rfl (Every.single rfl), .closed (by simp) hup hcount⟩
  | connection_error msg =>
    cases h
    by_cases hstop : s.c.stopping = true
    · have heq := connection_error_stopping hstop msg
      exact ⟨l, .of_eq (by simp [heq]), .closed (by simp [heq]) hup (by simpa [heq] using hcount)⟩
    · have hgoing : s.c.stopping = false := by simpa using hstop
      have heq := connection_error_going hgoing msg
      exact ⟨_, ⟨_, rfl, connection_error_listen hreports hgoing hup msg⟩,
        .closed (by simp [heq]) rfl (by simp [heq, hcount])⟩
  | wsi_destroy w =>
    obtain ⟨wsi, hc⟩ := wsi_destroy_client s.c w
    cases h
    exact ⟨l, .of_eq (by simp), .closed (by simpa [hc] using hstate) hup (by simpa [hc] using hcount)⟩
  | connect_return connected =>
    cases connected with
    | true => cases hf
    | false =>
      cases h
      exact ⟨l, .of_eq (by simp), .closed (by simp) hup hcount⟩
  | schedule_reconnect =>
    cases h
    obtain ⟨delay, state, sul, hc, hstate'⟩ := schedule_reconnect_client s.c a.ret
    refine ⟨l, ⟨_, rfl, schedule_reconnect_listen hup hcount a.ret⟩, .closed ?_ hup ?_⟩
    · rcases hstate' with rfl | rfl <;> simp [hc]
    · simpa [hc] using hcount
  | _ => cases hf

theorem svc_told {f : Frame} {a : Answer} (hreports : s.c.Reports ch)
    (h : s.svc f a = some (fs, s')) (hrun : s.thread = .running)
    (hpos : Position (f :: rest) s) (htold : Told (f :: rest) s l) :
    ∃ m, Hears ch l m s s' ∧ Told (fs ++ rest) s' m := by
  by_cases hf : f.apart = true
  · have hstate := hpos.apart hf
    refine svc_told_apart hreports h hf hstate (htold.busy hrun hstate ?_) htold.failures
    rintro rfl
    cases hf
  · have hsame : ∀ {gs}, f ≠ .event_wait_cancelled → SameLink s s' → s'.thread = s.thread →
        s'.c = s.c → Told gs s' l := fun hother hs hthread hc =>
      htold.same hs hthread (hc ▸ id) (by rw [hc]) fun hfs => by
        rcases hfs with hfs | hfs
        · cases hfs
        · exact absurd (List.cons.inj hfs).1 hother
    cases f with
    | connect_return connected =>
      cases connected with
      | true =>
        cases h
        exact ⟨l, .of_eq rfl, hsame (by simp) ⟨rfl, rfl, rfl, fun _ => rfl⟩ rfl rfl⟩
      | false => exact absurd rfl hf
    | q_head_check =>
      cases h
      exact ⟨l, .of_eq rfl, hsame (by simp) ⟨rfl, rfl, rfl, fun _ => rfl⟩ rfl rfl⟩
    | lws_callback_on_writable =>
      cases h
      exact ⟨l, .unheard rfl (Every.onWsi fun _ => rfl),
        hsame (by simp) ⟨rfl, rfl, rfl, fun v => by simp⟩ rfl rfl⟩
    | write w n =>
      have hacts : Every Act.unheard (writeable_write n w) := Every.pair rfl rfl
      simp only [Sys.svc] at h
      split at h <;> cases h <;>
        exact ⟨l, .unheard rfl hacts, hsame (by simp) ⟨rfl, rfl, rfl, fun v => by simp⟩ rfl rfl⟩
    | event_wait_cancelled =>
      cases h
      refine ⟨l, .unheard rfl ?_, htold.same ⟨rfl, rfl, rfl, fun v => by simp⟩ rfl id rfl
        fun hfs => ?_⟩
      · unfold event_wait_cancelled
        split
        · exact Every.nil
        · exact Every.onWsi fun _ => rfl
      · rcases hfs with hfs | hfs
        · cases hfs
        · exact .inl (by simpa using hfs)
    | do_connect | connection_error _ | wsi_destroy _ | schedule_reconnect => exact absurd rfl hf

/-- A send is not heard. -/
theorem app_sends_told {f : AppFrame} {a : Answer} {as : List AppFrame}
    (h : s.app f a = some (as, s')) (hsends : f.sends = true) :
    Hears ch l l s s' ∧ s'.c.reconnect_fail_count = s.c.reconnect_fail_count := by
  cases f with
  | enqueue_msg data is_binary =>
    cases data <;> cases h
    · exact ⟨.unheard rfl (Every.single rfl), rfl⟩
    · exact ⟨.of_eq rfl, rfl⟩
  | enqueue_msg_locked data is_binary =>
    simp only [Sys.app, Option.some.injEq, Prod.mk.injEq] at h
    obtain ⟨_, rfl⟩ := h
    refine ⟨.unheard rfl (Every.single rfl), ?_⟩
    rcases enqueue_msg_locked_spec s.c data is_binary a.ok with ⟨n, heq, _⟩ | heq <;>
      simp [heq]
  | enqueue_msg_wake =>
    cases h
    exact ⟨.of_eq rfl, rfl⟩
  | lws_cancel_service =>
    cases h
    exact ⟨.unheard rfl (Every.single rfl), rfl⟩
  | _ => cases hsends

/-- A new session starts unconnected, and no other call of the API is heard. -/
theorem app_told {f : AppFrame} {a : Answer} {as : List AppFrame}
    (h : s.app f a = some (as, s')) (howner : f.sends = true ∨ Owner (some f) s)
    (htold : Told fs s l) : ∃ m, Hears ch l m s s' ∧ Told fs s' m := by
  have hcount := htold.failures
  by_cases hsends : f.sends = true
  · obtain ⟨howned, hthread, _⟩ := app_sends h hsends
    obtain ⟨hhears, hfails⟩ : Hears ch l l s s' ∧ _ := app_sends_told h hsends
    exact ⟨l, hhears, htold.same (app_sends_link h hsends) hthread
      (fun hstop => howned.stopping.trans hstop) hfails id⟩
  · replace howner := howner.resolve_left hsends
    cases f with
    | enqueue_msg _ _ | enqueue_msg_locked _ _ | enqueue_msg_wake | lws_cancel_service =>
      exact absurd rfl hsends
    | wsl_start =>
      simp only [Sys.app] at h
      split at h
      · cases h
        exact ⟨l, .of_eq rfl, htold⟩
      · next hstarted =>
        have hthread : s.thread = .none := by simpa [Owner, hstarted] using howner
        split at h <;> cases h <;>
          exact ⟨l, .of_eq rfl, .away (by simp [hthread]) (by simp [hthread]) hcount⟩
    | start_thread =>
      have hthread := howner.1
      simp only [Sys.app] at h
      split at h <;> cases h
      · exact ⟨{ l with up := false }, ⟨_, rfl, Listener.listen_create⟩, .closed (by simp) rfl hcount⟩
      · exact ⟨l, .of_eq (by simp), .away (by simp [hthread]) (by simp [hthread]) hcount⟩
    | start_return =>
      cases h
      exact ⟨l, .of_eq (by simp), htold.same ⟨rfl, rfl, rfl, fun v => by simp⟩ rfl id rfl id⟩
    | wsl_stop =>
      simp only [Sys.app] at h
      split at h <;> cases h
      · exact ⟨l, .of_eq (by simp),
          htold.same ⟨rfl, rfl, rfl, fun v => by simp⟩ rfl (fun _ => rfl) rfl id⟩
      · exact ⟨l, .of_eq rfl, htold⟩
    | stop_cancel =>
      cases h
      refine ⟨l, .unheard rfl ?_, htold.same ⟨rfl, rfl, rfl, fun v => by simp⟩ rfl id rfl id⟩
      dsimp only
      split
      · exact Every.single rfl
      · exact Every.nil
    | stop_join =>
      simp only [Sys.app, Option.ite_none_right_eq_some, Option.some.injEq, Prod.mk.injEq] at h
      obtain ⟨hthread, _, rfl⟩ := h
      exact ⟨l, .of_eq (by simp), .away (by simp [hthread]) (by simp [hthread]) hcount⟩
    | stop_context =>
      simp only [Sys.app] at h
      split at h <;> cases h <;> exact ⟨l, .of_eq rfl, .away (by simp) (by simp) hcount⟩
    | stop_context_destroyed =>
      simp only [Sys.app, Option.ite_none_right_eq_some, Option.some.injEq, Prod.mk.injEq] at h
      obtain ⟨hthread, _, rfl⟩ := h
      exact ⟨l, .of_eq (by simp), .away (by simp [hthread]) (by simp [hthread]) hcount⟩
    | stop_return =>
      have hthread := howner.1
      cases h
      exact ⟨l, .of_eq (by simp), .away (by simp [hthread]) (by simp [hthread]) hcount⟩
    | wsl_destroy =>
      cases h
      exact ⟨l, .unheard rfl (Every.single rfl),
        htold.same ⟨rfl, rfl, rfl, fun v => by simp⟩ rfl id rfl id⟩

/-- The listener that has heard all calls so far. -/
def Informed (ch : Channel) (cfg : Config) : Prop :=
  ∃ l, Listener.start.listen ch cfg.shared.trace = some l ∧ Told cfg.svc cfg.shared l

theorem Hears.informed {cfg' : Config} (h : Hears ch l m s cfg'.shared)
    (hbefore : Listener.start.listen ch s.trace = some l) (htold : Told cfg'.svc cfg'.shared m) :
    Informed ch cfg' := by
  obtain ⟨acts, htrace, hacts⟩ := h
  exact ⟨m, htrace ▸ Listener.listen_trans hbefore hacts, htold⟩

theorem Informed.step {cfg cfg' : Config} {label : Label} (hmove : system.Moves cfg label cfg')
    (hlife : Lifecycle cfg) (hconn : Conn cfg.svc cfg.shared) (hreports : cfg.shared.c.Reports ch)
    (h : Informed ch cfg) : Informed ch cfg' := by
  obtain ⟨l, hbefore, htold⟩ := h
  cases hmove with
  | event hdeliver =>
    obtain ⟨m, hhears, htold⟩ := deliver_told hreports hdeliver hlife.owner.destroying hconn htold
    exact hhears.informed hbefore htold
  | svc hsvc =>
    have hrun := hlife.busy (by simp)
    obtain ⟨m, hhears, htold⟩ := svc_told hreports hsvc hrun (hconn.running hrun) htold
    exact hhears.informed hbefore htold
  | call _ _ => exact ⟨l, hbefore, htold⟩
  | app htop happ =>
    obtain rfl := hlife.rest_nil htop
    obtain ⟨m, hhears, htold⟩ := app_told happ (hlife.frame htop) htold
    exact hhears.informed hbefore htold

theorem wsl_client.SameConfig.reports {c' : wsl_client} (h : c.SameConfig c')
    (hreports : c.Reports ch) : c'.Reports ch := by
  obtain ⟨_, _, _, _, _, _, _, _, _, _, _, _, rfl⟩ := h
  exact hreports

theorem Reaches.informed (hc : c.Fresh) (hreports : c.Reports ch) {cfg : Config}
    (h : system.Reaches Any (initial c) cfg) : Informed ch cfg := by
  refine h.invariant_under
    (J := fun mid => Lifecycle mid ∧ Conn mid.svc mid.shared ∧ mid.shared.c.Reports ch)
    (fun mid hmid => ⟨Reachable.lifecycle ⟨c, hc, hmid⟩, Reachable.conn ⟨c, hc, hmid⟩,
      (Reaches.same_config hmid).reports hreports⟩) ?_
    fun _ _ _ ⟨hlife, hconn, hhooks⟩ _ hmove => Informed.step hmove hlife hconn hhooks
  exact ⟨.start, rfl, .away (by simp [initial]) (by simp [initial]) hc.fail_count.symm⟩

theorem Position.connected_iff (h : Position fs s) :
    s.c.state = .STATE_CONNECTED ↔ ∃ w, s.lws.phase w = some .established := by
  have hup : ∀ {w}, Up s w → (s.c.state = .STATE_CONNECTED ↔
      ∃ w, s.lws.phase w = some .established) := by
    intro w hup
    refine ⟨fun hstate => ⟨w, hup.established hstate⟩, fun ⟨v, hopen⟩ => ?_⟩
    obtain rfl := hup.only v (.inr hopen)
    rcases hup.state with ⟨hother, _⟩ | ⟨_, hstate⟩
    · rw [hopen] at hother
      cases hother
    · exact hstate
  have hnone : s.NoLive → s.c.state ≠ .STATE_CONNECTED → (s.c.state = .STATE_CONNECTED ↔
      ∃ w, s.lws.phase w = some .established) := fun hnone hstate =>
    ⟨fun hother => absurd hother hstate, fun ⟨v, hopen⟩ => absurd (.inr hopen) (hnone v)⟩
  cases h with
  | up _ _ h | sending _ _ _ _ h _ => exact hup h
  | down _ h =>
    refine hnone h.none_live ?_
    rcases h.state with hstate | hstate <;> simp [hstate]
  | connect _ h _ hstate | failing _ _ _ h hstate => exact hnone h hstate

/-- In every run the calls of a client's callbacks and hooks fit together, on each
    of the two channels that is set: a connection is reported only after the loss
    of the one before, messages and heartbeats come only while connected, and
    each decision is asked for with the failures reported since the last
    connection. While the client runs and is not stopping, what has been reported
    last is whether it has an open connection. -/
theorem notifications_fit (ch : Channel) {cfg : Config} (hc : c.Fresh) (hreports : c.Reports ch)
    (h : system.Reaches Any (initial c) cfg) :
    ∃ l, Listener.start.listen ch cfg.shared.trace = some l ∧
      l.failures = cfg.shared.c.reconnect_fail_count ∧
      (cfg.shared.thread = .running → cfg.shared.c.stopping = false →
        (l.up = true ↔ ∃ w, cfg.shared.lws.phase w = some .established)) := by
  obtain ⟨l, hlisten, htold⟩ := Reaches.informed hc hreports h
  refine ⟨l, hlisten, htold.failures, fun hrun hgoing => ?_⟩
  rw [← ((Reachable.conn ⟨c, hc, h⟩).running hrun).connected_iff]
  refine ⟨fun hup => ?_, htold.up hrun⟩
  by_contra hstate
  obtain ⟨_, hstop, _⟩ := htold.down hrun hstate hup
  rw [hgoing] at hstop
  cases hstop

def reporting : wsl_client :=
  wsl_set_conn_cb (wsl_set_event_hooks (wsl_create "localhost" 9000 none true)
    (some ⟨true, true, true, true, true, true, true⟩)) true

/-- A connection that is refused, one that is lost, and one that is open when the
    client is stopped and started again. -/
def sessions_run : List Label :=
  [.call 0 .wsl_start, .app 0 {}, .app 0 {}, .app 0 {}, .event .service_thread,
    .svc { connect := .refused (some none) true }, .svc {}, .svc {}, .svc {}, .svc {}, .svc {},
    .event .sul_reconnect_cb, .svc { connect := .accepted }, .svc {},
    .event (.callback 1 .CLIENT_ESTABLISHED {}), .svc {}, .event (.callback 1 .CLIENT_CLOSED {}),
    .svc {}, .event (.callback 1 .WSI_DESTROY {}), .event .sul_reconnect_cb,
    .svc { connect := .accepted }, .svc {}, .event (.callback 2 .CLIENT_ESTABLISHED {}), .svc {},
    .call 0 .wsl_stop, .app 0 {}, .app 0 {}, .event .exit, .app 0 {}, .app 0 {},
    .event .context_destroyed, .app 0 {}, .app 0 {}] ++ connected_run.take 7 ++
  [.event (.callback 3 .CLIENT_ESTABLISHED {}), .svc {}]

theorem notifications_fit_sessions : ∃ cfg : Config, ∃ l,
    Listener.start.listen .hooks cfg.shared.trace = some l ∧ l.up = true ∧
    Listener.start.listen .conn_cb cfg.shared.trace = some l := by
  obtain ⟨cfg, hfollows, hrun, hgoing, hopen⟩ : ∃ cfg,
      system.Follows Any (initial reporting) sessions_run cfg ∧
      cfg.shared.thread = .running ∧ cfg.shared.c.stopping = false ∧
      cfg.shared.lws.phase 3 = some .established := System.exists_follows_of_run (by decide)
  have hfresh : reporting.Fresh := by constructor <;> rfl
  obtain ⟨l, hlisten, hcount, hup⟩ :=
    notifications_fit .hooks hfresh ⟨rfl, rfl⟩ hfollows.reaches
  obtain ⟨m, hlisten', hcount', hup'⟩ :=
    notifications_fit .conn_cb hfresh ⟨rfl, rfl⟩ hfollows.reaches
  have hl : l.up = true := (hup hrun hgoing).mpr ⟨3, hopen⟩
  have hm : m.up = true := (hup' hrun hgoing).mpr ⟨3, hopen⟩
  have heq : m = l := by
    cases l
    cases m
    simp_all
  exact ⟨cfg, l, hlisten, hl, heq ▸ hlisten'⟩

end lws_client.ws_client_v2
