import LwsClientDemo.Heartbeat
import LwsClientDemo.WsPool.Connection
import LwsClientDemo.WsPool.Decisions

open interleaving

namespace lws_client.ws_pool

@[simp] theorem Sys.setLws_client (s : Sys) (x : lws_context) : (s.setLws x).client = s.client := rfl

@[simp] theorem Sys.setLws_trace (s : Sys) (x : lws_context) : (s.setLws x).trace = s.trace := rfl

/-- What a step tells of connection `w`. -/
def told (w : WsiId) : Label → List Pulse
  | .event (.callback _ v .CLIENT_ESTABLISHED _) => if v = w then [.established] else []
  | .event (.callback _ v .CLIENT_RECEIVE_PONG _) => if v = w then [.pong] else []
  | _ => []

/-- The part of a step in the heartbeat of connection `w` of client `d`: what it
    tells, and the PINGs among the client's calls. -/
def pulses (d : ClientId) (w : WsiId) (cfg : Config) (l : Label) : List Pulse :=
  told w l ++ pinged w (calls d cfg l)

variable {d : ClientId} {w : WsiId} {sends : Prop} {s s' : Sys} {cfg next : Config} {l : Label} {acts : List Act}

/-- A hook may claim the TIMERs of client `d`. -/
def Sys.ticks (s : Sys) (d : ClientId) : Prop :=
  hooked (s.client d).hooks (·.on_heartbeat_tick) = true

/-- A WRITEABLE of connection `w` of client `d` that finds a ping to send. -/
def writes_ping (d : ClientId) (w : WsiId) (cfg : Config) (l : Label) : Prop :=
  (cfg.shared.client d).send_ping = true ∧ ∃ a, l = .event (.callback d w .CLIENT_WRITEABLE a)

/-- What a step does to the heartbeat of connection `w` of client `d`, open behind it. -/
def StepBeats (d : ClientId) (w : WsiId) (sends : Prop) (s s' : Sys) (acts : List Act) (pulses : List Pulse) : Prop :=
  Beats w (s.lws.link w = some (d, .established)) (s.ticks d) sends (s.client d).ping_interval_ms
    (s.client d).pong_timeout_ms s.lws s'.lws (s.client d).ping_pending (s'.client d).ping_pending
    acts pulses

def Beating (d : ClientId) (w : WsiId) (cfg next : Config) (l : Label) : Prop :=
  ∃ acts, next.shared.trace d = cfg.shared.trace d ++ acts ∧
    StepBeats d w (writes_ping d w cfg l) cfg.shared next.shared acts (pulses d w cfg l)

/-- A section that is none of client `d`'s heartbeat. -/
structure Still (d : ClientId) (s s' : Sys) : Prop where
  pending : (s'.client d).ping_pending = (s.client d).ping_pending
  trace : Makes Act.timeless s s' d

theorem Still.of_eq (hclient : s'.client d = s.client d) (htrace : s'.trace d = s.trace d) :
    Still d s s' :=
  ⟨by rw [hclient], .of_eq htrace⟩

theorem Still.act (s : Sys) {c : ClientId} {r : wsp_client × List Act}
    (hpending : r.1.ping_pending = (s.client c).ping_pending) (hacts : Every Act.timeless r.2)
    (d : ClientId) : Still d s (s.act c r) :=
  ⟨Sys.act_related (R := fun x y => y.ping_pending = x.ping_pending) (fun _ => rfl) hpending d,
    .act hacts d⟩

theorem Still.trans {s'' : Sys} (h₁ : Still d s s') (h₂ : Still d s' s'') : Still d s s'' :=
  ⟨h₂.pending.trans h₁.pending, h₁.trace.trans h₂.trace⟩

theorem Beating.of_still (hstep : system.step cfg l = some next)
    (htold : told w l = [])
    (hopen : next.shared.lws.link w = some (d, .established))
    (hstill : Still d cfg.shared next.shared) (hat : cfg.shared.lws.SteadyAt next.shared.lws w) :
    Beating d w cfg next l := by
  obtain ⟨hpending, acts, htrace, hacts⟩ := hstill
  obtain ⟨hbefore, harmed, hfailed⟩ := hat d hopen
  refine ⟨acts, htrace, ?_⟩
  rw [pulses, htold, calls_eq hstep htrace, hacts.pinged]
  exact .quiet hbefore harmed hfailed hpending (hacts.timers w)

theorem timer_pinged (c : wsp_client) (v w : WsiId) (tick : Int) : pinged w (timer c v tick).acts = [] := by
  have hasked : pinged w (callIf (hooked c.hooks (·.on_heartbeat_tick)) .on_heartbeat_tick) = [] :=
    Every.pinged (Every.callIf rfl) w
  unfold timer
  dsimp only
  split
  · rw [pinged_append, hasked]
    split
    · cases c.wsi <;> rfl
    · rfl
  · split
    · exact hasked
    · rw [pinged_append, hasked]
      rfl

/-- TIMER of the connection that the client has stored: claimed by the hook, or as
    `ping_pending` has it. -/
theorem timer_beats {a : Answer} {fs : List Frame} (hopen : s.lws.link w = some (d, .established))
    (hwsi : (s.client d).wsi = some w) (hinterval : s.ticks d → (s.client d).ping_interval_ms > 0)
    (h : s.callback d w a .TIMER = some (fs, s')) :
    StepBeats d w sends s s' (timer (s.client d) w a.ret).acts [] := by
  have hfired : (s.lws.modify w fun i => { i with timer := none }).phase w = some .established := by
    rw [← lws_context.phase_of_link hopen]
    exact s.lws.phase_modify_same w w fun _ => rfl
  have hasked : timers w (callIf (hooked (s.client d).hooks (·.on_heartbeat_tick)) .on_heartbeat_tick) =
      [] := Every.timers (Every.callIf rfl) w
  simp only [Sys.callback, Option.some.injEq, Prod.mk.injEq] at h
  obtain ⟨_, rfl⟩ := h
  rw [Sys.setLws_client]
  by_cases hclaimed : hooked (s.client d).hooks (·.on_heartbeat_tick) = true ∧ a.ret ≠ 0
  · have htimer : timer (s.client d) w a.ret =
        { client := s.client d
          acts := callIf (hooked (s.client d).hooks (·.on_heartbeat_tick)) .on_heartbeat_tick ++
            [.lws_set_timer_usecs w ((s.client d).ping_interval_ms * 1000)], ret := 0 } := by
      rw [timer, if_pos hclaimed, if_pos (hinterval hclaimed.1), hwsi]
      rfl
    rw [htimer, if_neg (by simp)]
    exact .claim hopen hclaimed.1
      (lws_context.armed_performs (List.mem_append_right _ (List.mem_singleton.mpr rfl)) hfired)
      (by simp)
  · cases hpending : (s.client d).ping_pending with
    | true =>
      have htimer : timer (s.client d) w a.ret =
          { client := s.client d
            acts := callIf (hooked (s.client d).hooks (·.on_heartbeat_tick)) .on_heartbeat_tick
            ret := -1 } := by
        rw [timer, if_neg hclaimed, if_pos hpending]
      rw [htimer, if_pos (by simp)]
      refine .expire hopen (lws_context.failed_fail ?_) hpending (by simpa using hpending) hasked
      rw [Sys.act_lws, lws_context.phase_performs]
      exact hfired
    | false =>
      have htimer : timer (s.client d) w a.ret =
          { client := { s.client d with send_ping := true }
            acts := callIf (hooked (s.client d).hooks (·.on_heartbeat_tick)) .on_heartbeat_tick ++
              [.lws_callback_on_writable w,
                .lws_set_timer_usecs w ((s.client d).pong_timeout_ms * 1000)]
            ret := 0 } := by
        rw [timer, if_neg hclaimed, if_neg (by simp [hpending])]
      rw [htimer, if_neg (by simp)]
      refine .request hopen (lws_context.armed_performs (List.mem_append_right _
        (List.mem_cons_of_mem _ (List.mem_singleton.mpr rfl))) hfired) hpending
        (by simpa using hpending) ?_
      rw [timers_append, hasked]
      simp [timers]

theorem schedule_reconnect_timeless (c : wsp_client) (ret : Int) :
    (schedule_reconnect c ret).1.ping_pending = c.ping_pending ∧
      Every Act.timeless (schedule_reconnect c ret).2 := by
  obtain ⟨_, _, _, hc, _⟩ := schedule_reconnect_client c ret
  exact ⟨by rw [hc], schedule_reconnect_acts (fun _ _ => rfl) (fun _ => rfl) c ret⟩

theorem connection_error_timeless (c : wsp_client) (msg : Option String) :
    (connection_error c msg).1.ping_pending = c.ping_pending ∧
      Every Act.timeless (connection_error c msg).2 := by
  obtain ⟨_, _, _, hc, _⟩ := connection_error_client c msg
  exact ⟨by rw [hc], connection_error_acts (fun _ => rfl) rfl c msg⟩

theorem closed_timeless (c : wsp_client) :
    (closed c).1.ping_pending = c.ping_pending ∧ Every Act.timeless (closed c).2 := by
  obtain ⟨_, _, _, hc, _⟩ := closed_client c
  exact ⟨by rw [hc], closed_acts rfl c⟩

theorem wsi_destroy_pending (c : wsp_client) (v : WsiId) :
    (wsi_destroy c v).ping_pending = c.ping_pending := by
  obtain ⟨_, _, hc, _⟩ := wsi_destroy_client c v
  rw [hc]

/-- A callback of the open connection, or the one that opens it. -/
theorem callback_beats {a : Answer} {r : Reason} {fs : List Frame} {app : Nat → List AppFrame}
    (henabled : s.lws.enables s.thread w r = true) (h : s.callback d w a r = some (fs, s'))
    (hjoined : Joined d [] s) (hinterval : s.ticks d → (s.client d).ping_interval_ms > 0)
    (hopen : s'.lws.link w = some (d, .established))
    (hstep : system.step ⟨s, [], app⟩ (.event (.callback d w r a)) = some ⟨s', fs, app⟩) :
    Beating d w ⟨s, [], app⟩ ⟨s', fs, app⟩ (.event (.callback d w r a)) := by
  cases r with
  | CLIENT_ESTABLISHED =>
    cases h
    have htrace : ∀ (x : lws_context), ((s.setLws x).act d (established (s.client d) w)).trace d =
        s.trace d ++ (established (s.client d) w).2 := fun x => by simp
    refine ⟨_, htrace _, ?_⟩
    have hpinged : pinged w (established (s.client d) w).2 = [] := by
      rw [established, ← List.singleton_append, pinged_append, Every.pinged (Every.callIf rfl)]
      rfl
    rw [pulses, calls_eq hstep (htrace _), hpinged, told, if_pos rfl]
    have hopen' : (s.lws.setPhase w .established).phase w = some .established := by
      have hphase := lws_context.phase_of_link hopen
      rwa [Sys.act_lws, lws_context.phase_performs] at hphase
    have hhook : timers w (callIf (hooked (s.client d).hooks (·.on_connected)) .on_connected) = [] :=
      Every.timers (Every.callIf rfl) w
    refine .established (lws_context.armed_performs (List.mem_cons_self ..) hopen') ?_ ?_
    · simp [established]
    · rw [established, ← List.singleton_append, timers_append, hhook]
      simp [timers]
  | CLIENT_RECEIVE chunk =>
    simp only [Sys.callback, Option.map_eq_some_iff, Prod.mk.injEq] at h
    obtain ⟨o, ho, _, rfl⟩ := h
    obtain ⟨frag, hc⟩ := receive_client ho
    have hstill : Still d s (s.act d (o.client, o.acts)) :=
      .act s (by rw [hc]) (receive_acts (fun _ _ => rfl) (fun _ _ => rfl) ho) d
    have hat := s.lws.steadyAt_performs o.acts w
    refine .of_still hstep rfl hopen ?_ ?_
    · split
      · exact ⟨hstill.1, hstill.2⟩
      · exact hstill
    · split
      · exact hat.trans (lws_context.steadyAt_fail _ w w)
      · exact hat
  | CLIENT_WRITEABLE =>
    have hsteady : s.lws.Steady (s.lws.modify w fun i => { i with writable := false }) :=
      s.lws.steady_modify w (fun _ => id) (fun _ => id) fun _ => id
    have htaken := hsteady.at (s.lws.sameLinks_modify w fun _ => ⟨rfl, rfl⟩) w
    simp only [Sys.callback] at h
    split at h
    · next hsends =>
      cases h
      have htrace : ∀ (x : lws_context), ((s.setLws x).act d (writeable_ping (s.client d) w)).trace d =
          s.trace d ++ (writeable_ping (s.client d) w).2 := fun x => by simp
      obtain ⟨hlink, harmed, hfailed⟩ :=
        (htaken.trans (lws_context.steadyAt_performs _ (writeable_ping (s.client d) w).2 w)) d hopen
      refine ⟨_, htrace _, ?_⟩
      have hpinged : pinged w (writeable_ping (s.client d) w).2 = [.ping] := by
        simp [pinged, writeable_ping]
      rw [pulses, calls_eq hstep (htrace _), hpinged]
      exact .ping hlink ⟨hsends, a, rfl⟩ harmed hfailed (by simp [writeable_ping]) rfl
    · split at h
      · cases h
        exact .of_still hstep rfl hopen (.of_eq rfl rfl) htaken
      · next n q _ =>
        cases h
        have hstill := Still.act s (c := d) (r := ({ s.client d with q }, [])) rfl Every.nil d
        exact .of_still hstep rfl hopen ⟨hstill.1, hstill.2⟩ htaken
  | TIMER =>
    have hlinks : s.lws.SameLinks s'.lws := by
      have hfired : s.lws.SameLinks (s.lws.modify w fun i => { i with timer := none }) :=
        s.lws.sameLinks_modify w fun _ => ⟨rfl, rfl⟩
      simp only [Sys.callback, Option.some.injEq, Prod.mk.injEq] at h
      obtain ⟨_, rfl⟩ := h
      split
      · exact (hfired.trans (lws_context.sameLinks_performs _ _)).trans (lws_context.sameLinks_fail _ w)
      · exact hfired.trans (lws_context.sameLinks_performs _ _)
    have hlink : s.lws.link w = some (d, .established) := hlinks.link w ▸ hopen
    have hwsi : (s.client d).wsi = some w := by
      have howns := lws_context.owns_eq_true.mpr ⟨_, hlink, by decide⟩
      exact (hjoined.stored w howns).resolve_right (by simp)
    have htrace : s'.trace d = s.trace d ++ (timer (s.client d) w a.ret).acts := by
      simp only [Sys.callback, Option.some.injEq, Prod.mk.injEq] at h
      obtain ⟨_, rfl⟩ := h
      split <;> simp
    refine ⟨_, htrace, ?_⟩
    rw [pulses, calls_eq hstep htrace, timer_pinged]
    exact timer_beats hlink hwsi hinterval h
  | CLIENT_RECEIVE_PONG =>
    cases h
    have htrace : (s.act d (receive_pong (s.client d) w)).trace d =
        s.trace d ++ (receive_pong (s.client d) w).2 := by simp
    refine ⟨_, htrace, ?_⟩
    rw [pulses, calls_eq hstep htrace, told, if_pos rfl]
    have hlink : s.lws.link w = some (d, .established) := by
      rwa [Sys.act_lws, (s.lws.sameLinks_performs _).link] at hopen
    refine .pong hlink (lws_context.armed_performs (List.mem_singleton.mpr rfl)
      (lws_context.phase_of_link hlink)) (by simp [receive_pong]) (by simp [timers, receive_pong])
  | CLIENT_CONNECTION_ERROR msg =>
    cases h
    obtain ⟨hpending, hacts⟩ := connection_error_timeless (s.client d) msg
    have hstill := Still.act s hpending hacts d
    exact .of_still hstep rfl hopen ⟨hstill.1, hstill.2⟩
      ((s.lws.steadyAt_close w w).trans (lws_context.steadyAt_performs _ _ w))
  | CLIENT_CLOSED =>
    cases h
    obtain ⟨hpending, hacts⟩ := closed_timeless (s.client d)
    have hstill := Still.act s hpending hacts d
    exact .of_still hstep rfl hopen ⟨hstill.1, hstill.2⟩
      ((s.lws.steadyAt_close w w).trans (lws_context.steadyAt_performs _ _ w))
  | WSI_DESTROY =>
    cases h
    have hstill := Still.act s (r := (wsi_destroy (s.client d) w, []))
      (wsi_destroy_pending (s.client d) w) Every.nil d
    exact .of_still hstep rfl hopen ⟨hstill.1, hstill.2⟩ (s.lws.steadyAt_remove w w)
  | CLIENT_APPEND_HANDSHAKE_HEADER =>
    cases h
    exact .of_still hstep rfl hopen (.act s rfl (Every.callIf rfl) d)
      (s.lws.steadyAt_performs _ w)

theorem told_other {c : ClientId} {v : WsiId} {a : Answer} {r : Reason} (hv : w ≠ v) :
    told w (.event (.callback c v r a)) = [] := by
  cases r <;> first | rfl | exact if_neg hv.symm

/-- A callback leaves the other connections alone. -/
theorem callback_steadyAt {c : ClientId} {v : WsiId} {a : Answer} {r : Reason} {fs : List Frame}
    (h : s.callback c v a r = some (fs, s')) (hv : w ≠ v) : s.lws.SteadyAt s'.lws w := by
  have hacts : ∀ (f : Wsi → Wsi) (acts : List Act),
      s.lws.SteadyAt ((s.lws.modify v f).performs acts) w := fun f acts =>
    (s.lws.steadyAt_modify hv f).trans (lws_context.steadyAt_performs _ acts w)
  cases r with
  | CLIENT_ESTABLISHED | CLIENT_CONNECTION_ERROR msg | CLIENT_CLOSED =>
    cases h
    exact hacts _ _
  | CLIENT_RECEIVE chunk =>
    simp only [Sys.callback, Option.map_eq_some_iff, Prod.mk.injEq] at h
    obtain ⟨o, _, _, rfl⟩ := h
    have hat := s.lws.steadyAt_performs o.acts w
    split
    · exact hat.trans (lws_context.steadyAt_fail _ v w)
    · exact hat
  | CLIENT_WRITEABLE =>
    simp only [Sys.callback] at h
    split at h
    · cases h
      exact hacts _ _
    · split at h <;> cases h <;> exact s.lws.steadyAt_modify hv _
  | TIMER =>
    simp only [Sys.callback, Option.some.injEq, Prod.mk.injEq] at h
    obtain ⟨_, rfl⟩ := h
    split
    · exact (hacts _ _).trans (lws_context.steadyAt_fail _ v w)
    · exact hacts _ _
  | CLIENT_RECEIVE_PONG | CLIENT_APPEND_HANDSHAKE_HEADER =>
    cases h
    exact s.lws.steadyAt_performs _ w
  | WSI_DESTROY =>
    cases h
    exact s.lws.steadyAt_remove v w

/-- A callback of another client. -/
theorem callback_other {c : ClientId} {v : WsiId} {a : Answer} {r : Reason} {fs : List Frame}
    (h : s.callback c v a r = some (fs, s')) (hd : d ≠ c) :
    s'.client d = s.client d ∧ s'.trace d = s.trace d := by
  have hother : ∀ (s : Sys) (r : wsp_client × List Act),
      (s.act c r).client d = s.client d ∧ (s.act c r).trace d = s.trace d :=
    fun s r => by simp [hd]
  cases r with
  | CLIENT_RECEIVE chunk =>
    simp only [Sys.callback, Option.map_eq_some_iff, Prod.mk.injEq] at h
    obtain ⟨o, _, _, rfl⟩ := h
    split <;> exact hother s _
  | CLIENT_WRITEABLE =>
    simp only [Sys.callback] at h
    split at h
    · cases h
      exact hother (s.setLws _) _
    · split at h <;> cases h
      · exact ⟨rfl, rfl⟩
      · exact hother (s.setLws _) _
  | TIMER =>
    simp only [Sys.callback, Option.some.injEq, Prod.mk.injEq] at h
    obtain ⟨_, rfl⟩ := h
    split <;> exact hother (s.setLws _) _
  | CLIENT_RECEIVE_PONG | CLIENT_APPEND_HANDSHAKE_HEADER =>
    cases h
    exact hother s _
  | _ =>
    cases h
    exact hother (s.setLws _) _

/-- Callbacks of the client's other connections come only behind their end. -/
theorem callback_beats_other {c : ClientId} {v : WsiId} {a : Answer} {r : Reason} {fs : List Frame}
    {app : Nat → List AppFrame} (huser : (s.lws.wsi v).any (fun i => i.user == c) = true)
    (henabled : s.lws.enables s.thread v r = true) (h : s.callback c v a r = some (fs, s'))
    (hv : w ≠ v) (hlinked : Linked d ⟨s, [], app⟩) (hopen : s'.lws.link w = some (d, .established))
    (hstep : system.step ⟨s, [], app⟩ (.event (.callback c v r a)) = some ⟨s', fs, app⟩) :
    Beating d w ⟨s, [], app⟩ ⟨s', fs, app⟩ (.event (.callback c v r a)) := by
  have hat := callback_steadyAt h hv
  refine .of_still hstep (told_other hv) hopen ?_ hat
  by_cases hd : d = c
  · subst hd
    by_cases hr : r = .WSI_DESTROY
    · subst hr
      cases h
      have hstill := Still.act s (r := (wsi_destroy (s.client d) v, []))
        (wsi_destroy_pending (s.client d) v) Every.nil d
      exact ⟨hstill.1, hstill.2⟩
    · exfalso
      have hw := lws_context.owns_eq_true.mpr ⟨_, (hat d hopen).1, by decide⟩
      have hphase := lws_context.phase_of_enables_ne henabled hr
      have hlive : s.lws.owns d v = true := by
        obtain ⟨i, hi, huser⟩ := (Option.any_eq_true _ _).mp huser
        rw [lws_context.phase, hi, Option.map_some, Option.some.injEq] at hphase
        rw [lws_context.owns_eq_true]
        refine ⟨r.phase, ?_, by cases r <;> first | exact absurd rfl hr | simp [Reason.phase]⟩
        simpa [lws_context.link, hi, hphase] using huser
      have hone := Nat.le_trans lives_le_seats (hlinked.one)
      exact hv (hlinked.joined.bounded.unique hone hw hlive)
  · obtain ⟨hclient, htrace⟩ := callback_other h hd
    exact .of_eq hclient htrace

/-- An event moves no connection to another client. -/
theorem Relinks.user {fs : List Frame} {v : WsiId} {user : Nat} {p : WsiPhase}
    (h : Relinks s s' none fs) (hlink : s'.lws.link v = some (user, p)) :
    ∃ q, s.lws.link v = some (user, q) := by
  have hset : ∀ {u : WsiId} {q : WsiPhase}, (s.lws.setPhase u q).SameLinks s'.lws →
      ∃ q, s.lws.link v = some (user, q) := by
    intro u q hsame
    rw [hsame.link, lws_context.link_setPhase] at hlink
    split at hlink
    · next hv =>
      obtain ⟨⟨_, q'⟩, hbefore, heq⟩ := Option.map_eq_some_iff.mp hlink
      simp only [Prod.mk.injEq] at heq
      exact ⟨q', by rw [hv, hbefore, heq.1]⟩
    · exact ⟨p, hlink⟩
  cases h with
  | still hsame _ _ _ => exact ⟨p, hsame.link v ▸ hlink⟩
  | establish _ _ hsame _ | close _ _ hsame _ _ _ _ _ => exact hset hsame
  | remove _ _ hsame _ _ _ =>
    rw [hsame.link, lws_context.link_remove] at hlink
    split at hlink
    · cases hlink
    · exact ⟨p, hlink⟩
  | finish _ hlws _ _ =>
    rw [hlws] at hlink
    cases hlink

theorem deliver_beats {e : Event} {fs : List Frame} {app : Nat → List AppFrame}
    (h : s.deliver e = some (fs, s')) (hlinked : Linked d ⟨s, [], app⟩)
    (hinterval : s.ticks d → (s.client d).ping_interval_ms > 0)
    (hopen : s'.lws.link w = some (d, .established))
    (hstep : system.step ⟨s, [], app⟩ (.event e) = some ⟨s', fs, app⟩) :
    Beating d w ⟨s, [], app⟩ ⟨s', fs, app⟩ (.event e) := by
  cases e with
  | callback c v r a =>
    obtain ⟨q, hlink⟩ := (deliver_relinks h).user hopen
    simp only [Sys.deliver, Option.ite_none_right_eq_some, Bool.and_eq_true] at h
    obtain ⟨⟨huser, henabled⟩, h⟩ := h
    by_cases hv : w = v
    · subst hv
      obtain rfl : c = d := by
        obtain ⟨i, hi, huser⟩ := (Option.any_eq_true _ _).mp huser
        simp only [lws_context.link, hi, Option.map_some, Option.some.injEq, Prod.mk.injEq] at hlink
        exact (by simpa using huser : i.user = c).symm.trans hlink.1
      exact callback_beats henabled h hlinked.joined hinterval hopen hstep
    · exact callback_beats_other huser henabled h hv hlinked hopen hstep
  | sul_reconnect_cb c =>
    simp only [Sys.deliver, Option.ite_none_right_eq_some, Option.some.injEq, Prod.mk.injEq] at h
    obtain ⟨_, _, rfl⟩ := h
    exact .of_still hstep rfl hopen (.act s rfl Every.nil d) (.of_eq rfl)
  | context_destroyed =>
    simp only [Sys.deliver, Option.ite_none_right_eq_some, Option.some.injEq, Prod.mk.injEq] at h
    obtain ⟨_, _, rfl⟩ := h
    cases hopen
  | _ =>
    simp only [Sys.deliver, Option.ite_none_right_eq_some, Option.some.injEq, Prod.mk.injEq] at h
    obtain ⟨_, _, rfl⟩ := h
    exact .of_still hstep rfl hopen (.of_eq rfl rfl) (.of_eq rfl)

theorem svc_beats {f : Frame} {a : Answer} {rest fs : List Frame} {app : Nat → List AppFrame}
    (h : s.svc f a = some (fs, s')) (hopen : s'.lws.link w = some (d, .established))
    (hstep : system.step ⟨s, f :: rest, app⟩ (.svc a) = some ⟨s', fs ++ rest, app⟩) :
    Beating d w ⟨s, f :: rest, app⟩ ⟨s', fs ++ rest, app⟩ (.svc a) := by
  have hnothing : ∀ {r : wsp_client × List Act} {c : ClientId},
      r.1.ping_pending = (s.client c).ping_pending → Every Act.timeless r.2 → s' = s.act c r →
      Beating d w ⟨s, f :: rest, app⟩ ⟨s', fs ++ rest, app⟩ (.svc a) := by
    rintro r c hpending hacts rfl
    exact .of_still hstep rfl hopen (.act s hpending hacts d) (s.lws.steadyAt_performs _ w)
  cases f with
  | do_connect c =>
    have hconnect : Every Act.timeless [.lws_client_connect_via_info (connect_info (s.client c))] :=
      Every.single rfl
    have hstill := Still.act s (r := ({ s.client c with state := .STATE_CONNECTING },
      [.lws_client_connect_via_info (connect_info (s.client c))])) rfl hconnect d
    simp only [Sys.svc] at h
    split at h <;> cases h
    · exact .of_still hstep rfl hopen ⟨hstill.1, hstill.2⟩ (s.lws.steadyAt_connect c w)
    · exact .of_still hstep rfl hopen ⟨hstill.1, hstill.2⟩ (.of_eq rfl)
  | connection_error c msg =>
    cases h
    obtain ⟨hpending, hacts⟩ := connection_error_timeless (s.client c) msg
    exact hnothing hpending hacts rfl
  | wsi_destroy c v =>
    cases h
    exact hnothing (r := (_, [])) (wsi_destroy_pending (s.client c) v) Every.nil rfl
  | schedule_arm c =>
    cases h
    obtain ⟨hpending, hacts⟩ := schedule_reconnect_timeless (s.client c) a.ret
    exact hnothing hpending hacts rfl
  | connect_return c wsi =>
    cases h
    exact hnothing (r := ({ s.client c with wsi }, [])) rfl Every.nil rfl
  | lws_callback_on_writable c v =>
    cases h
    exact hnothing (r := (_, [_])) rfl (Every.single rfl) rfl
  | write c v n more =>
    have hacts := write_node_timeless n v
    have hstill := Still.act s (r := (s.client c, writeable_write n v)) rfl hacts d
    have hat := s.lws.steadyAt_performs (writeable_write n v) w
    simp only [Sys.svc] at h
    split at h <;> cases h
    · exact .of_still hstep rfl hopen ⟨hstill.1, hstill.2⟩
        (hat.trans (lws_context.steadyAt_fail _ v w))
    · exact .of_still hstep rfl hopen hstill hat
  | wc_connect pend =>
    cases pend with
    | nil =>
      cases h
      exact .of_still hstep rfl hopen (.of_eq rfl rfl) (.of_eq rfl)
    | cons c pend =>
      cases h
      exact hnothing (r := ({ s.client c with state := .STATE_IDLE }, [])) rfl Every.nil rfl
  | wc_visit snap =>
    cases snap with
    | nil =>
      cases h
      exact .of_still hstep rfl hopen (.of_eq rfl rfl) (.of_eq rfl)
    | cons c snap =>
      simp only [Sys.svc] at h
      split at h
      · cases h
        exact .of_still hstep rfl hopen (.of_eq rfl rfl) (.of_eq rfl)
      · next v _ =>
        split at h
        · cases h
          have hacts : Every Act.timeless [.lws_close_reason v, .lws_callback_on_writable v] :=
            Every.pair rfl rfl
          exact hnothing (r := (s.client c, _)) rfl hacts rfl
        · split at h <;> cases h <;>
            exact .of_still hstep rfl hopen (.of_eq rfl rfl) (.of_eq rfl)
  | _ =>
    cases h
    exact .of_still hstep rfl hopen (.of_eq rfl rfl) (.of_eq rfl)

theorem destroy_client_still {c : ClientId} (h : s.destroy_client c = some s') (d : ClientId) :
    Still d s s' := by
  obtain ⟨freed, rfl⟩ := Sys.destroy_client_eq h
  exact .act s rfl ((Every.map (fun _ => rfl) freed).append (Every.single rfl)) d

theorem destroy_all_still {cs : List ClientId} (h : s.destroy_all cs = some s') (d : ClientId) :
    Still d s s' :=
  destroy_all_rule (R := Still d) (fun _ => .of_eq rfl rfl) Still.trans
    (fun hone => destroy_client_still hone d) h

/-- No API call has to do with heartbeats. -/
theorem app_still {f : AppFrame} {a : Answer} {fs : List AppFrame} (h : s.app f a = some (fs, s'))
    (d : ClientId) : Still d s s' := by
  cases app_touches h d with
  | none hclient htrace hacts =>
    exact ⟨by rw [hclient], _, htrace, every_of_minor hacts (fun _ _ => rfl) (fun _ _ _ => rfl) fun _ => rfl⟩
  | send _ _ hclient htrace | add hclient htrace | sul_cancel hclient htrace =>
    exact ⟨by rw [hclient], _, htrace, Every.single rfl⟩
  | stop _ hclient htrace | lock _ _ hclient _ htrace =>
    exact ⟨by rw [hclient], .of_eq htrace⟩
  | wait _ hclient htrace =>
    rcases htrace with htrace | htrace
    · exact ⟨by rw [hclient], .of_eq htrace⟩
    · exact ⟨by rw [hclient], _, htrace, Every.single rfl⟩
  | @flush _ freed _ _ hclient htrace =>
    exact ⟨by rw [hclient], _, htrace, (Every.map (fun _ => rfl) freed).append (Every.single rfl)⟩
  | destroy hdestroy => exact destroy_client_still hdestroy d
  | destroy_all hdestroy hclient htrace =>
    have hall := destroy_all_still hdestroy d
    exact ⟨by rw [hclient, hall.pending], hall.trace.trans (.of_eq htrace)⟩

/-- What any step does to the heartbeat of a connection that is open behind it. -/
theorem step_beats (hstep : system.step cfg l = some next) (hlinked : Linked d cfg)
    (hinterval : cfg.shared.ticks d → (cfg.shared.client d).ping_interval_ms > 0)
    (hopen : next.shared.lws.link w = some (d, .established)) : Beating d w cfg next l := by
  cases System.step_moves hstep with
  | event hdeliver => exact deliver_beats hdeliver hlinked hinterval hopen hstep
  | svc hsvc => exact svc_beats hsvc hopen hstep
  | call _ _ => exact .of_still hstep rfl hopen (.of_eq rfl rfl) (.of_eq rfl)
  | @app t f a s s' svc app rest fs htop happ =>
    have hat : s.lws.SteadyAt s'.lws w := by
      rcases (app_registers happ).calls with ⟨acts, heq⟩ | heq
      · rw [heq]
        exact s.lws.steadyAt_performs acts w
      · dsimp only at hopen
        rw [heq] at hopen
        cases hopen
    exact .of_still hstep rfl hopen (app_still happ d) hat

/-- The heartbeat of every open connection is alive, in every run that adds a
    client once at a time. -/
theorem Follows.alive {client : ClientId → wsp_client} (hfresh : ∀ c, (client c).Fresh)
    (hinterval : (client d).ping_interval_ms > 0) {ls : List Label}
    (h : system.Follows (AddedOnce d) (initial client) ls cfg) (w : WsiId)
    (hopen : cfg.shared.lws.link w = some (d, .established)) :
    Alive w cfg.shared.lws (cfg.shared.client d).ping_pending
      (system.observe (pulses d w) (initial client) ls) := by
  induction h with
  | nil => cases hopen
  | @snoc ls mid last l hmid _ hstep ih =>
    have hlinked := Reaches.linked (fun _ _ hok => hok) hfresh hmid.reaches
    have hkept : (mid.shared.client d).ping_interval_ms > 0 := by
      rw [Reaches.config hmid.reaches d]
      exact hinterval
    obtain ⟨acts, _, hbeats⟩ := step_beats hstep hlinked (fun _ => hkept) hopen
    rw [hmid.observe_snoc]
    exact hbeats.alive ih

theorem timer_ret {c : wsp_client} {v : WsiId} {tick : Int}
    (h : ¬ (hooked c.hooks (·.on_heartbeat_tick) = true ∧ tick ≠ 0)) :
    (timer c v tick).ret = -1 ↔ c.ping_pending = true := by
  rw [timer, if_neg h]
  cases hpending : c.ping_pending <;> simp

/-- Connection 0 of client 0 is closed with a PING unanswered; on connection 1 a PONG
    comes that answers none, then a PING is written. -/
def unanswered_run : List Label :=
  connected_run ++ [.event (.callback 0 0 .TIMER {}), .event (.callback 0 0 .CLIENT_WRITEABLE {}),
    .svc {}, .event (.callback 0 0 .TIMER {})] ++ reconnected_run ++
  [.event (.callback 0 1 .CLIENT_RECEIVE_PONG {}), .event (.callback 0 1 .TIMER {}),
    .event (.callback 0 1 .CLIENT_WRITEABLE {}), .svc {}]

/-- Threads 1 and 2 add client 0, and both test `c->pool` before either takes the
    lock; a PING is written on the first of its two connections. -/
def added_twice_run : List Label :=
  [.call 0 .wsp_pool_start, .app 0 {}, .app 0 {}, .app 0 {}, .app 0 {}, .event .service_thread,
    .call 1 (.wsp_pool_add 0), .call 2 (.wsp_pool_add 0), .app 1 {}, .app 2 {}, .app 1 {}, .app 1 {},
    .app 2 {}, .app 2 {}, .event (.event_wait_cancelled true), .svc {}, .svc {},
    .svc { connect := .accepted }, .svc {}, .svc {}, .svc { connect := .accepted }, .svc {}, .svc {},
    .svc {}, .svc {}, .svc {}, .svc {}, .event (.callback 0 0 .CLIENT_ESTABLISHED {}),
    .event (.callback 0 1 .CLIENT_ESTABLISHED {}), .event (.callback 0 0 .TIMER {}),
    .event (.callback 0 0 .CLIENT_WRITEABLE {}), .svc {}]

end lws_client.ws_pool
