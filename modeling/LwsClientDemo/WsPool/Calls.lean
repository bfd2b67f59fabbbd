import LwsClientDemo.Handles
import LwsClientDemo.WsPool.Connection

open interleaving

namespace lws_client

/-- The calls are made on connections of `user`. -/
abbrev lws_context.Grants (x : lws_context) (user : Nat) : List Act → Prop :=
  Meets (fun w => x.link w = some (user, .established)) fun w => x.owns user w = true

theorem lws_context.Grants.congr {x y : lws_context} {user : Nat} {acts : List Act}
    (h : x.Grants user acts) (hlinks : x.SameLinks y) : y.Grants user acts :=
  h.mono (fun w hopen => (hlinks.link w).trans hopen) fun w howns => (hlinks.owns user w).trans howns

theorem lws_context.owns_of_link {x : lws_context} {user : Nat} {w : WsiId}
    (h : x.link w = some (user, .established)) : x.owns user w = true :=
  owns_eq_true.mpr ⟨.established, h, by decide⟩

namespace ws_pool

section sections

variable {s s' : Sys} {a : Answer} {d : ClientId}

/-- The section makes, for client `d`, calls on `d`'s own connections. -/
abbrev Called (d : ClientId) (s s' : Sys) : Prop := Extends (s'.lws.Grants d) (s.trace d) (s'.trace d)

theorem Called.act {c : ClientId} {r : wsp_client × List Act} (h : c = d → s.lws.Grants c r.2) :
    Called d s (s.act c r) := by
  by_cases hd : d = c
  · subst hd
    exact ⟨r.2, by simp, (h rfl).congr (s.lws.sameLinks_performs r.2)⟩
  · exact .of_eq (by simp [hd]) .nil

/-- A failed callback leaves the connections what they are. -/
theorem Called.setLws {lws : lws_context} (h : Called d s s') (hlinks : s'.lws.SameLinks lws) :
    Called d s (s'.setLws lws) := by
  obtain ⟨acts, htrace, hgrants⟩ := h
  exact ⟨acts, htrace, hgrants.congr hlinks⟩

theorem callback_called {c : ClientId} {w : WsiId} {r : Reason} {fs : List Frame}
    (h : s.callback c w a r = some (fs, s'))
    (huser : (s.lws.wsi w).any (fun i => i.user == c) = true)
    (henabled : s.lws.enables s.thread w r = true) (hjoined : Joined d [] s) :
    Called d s s' := by
  have hlink := fun hr =>
    lws_context.link_of_phase huser (lws_context.phase_of_enables_ne henabled (r := r) hr)
  cases r with
  | CLIENT_ESTABLISHED =>
    have hconnecting : s.lws.link w = some (c, .connecting) := hlink (by simp)
    cases h
    refine Called.act (s := s.setLws _) fun _ => ?_
    refine .cons (show lws_context.link _ w = _ from ?_) ?_
    · simp [lws_context.link_setPhase, hconnecting]
    · exact .of_every (Every.callIf rfl)
  | CLIENT_RECEIVE chunk =>
    simp only [Sys.callback, Option.map_eq_some_iff, Prod.mk.injEq] at h
    obtain ⟨o, ho, rfl, rfl⟩ := h
    have hcalled : Called d s (s.act c (o.client, o.acts)) :=
      Called.act fun _ => .of_every (receive_acts (fun _ _ => rfl) (fun _ _ => rfl) ho)
    split
    · exact hcalled.setLws (lws_context.sameLinks_fail _ w)
    · exact hcalled
  | CLIENT_WRITEABLE =>
    have hopen : s.lws.link w = some (c, .established) := hlink (by simp)
    have hkept : s.lws.SameLinks (s.lws.modify w fun i => { i with writable := false }) :=
      s.lws.sameLinks_modify w fun _ => ⟨rfl, rfl⟩
    simp only [Sys.callback] at h
    split at h
    · cases h
      refine Called.act (s := s.setLws _) fun _ => .single ?_
      exact (hkept.link w).trans hopen
    · split at h <;> cases h
      · exact .of_eq rfl .nil
      · exact Called.act (s := s.setLws _) fun _ => .nil
  | TIMER =>
    have hopen : s.lws.link w = some (c, .established) := hlink (by simp)
    have hkept : s.lws.SameLinks (s.lws.modify w fun i => { i with timer := none }) :=
      s.lws.sameLinks_modify w fun _ => ⟨rfl, rfl⟩
    have howns : s.lws.owns c w = true := lws_context.owns_of_link hopen
    -- The branch that asks again uses `c->wsi`, which is this connection.
    have hwsi : c = d → (s.client c).wsi = some w := by
      rintro rfl
      rcases hjoined.stored w howns with hwsi | hmem
      · exact hwsi
      · cases hmem
    have hasked : s.lws.Grants c
        (callIf (hooked (s.client c).hooks (·.on_heartbeat_tick)) .on_heartbeat_tick) :=
      .of_every (Every.callIf rfl)
    have hgrants : c = d → s.lws.Grants c (timer (s.client c) w a.ret).acts := by
      intro hc
      unfold timer
      dsimp only
      split
      · refine hasked.append ?_
        split
        · refine .onWsi fun v hv => ?_
          obtain rfl : w = v := Option.some.inj ((hwsi hc).symm.trans hv)
          exact hopen
        · exact .nil
      · split
        · exact hasked
        · refine hasked.append (.pair ?_ ?_)
          · exact howns
          · exact hopen
    simp only [Sys.callback, Option.some.injEq, Prod.mk.injEq] at h
    obtain ⟨_, rfl⟩ := h
    have hcalled := Called.act (s := s.setLws _) (c := c)
      (r := ((timer (s.client c) w a.ret).client, (timer (s.client c) w a.ret).acts))
      fun hc => (hgrants hc).congr hkept
    split
    · exact hcalled.setLws (lws_context.sameLinks_fail _ w)
    · exact hcalled
  | CLIENT_RECEIVE_PONG =>
    have hopen : s.lws.link w = some (c, .established) := hlink (by simp)
    cases h
    refine Called.act fun _ => .single ?_
    exact hopen
  | CLIENT_CONNECTION_ERROR msg =>
    cases h
    exact Called.act (s := s.setLws _) fun _ =>
      .of_every (connection_error_acts (fun _ => rfl) rfl _ msg)
  | CLIENT_CLOSED =>
    cases h
    exact Called.act (s := s.setLws _) fun _ => .of_every (closed_acts rfl _)
  | WSI_DESTROY =>
    cases h
    exact Called.act (s := s.setLws _) fun _ => .nil
  | CLIENT_APPEND_HANDSHAKE_HEADER =>
    have hconnecting : s.lws.link w = some (c, .connecting) := hlink (by simp)
    have howns : s.lws.owns c w = true :=
      lws_context.owns_eq_true.mpr ⟨.connecting, hconnecting, by decide⟩
    cases h
    refine Called.act fun _ => .callIf ?_
    exact howns

theorem deliver_called {e : Event} {fs : List Frame} (h : s.deliver e = some (fs, s'))
    (hjoined : Joined d [] s) : Called d s s' := by
  cases e with
  | callback c w r answer =>
    simp only [Sys.deliver, Option.ite_none_right_eq_some, Bool.and_eq_true] at h
    obtain ⟨⟨huser, henabled⟩, h⟩ := h
    exact callback_called h huser henabled hjoined
  | sul_reconnect_cb c =>
    simp only [Sys.deliver, Option.ite_none_right_eq_some, Option.some.injEq, Prod.mk.injEq] at h
    obtain ⟨_, _, rfl⟩ := h
    exact Called.act fun _ => .nil
  | service_thread | event_wait_cancelled _ | exit | context_destroyed =>
    simp only [Sys.deliver, Option.ite_none_right_eq_some, Option.some.injEq, Prod.mk.injEq] at h
    obtain ⟨_, _, rfl⟩ := h
    exact .of_eq rfl .nil

section app

variable {p : Act → Bool}

/-- What the API functions call, the pool making no call for its thread. -/
theorem destroy_client_makes (hp : ∀ act, Act.of_app act = true → act ≠ .pthread_create → p act = true)
    {c : ClientId} (h : s.destroy_client c = some s') (d : ClientId) : Makes p s s' d := by
  obtain ⟨freed, rfl⟩ := Sys.destroy_client_eq h
  exact .act ((Every.map (fun _ => hp _ rfl (by simp)) freed).append
    (Every.single (hp _ rfl (by simp)))) d

theorem app_makes (hp : ∀ act, Act.of_app act = true → act ≠ .pthread_create → p act = true)
    {f : AppFrame} {fs : List AppFrame} (h : s.app f a = some (fs, s')) (d : ClientId) :
    Makes p s s' d := by
  cases app_touches h d with
  | none _ htrace hacts =>
    exact ⟨_, htrace, every_of_minor hacts (fun _ _ => hp _ rfl (by simp))
      (fun _ _ _ => hp _ rfl (by simp)) fun _ => hp _ rfl (by simp)⟩
  | send _ _ _ htrace | add _ htrace | sul_cancel _ htrace =>
    exact ⟨_, htrace, Every.single (hp _ rfl (by simp))⟩
  | stop _ _ htrace | lock _ _ _ _ htrace => exact .of_eq htrace
  | wait _ _ htrace =>
    rcases htrace with htrace | htrace
    · exact .of_eq htrace
    · exact ⟨_, htrace, Every.single (hp _ rfl (by simp))⟩
  | flush _ _ htrace =>
    exact ⟨_, htrace, (Every.map (fun _ => hp _ rfl (by simp)) _).append
      (Every.single (hp _ rfl (by simp)))⟩
  | destroy hdestroy => exact destroy_client_makes hp hdestroy d
  | destroy_all hdestroy _ htrace =>
    have hall := destroy_all_rule (R := fun s t => Makes p s t d) (fun _ => .of_eq rfl) Makes.trans
      (fun hone => destroy_client_makes hp hone d) hdestroy
    exact hall.trans (.of_eq htrace)

end app

/-- What a section that is run for a connection of client `d` relies on. -/
def Sys.Serves (s : Sys) (d : ClientId) : Frame → Prop
  | .has_data_check c w | .lws_callback_on_writable c w => c = d → s.lws.owns c w = true
  | .write c w _ _ => c = d → s.lws.link w = some (c, .established)
  | _ => True

theorem Sys.Serves.congr {f : Frame} (h : s.Serves d f)
    (hlinks : ∀ w, s'.lws.link w = s.lws.link w) : s'.Serves d f := by
  cases f with
  | has_data_check c w | lws_callback_on_writable c w =>
    exact fun hc => (lws_context.owns_congr (hlinks w) c).trans (h hc)
  | write c w _ _ => exact fun hc => (hlinks w).trans (h hc)
  | _ => trivial

theorem Sys.Serves.of_behind {f : Frame} (h : f.behind = true) : s.Serves d f := by
  cases f <;> first | exact trivial | simp [Frame.behind] at h

theorem svc_called {f : Frame} {fs : List Frame} (h : s.svc f a = some (fs, s'))
    (howned : ∀ w, (s.client d).wsi = some w → s.lws.owns d w = true) (hserves : s.Serves d f) :
    Called d s s' := by
  cases f with
  | do_connect c =>
    simp only [Sys.svc] at h
    split at h <;> cases h
    all_goals
      by_cases hd : d = c
      · subst hd
        exact ⟨[.lws_client_connect_via_info (connect_info (s.client d))], by simp [Sys.setLws],
          .of_every (Every.single rfl)⟩
      · exact .of_eq (by simp [Sys.setLws, hd]) .nil
  | connection_error c msg =>
    cases h
    exact Called.act fun _ => .of_every (connection_error_acts (fun _ => rfl) rfl _ msg)
  | wsi_destroy c w =>
    cases h
    exact Called.act fun _ => .nil
  | connect_return c wsi =>
    cases h
    exact Called.act fun _ => .nil
  | schedule_arm c =>
    cases h
    exact Called.act fun _ =>
      .of_every (schedule_reconnect_acts (fun _ _ => rfl) (fun _ => rfl) _ a.ret)
  | lws_callback_on_writable c w =>
    cases h
    refine Called.act fun hc => .single ?_
    exact hserves hc
  | write c w n more =>
    have hgrants : c = d → s.lws.Grants c (writeable_write n w) := by
      refine fun hc => .pair ?_ trivial
      exact hserves hc
    have hwrite : Called d s (s.act c (s.client c, writeable_write n w)) := Called.act hgrants
    simp only [Sys.svc] at h
    split at h <;> cases h
    · exact hwrite.setLws (lws_context.sameLinks_fail _ w)
    · exact hwrite
  | wc_connect pend =>
    cases pend <;> cases h
    · exact .of_eq rfl .nil
    · exact Called.act fun _ => .nil
  | wc_visit snap =>
    cases snap with
    | nil =>
      cases h
      exact .of_eq rfl .nil
    | cons c snap =>
      simp only [Sys.svc] at h
      split at h
      · cases h
        exact .of_eq rfl .nil
      · next w hw =>
        split at h
        · cases h
          refine Called.act fun hc => ?_
          subst hc
          refine .pair ?_ ?_ <;> exact howned w hw
        · split at h <;> cases h <;> exact .of_eq rfl .nil
  | schedule_reconnect _ | has_data_check _ _ | event_wait_cancelled | wc_snapshot =>
    cases h
    exact .of_eq rfl .nil

/-- A callback runs on its own connection, and the loop of EVENT_WAIT_CANCELLED
    on what `c->wsi` names. -/
theorem deliver_serves {e : Event} {fs : List Frame} (h : s.deliver e = some (fs, s')) :
    ∀ f ∈ fs.head?, s'.Serves d f := by
  cases e with
  | callback c w r answer =>
    simp only [Sys.deliver, Option.ite_none_right_eq_some, Bool.and_eq_true] at h
    obtain ⟨⟨huser, henabled⟩, h⟩ := h
    cases r with
    | CLIENT_WRITEABLE =>
      have hopen : s.lws.link w = some (c, .established) :=
        lws_context.link_of_phase huser (lws_context.phase_of_enables_ne henabled (by simp))
      have hkept : s.lws.SameLinks (s.lws.modify w fun i => { i with writable := false }) :=
        s.lws.sameLinks_modify w fun _ => ⟨rfl, rfl⟩
      simp only [Sys.callback] at h
      split at h
      · cases h
        intro f hf
        obtain rfl : Frame.has_data_check c w = f := Option.some.inj hf
        refine fun _ => (hkept.trans (lws_context.sameLinks_performs _ _)).owns c w |>.trans ?_
        exact lws_context.owns_of_link hopen
      · split at h <;> cases h
        · simp
        · next n q _ =>
          intro f hf
          obtain rfl : Frame.write c w n q.has_data = f := Option.some.inj hf
          exact fun _ => ((hkept.trans (lws_context.sameLinks_performs _ _)).link w).trans hopen
    | CLIENT_RECEIVE chunk =>
      simp only [Sys.callback, Option.map_eq_some_iff, Prod.mk.injEq] at h
      obtain ⟨o, _, rfl, _⟩ := h
      simp
    | CLIENT_CONNECTION_ERROR _ | CLIENT_CLOSED =>
      simp only [Sys.callback, Option.some.injEq, Prod.mk.injEq] at h
      obtain ⟨rfl, _⟩ := h
      intro f hf
      split at hf
      · cases hf
      · obtain rfl : Frame.schedule_reconnect c = f := Option.some.inj hf
        trivial
    | CLIENT_ESTABLISHED | TIMER | CLIENT_RECEIVE_PONG | WSI_DESTROY
    | CLIENT_APPEND_HANDSHAKE_HEADER =>
      cases h
      simp
  | event_wait_cancelled wsi =>
    simp only [Sys.deliver, Option.ite_none_right_eq_some, Option.some.injEq, Prod.mk.injEq] at h
    obtain ⟨_, rfl, _⟩ := h
    intro f hf
    cases wsi <;> cases hf
    trivial
  | sul_reconnect_cb c =>
    simp only [Sys.deliver, Option.ite_none_right_eq_some, Option.some.injEq, Prod.mk.injEq] at h
    obtain ⟨_, rfl, _⟩ := h
    intro f hf
    split at hf <;> cases hf
    trivial
  | service_thread | exit | context_destroyed =>
    simp only [Sys.deliver, Option.ite_none_right_eq_some, Option.some.injEq, Prod.mk.injEq] at h
    obtain ⟨_, rfl, _⟩ := h
    simp

theorem svc_serves {f : Frame} {fs : List Frame} (h : s.svc f a = some (fs, s'))
    (howned : ∀ w, (s.client d).wsi = some w → s.lws.owns d w = true) (hserves : s.Serves d f) :
    ∀ g ∈ fs.head?, s'.Serves d g := by
  cases f with
  | do_connect c =>
    simp only [Sys.svc] at h
    split at h
    · cases h
      intro g hg
      cases hg
      trivial
    · next error destroyed _ =>
      cases h
      intro g hg
      cases error <;> cases destroyed <;> cases hg <;> trivial
  | connection_error c msg =>
    cases h
    intro g hg
    split at hg <;> cases hg
    trivial
  | connect_return c wsi =>
    cases h
    intro g hg
    cases wsi <;> cases hg
    trivial
  | schedule_reconnect c =>
    cases h
    intro g hg
    split at hg <;> cases hg
    trivial
  | has_data_check c w =>
    cases h
    intro g hg
    split at hg <;> cases hg
    exact hserves
  | write c w n more =>
    have howns : c = d → s.lws.owns c w = true := fun hc => lws_context.owns_of_link (hserves hc)
    simp only [Sys.svc] at h
    split at h
    · cases h
      simp
    · cases h
      intro g hg
      split at hg <;> cases hg
      exact fun hc => ((s.lws.sameLinks_performs _).owns c w).trans (howns hc)
  | wc_connect pend =>
    cases pend <;> cases h <;> intro g hg <;> cases hg <;> trivial
  | wc_visit snap =>
    cases snap with
    | nil =>
      cases h
      simp
    | cons c snap =>
      simp only [Sys.svc] at h
      split at h
      · cases h
        intro g hg
        cases hg
        trivial
      · next w hw =>
        split at h
        · cases h
          intro g hg
          cases hg
          trivial
        · split at h <;> cases h <;> intro g hg <;> cases hg
          · rintro rfl
            exact howned w hw
          · trivial
  | event_wait_cancelled | wc_snapshot =>
    cases h
    intro g hg
    cases hg
    trivial
  | wsi_destroy _ _ | schedule_arm _ | lws_callback_on_writable _ _ =>
    cases h
    simp

end sections

variable {d : ClientId} {cfg cfg' : Config} {l : Label} {ok : Config → Label → Prop}
  {client : ClientId → wsp_client}

theorem serves_step (hmove : system.Moves cfg l cfg') (hlife : Lifecycle cfg)
    (hlinked : Linked d cfg) (hbehind : ∀ f ∈ cfg.svc.tail, f.behind = true)
    (h : ∀ f ∈ cfg.svc.head?, cfg.shared.Serves d f) :
    ∀ f ∈ cfg'.svc.head?, cfg'.shared.Serves d f := by
  cases hmove with
  | event hdeliver => exact deliver_serves hdeliver
  | @svc f a s s' app rest fs hsvc =>
    have hserved := svc_serves hsvc hlinked.joined.owned (h f rfl)
    intro g hg
    cases fs with
    | nil =>
      -- What is left is the rest of a loop, or of a connect call.
      cases rest with
      | nil => cases hg
      | cons g' rest =>
        obtain rfl : g' = g := Option.some.inj hg
        exact .of_behind (hbehind g' (by simp))
    | cons f' fs => exact hserved g hg
  | call _ _ => exact h
  | app htop happ =>
    exact fun f hf => (h f hf).congr fun w => hlinked.links htop happ hlife w

theorem Reaches.serves (hadds : ∀ cfg l, ok cfg l → AddedOnce d cfg l)
    (hfresh : ∀ c, (client c).Fresh) (h : system.Reaches ok (initial client) cfg) :
    ∀ f ∈ cfg.svc.head?, cfg.shared.Serves d f := by
  refine h.invariant_under (I := fun cfg => ∀ f ∈ cfg.svc.head?, cfg.shared.Serves d f)
    (J := fun cfg => Lifecycle cfg ∧ Linked d cfg ∧ ∀ f ∈ cfg.svc.tail, f.behind = true)
    (fun _ hmid => ⟨Reaches.lifecycle hmid, Reaches.linked hadds hfresh hmid, Reaches.behind hmid⟩)
    (fun f hf => by cases hf) fun _ _ _ hknown _ hmove => ?_
  exact serves_step hmove hknown.1 hknown.2.1 hknown.2.2

/-- In a run in which adds of a client do not overlap, every call that is made
    for the client is made on a connection of it which lws still has, and on an
    open one where it writes or sets the timer. -/
theorem calls_on_member_wsi (hfresh : ∀ c, (client c).Fresh)
    (h : system.Reaches (AddedOnce d) (initial client) cfg)
    (hstep : system.step cfg l = some cfg') :
    ∃ acts, cfg'.shared.trace d = cfg.shared.trace d ++ acts ∧ cfg'.shared.lws.Grants d acts := by
  have hlinked := Reaches.linked (fun _ _ => id) hfresh h
  have hserves := Reaches.serves (fun _ _ => id) hfresh h
  cases System.step_moves hstep with
  | event hdeliver => exact deliver_called hdeliver hlinked.joined
  | svc hsvc => exact svc_called hsvc hlinked.joined.owned (hserves _ rfl)
  | call _ _ => exact ⟨[], by simp, .nil⟩
  | app _ happ =>
    obtain ⟨acts, htrace, hacts⟩ := app_makes (fun act hact _ => Act.handleless_of_app act hact) happ d
    exact ⟨acts, htrace, .of_every hacts⟩

/-- The stop of a connected client, up to the visit of the service thread to it. -/
def visit_run : List Label :=
  connected_run ++ [.call 2 (.wsp_client_stop 0), .app 2 {}, .app 2 {}, .app 2 {},
    .event (.event_wait_cancelled true), .svc {}, .svc {}, .svc {}]

theorem calls_on_member_wsi_visit : ∃ cfg cfg' : Config,
    system.Reaches (AddedOnce 0) (initial fresh_client) cfg ∧ system.step cfg (.svc {}) = some cfg' ∧
    (cfg.shared.client 0).stopping = true ∧
    ((cfg'.shared.trace 0).map Act.handleless).getLast? = some false ∧
    ∃ acts, cfg'.shared.trace 0 = cfg.shared.trace 0 ++ acts ∧ cfg'.shared.lws.Grants 0 acts := by
  obtain ⟨cfg, hfollows, hstop, hlast⟩ : ∃ cfg,
      system.Follows (AddedOnce 0) (initial fresh_client) visit_run cfg ∧
      (cfg.shared.client 0).stopping = true ∧
      (system.step cfg (.svc {})).any
        (fun next => ((next.shared.trace 0).map Act.handleless).getLast? == some false) = true :=
    System.exists_follows_of_run (by decide)
  cases hstep : system.step cfg (.svc {}) with
  | none => simp [hstep] at hlast
  | some next =>
    simp only [hstep, Option.any_some, beq_iff_eq] at hlast
    exact ⟨cfg, next, hfollows.reaches, hstep, hstop, hlast,
      calls_on_member_wsi (fun _ => wsp_client_create_fresh _ _ _ _) hfollows.reaches hstep⟩

end ws_pool

end lws_client
