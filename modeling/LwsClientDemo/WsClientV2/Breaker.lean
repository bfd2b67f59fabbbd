import LwsClientDemo.WsClientV2.Places

open interleaving

namespace lws_client.ws_client_v2

/-- Where `on_reconnect_decision` stops the client, its timer is not armed and no
    frame behind retries. -/
def Heeds (cfg : Config) (l : Label) : Prop :=
  refuses cfg l = true → cfg.shared.c.sul = none ∧ ∀ f ∈ cfg.svc.tail, f.retries = false

instance (cfg : Config) (l : Label) : Decidable (Heeds cfg l) :=
  inferInstanceAs (Decidable (_ → _))

/-- Nothing is left that connects the client or arms its timer. -/
structure Calm (svc : List Frame) (s : Sys) : Prop where
  none_live : s.NoLive
  sul : s.c.sul = none
  svc : ∀ f ∈ svc, f = .event_wait_cancelled
  thread : s.thread ≠ .created

variable {s s' : Sys} {fs svc : List Frame} {cfg cfg' mid : Config} {l : Label}

/-- The negative answer leaves the client calm. -/
theorem refused_calm (hmove : system.Moves cfg l mid) (hlife : Lifecycle cfg)
    (hconn : Conn cfg.svc cfg.shared) (hok : Heeds cfg l) (hrefuses : refuses cfg l = true) :
    Calm mid.svc mid.shared := by
  obtain ⟨hnosul, hbehind⟩ := hok hrefuses
  cases hmove with
  | @svc f a s s' app rest fs hsvc =>
    have hrun : s.thread = .running := hlife.busy (by simp)
    have hpos := hconn.running hrun
    simp only [refuses, List.head?_cons, Option.any_some, Bool.and_eq_true, decide_eq_true_eq]
      at hrefuses
    obtain ⟨⟨hf, hasks⟩, hneg⟩ := hrefuses
    cases f with
    | schedule_reconnect =>
      have hdown : rest = [] ∧ s.NoLive := by
        cases hpos with
        | up _ hfs _ => rcases hfs with hfs | hfs | hfs <;> cases hfs
        | down hfs hdown =>
          rcases hfs with hfs | hfs | hfs <;> cases hfs
          exact ⟨rfl, hdown.none_live⟩
        | sending w g hfs hg _ _ =>
          cases hfs
          exact absurd hg id
        | connect hfs _ _ _ => cases hfs
        | failing gs hfs _ _ _ =>
          -- The return of NULL would schedule again.
          have hmem : .connect_return false ∈ rest := by
            cases gs with
            | nil => cases hfs
            | cons g gs =>
              simp only [List.cons_append, List.cons.injEq] at hfs
              simp [hfs.2]
          cases hbehind _ hmem
      obtain ⟨rfl, hnone⟩ := hdown
      have hstopped : (schedule_reconnect s.c a.ret).1 = { s.c with state := .STATE_STOPPED } := by
        rw [wsl_client.asks] at hasks
        simp [schedule_reconnect, hasks, hneg]
      cases hsvc
      refine ⟨hnone.of_phase fun v => by simp, ?_, by simp, ?_⟩
      · rw [Sys.act_c, hstopped]
        exact hnosul
      · rw [Sys.act_thread, hrun]
        decide
    | _ => cases hf
  | event _ | call _ _ | app _ _ => cases hrefuses

/-- A section that leaves the timer alone and does not retry. -/
theorem Calm.act {r : wsl_client × List Act} (h : Calm fs s) (hsul : r.1.sul = s.c.sul)
    (hacts : retries r.2 = []) :
    Calm fs (s.act r) ∧ retries (s.act r).trace = retries s.trace := by
  refine ⟨⟨h.none_live.of_phase fun v => by simp, ?_, h.svc, h.thread⟩, ?_⟩
  · rw [Sys.act_c, hsul]
    exact h.sul
  · rw [Sys.act_trace, retries_append, hacts, List.append_nil]

theorem deliver_calm {e : Event} (h : s.deliver e = some (fs, s')) (hcalm : Calm [] s) :
    Calm fs s' ∧ retries s'.trace = retries s.trace := by
  cases e with
  | callback w r a =>
    simp only [Sys.deliver, Option.ite_none_right_eq_some] at h
    obtain ⟨henabled, h⟩ := h
    -- There is no connection to call back, but for its end.
    have hr : r = .WSI_DESTROY := by
      by_contra hr
      have hphase := lws_context.phase_of_enables_ne henabled hr
      refine hcalm.none_live w ?_
      cases r <;> first | exact .inl hphase | exact .inr hphase | exact absurd rfl hr
    subst hr
    cases h
    obtain ⟨wsi, hc⟩ := wsi_destroy_client s.c w
    refine ⟨⟨fun v hlive => hcalm.none_live v ?_, ?_, by simp, hcalm.thread⟩, ?_⟩
    · simp only [lws_context.Live, Sys.act_lws, Sys.setLws_lws, lws_context.phase_performs,
        lws_context.phase_remove] at hlive
      split at hlive
      · simp at hlive
      · exact hlive
    · rw [Sys.act_c, hc]
      exact hcalm.sul
    · rw [Sys.act_trace, List.append_nil]
      rfl
  | service_thread =>
    simp only [Sys.deliver, Option.ite_none_right_eq_some] at h
    exact absurd h.1 hcalm.thread
  | event_wait_cancelled _ =>
    simp only [Sys.deliver, Option.ite_none_right_eq_some, Option.some.injEq, Prod.mk.injEq] at h
    obtain ⟨_, rfl, rfl⟩ := h
    exact ⟨⟨hcalm.none_live, hcalm.sul, by simp, hcalm.thread⟩, rfl⟩
  | sul_reconnect_cb =>
    simp only [Sys.deliver, Option.ite_none_right_eq_some] at h
    rw [hcalm.sul] at h
    cases h.1.2
  | exit =>
    simp only [Sys.deliver, Option.ite_none_right_eq_some, Option.map_eq_some_iff,
      Prod.mk.injEq] at h
    obtain ⟨_, ⟨freed, q⟩, _, rfl, rfl⟩ := h
    obtain ⟨hafter, htrace⟩ := hcalm.act (r := ({ s.c with q, frag := .empty },
      freed.map fun n => .flush_node n.payload n.is_binary)) rfl (retries_map (fun _ => rfl) freed)
    exact ⟨⟨hafter.none_live, hafter.sul, hafter.svc, by simp⟩, htrace⟩
  | context_destroyed =>
    simp only [Sys.deliver, Option.ite_none_right_eq_some, Option.some.injEq, Prod.mk.injEq] at h
    obtain ⟨_, rfl, rfl⟩ := h
    exact ⟨⟨fun v hlive => by simp [lws_context.Live] at hlive, rfl, by simp, by simp⟩, rfl⟩

/-- Only the wakeup request of EVENT_WAIT_CANCELLED is left to run. -/
theorem svc_calm {f : Frame} {a : Answer} {rest : List Frame} (h : s.svc f a = some (fs, s'))
    (hcalm : Calm (f :: rest) s) :
    Calm (fs ++ rest) s' ∧ retries s'.trace = retries s.trace := by
  obtain rfl := hcalm.svc f List.mem_cons_self
  cases h
  have hrest : Calm rest s :=
    ⟨hcalm.none_live, hcalm.sul, fun g hg => hcalm.svc g (List.mem_cons_of_mem _ hg), hcalm.thread⟩
  refine hrest.act (r := (s.c, event_wait_cancelled s.c)) rfl ?_
  unfold event_wait_cancelled
  split
  · rfl
  · exact retries_eq_nil (Every.onWsi fun _ => rfl)

/-- No API call connects the client, unless it starts the service thread. -/
theorem app_calm {f : AppFrame} {a : Answer} {gs : List AppFrame} (h : s.app f a = some (gs, s'))
    (hcalm : Calm svc s) (hstarts : starts s'.trace = starts s.trace) :
    Calm svc s' ∧ retries s'.trace = retries s.trace := by
  have hthread : ∀ {s' : Sys}, s'.lws = s.lws → s'.c.sul = s.c.sul → s'.thread ≠ .created →
      Calm svc s' := fun hlws hsul hthread =>
    ⟨fun v => by rw [hlws]; exact hcalm.none_live v, hsul.trans hcalm.sul, hcalm.svc, hthread⟩
  cases f with
  | enqueue_msg data is_binary =>
    cases data with
    | none =>
      cases h
      exact hcalm.act rfl rfl
    | some data =>
      cases h
      exact ⟨hcalm, rfl⟩
  | enqueue_msg_locked data is_binary =>
    simp only [Sys.app, Option.some.injEq, Prod.mk.injEq] at h
    obtain ⟨_, rfl⟩ := h
    refine hcalm.act ?_ rfl
    rcases enqueue_msg_locked_spec s.c data is_binary a.ok with ⟨n, heq, _⟩ | heq <;> rw [heq]
  | wsl_start =>
    simp only [Sys.app] at h
    split at h
    · cases h
      exact ⟨hcalm, rfl⟩
    · split at h <;> cases h
      · refine ⟨⟨fun v hlive => ?_, hcalm.sul, hcalm.svc, hcalm.thread⟩, rfl⟩
        simp [lws_context.Live] at hlive
      · exact ⟨hcalm, rfl⟩
  | start_thread =>
    simp only [Sys.app] at h
    split at h <;> cases h
    · simp [starts] at hstarts
    · exact hcalm.act rfl rfl
  | wsl_stop =>
    simp only [Sys.app] at h
    split at h <;> cases h
    · exact hcalm.act rfl rfl
    · exact ⟨hcalm, rfl⟩
  | stop_cancel =>
    cases h
    refine hcalm.act rfl ?_
    dsimp only
    split <;> rfl
  | stop_context =>
    simp only [Sys.app] at h
    split at h <;> cases h <;> exact ⟨hthread rfl rfl (by simp), rfl⟩
  | stop_join | stop_context_destroyed =>
    simp only [Sys.app, Option.ite_none_right_eq_some, Option.some.injEq, Prod.mk.injEq] at h
    obtain ⟨_, _, rfl⟩ := h
    exact hcalm.act rfl rfl
  | wsl_destroy =>
    cases h
    obtain ⟨hafter, htrace⟩ := hcalm.act (r := (s.c, [.client_destroy])) rfl rfl
    exact ⟨⟨hafter.none_live, hafter.sul, hafter.svc, hafter.thread⟩, htrace⟩
  | enqueue_msg_wake =>
    cases h
    exact ⟨hcalm, rfl⟩
  | lws_cancel_service | start_return | stop_return =>
    cases h
    exact hcalm.act rfl rfl

/-- A calm client stays so until it is started again. -/
theorem step_calm (hmove : system.Moves cfg l cfg') (hcalm : Calm cfg.svc cfg.shared)
    (hstarts : starts cfg'.shared.trace = starts cfg.shared.trace) :
    Calm cfg'.svc cfg'.shared ∧ retries cfg'.shared.trace = retries cfg.shared.trace := by
  cases hmove with
  | event hdeliver => exact deliver_calm hdeliver hcalm
  | svc hsvc => exact svc_calm hsvc hcalm
  | call _ _ => exact ⟨hcalm, rfl⟩
  | app _ happ => exact app_calm happ hcalm hstarts

theorem starts_monotone (hmove : system.Moves cfg l cfg') :
    starts cfg.shared.trace ≤ starts cfg'.shared.trace := by
  have hgrows : ∃ acts, cfg'.shared.trace = cfg.shared.trace ++ acts := by
    cases hmove with
    | event hdeliver => exact (deliver_spec hdeliver).2.imp fun _ => And.left
    | svc hsvc => exact (svc_spec hsvc).2.2.2.2.imp fun _ => And.left
    | call _ _ => exact ⟨[], (List.append_nil _).symm⟩
    | app _ happ => exact (app_spec happ).2.2.imp fun _ => And.left
  obtain ⟨acts, hacts⟩ := hgrows
  rw [hacts, starts_append]
  omega

/-- A client that is calm has no connect call, question to the hook or armed
    timer before its next start. -/
theorem calm_until_start {ok : Config → Label → Prop} (hcalm : Calm mid.svc mid.shared)
    (hlater : system.Reaches ok mid cfg')
    (hstarts : starts cfg'.shared.trace = starts mid.shared.trace) :
    retries cfg'.shared.trace = retries mid.shared.trace ∧ cfg'.shared.c.sul = none := by
  have hstill : starts mid.shared.trace ≤ starts cfg'.shared.trace ∧
      (starts cfg'.shared.trace = starts mid.shared.trace →
        Calm cfg'.svc cfg'.shared ∧ retries cfg'.shared.trace = retries mid.shared.trace) := by
    refine hlater.invariant (I := fun next =>
        starts mid.shared.trace ≤ starts next.shared.trace ∧
        (starts next.shared.trace = starts mid.shared.trace →
          Calm next.svc next.shared ∧ retries next.shared.trace = retries mid.shared.trace))
      ⟨le_rfl, fun _ => ⟨hcalm, rfl⟩⟩ fun next l last _ hmove ⟨hle, hnext⟩ => ?_
    have hgrows := starts_monotone hmove
    refine ⟨hle.trans hgrows, fun heq => ?_⟩
    -- No start lies between `mid` and `next` either.
    obtain ⟨hcalm', hsame⟩ := hnext (by omega)
    obtain ⟨hlast, hkept⟩ := step_calm hmove hcalm' (by omega)
    exact ⟨hlast, hkept.trans hsame⟩
  obtain ⟨hend, hsame⟩ := hstill.2 hstarts
  exact ⟨hsame, hend.sul⟩

/-- After a negative answer of its hook a client is not connected, its hook is
    not asked and its timer is not armed until it is started again. -/
theorem refused_final {c : wsl_client} (hc : c.Fresh) (h : system.Reaches Heeds (initial c) cfg)
    (hok : Heeds cfg l) (hstep : system.step cfg l = some mid) (hrefuses : refuses cfg l = true)
    (hlater : system.Reaches Heeds mid cfg')
    (hstarts : starts cfg'.shared.trace = starts mid.shared.trace) :
    retries cfg'.shared.trace = retries mid.shared.trace ∧ cfg'.shared.c.sul = none := by
  have hreach : Reachable cfg := ⟨c, hc, h.mono fun _ _ _ => trivial⟩
  have hcalm :=
    refused_calm (System.step_moves hstep) hreach.lifecycle hreach.conn hok hrefuses
  exact calm_until_start hcalm hlater hstarts

/-- A connection is lost, up to the question to the hook. -/
def lost_question : List Label := connected_run ++ [.event (.callback 0 .CLIENT_CLOSED {})]

/-- What may still happen to the client: its connection is destroyed, and a
    message is sent. -/
def silent_run : List Label :=
  [.event (.callback 0 .WSI_DESTROY {}),
    .call 1 (.enqueue_msg (some { bytes := [104], length_le := one_byte }) false), .app 1 {}, .app 1 {},
    .app 1 {}, .app 1 {}, .event (.event_wait_cancelled true), .svc {}]

/-- A connect call reports its failure by CONNECTION_ERROR, up to the question
    to the hook inside the call. -/
def nested_question : List Label :=
  [.call 0 .wsl_start, .app 0 {}, .app 0 {}, .app 0 {}, .event .service_thread,
    .svc { connect := .refused (some none) true }, .svc {}]

/-- The call returns NULL, the hook agrees to retry, and the timer fires. -/
def overruled_run : List Label :=
  [.svc {}, .svc {}, .svc {}, .event .sul_reconnect_cb, .svc { connect := .accepted }]

end lws_client.ws_client_v2
