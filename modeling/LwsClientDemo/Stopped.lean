import LwsClientDemo.WsClient.Calls
import LwsClientDemo.WsClient.Frees
import LwsClientDemo.WsClientV2.Calls
import LwsClientDemo.WsServer.Echo

open interleaving

namespace lws_client

/-- Without a running thread lws delivers no callback. -/
theorem lws_context.enables_none (x : lws_context) (w : WsiId) (r : Reason) :
    x.enables .none w r = false := by
  cases r <;> rfl

namespace ws_client

/-- The owner starts the client. -/
def starts : Label → Bool
  | .call _ .wsld_start => true
  | _ => false

/-- The frames of the owner that do not start the client. -/
def AppFrame.keeps_rest : AppFrame → Bool
  | .wsld_stop | .wsld_destroy => true
  | f => f.sends

/-- The client is not started, and since `start` only API functions have made calls. -/
structure Quiet (start s : Sys) : Prop where
  thread_started : s.c.thread_started = false
  thread : s.thread = .none
  calls : Extends (Every Act.of_app) start.trace s.trace

variable {cfg : Config} {start s s' : Sys}

theorem deliver_none (h : s.thread = .none) (e : Event) : s.deliver e = none := by
  cases e <;> simp [Sys.deliver, h, lws_context.enables_none]

theorem app_quiet {f : AppFrame} {a : Answer} {fs : List AppFrame} (h : s.app f a = some (fs, s'))
    (hf : f.keeps_rest = true) (hquiet : Quiet start s) :
    Quiet start s' ∧ ∀ g ∈ fs, g.keeps_rest = true := by
  obtain ⟨hstarted, hthread, hcalls⟩ := hquiet
  have hcalls' := hcalls.trans (fun _ _ => Every.append) (app_makes h)
  by_cases hsends : f.sends = true
  · obtain ⟨howned, hkept, hfs⟩ := app_sends h hsends
    refine ⟨⟨howned.thread_started.trans hstarted, hkept.trans hthread, hcalls'⟩, fun g hg => ?_⟩
    have hg := hfs g hg
    cases g <;> first | rfl | cases hg
  · cases f with
    | wsld_stop =>
      simp only [Sys.app, hstarted, Bool.false_and, Bool.false_eq_true, if_false, Option.some.injEq,
        Prod.mk.injEq] at h
      obtain ⟨rfl, rfl⟩ := h
      exact ⟨⟨hstarted, hthread, hcalls⟩, by simp⟩
    | wsld_destroy =>
      simp only [Sys.app, Option.map_eq_some_iff, Prod.mk.injEq] at h
      obtain ⟨_, _, rfl, rfl⟩ := h
      exact ⟨⟨hstarted, hthread, hcalls'⟩, by simp⟩
    | _ => first | exact absurd rfl hsends | cases hf

theorem stays_quiet :
    system.StaysQuiet (fun _ l => starts l = false) (Quiet start) AppFrame.keeps_rest where
  deliver h := deliver_none h.thread
  call := by
    intro cfg t f hl hcall
    cases f with
    | enqueue _ _ | wsld_stop | wsld_destroy => rfl
    | wsld_start => cases hl
    | _ => simp [system, Sys.call] at hcall
  app := app_quiet

/-- A client that its owner has stopped is at rest. -/
theorem Reachable.rests (h : Reachable cfg) (hidle : cfg.app 0 = [])
    (hstopped : cfg.shared.c.thread_started = false) :
    Rests (Quiet cfg.shared) AppFrame.keeps_rest cfg := by
  have hlife := h.lifecycle
  have hthread : cfg.shared.thread = .none := by
    simpa [hidle, Owner, hstopped] using hlife.owner
  refine ⟨⟨hstopped, hthread, .of_eq rfl .nil⟩, ?_, fun t f hf => ?_⟩
  · by_contra hne
    have hrun := hlife.busy hne
    rw [hthread] at hrun
    cases hrun
  · by_cases ht : t = 0
    · subst ht
      rw [hidle] at hf
      cases hf
    · have hsends := hlife.threads.others t ht f hf
      cases f <;> first | rfl | cases hsends

end ws_client

namespace ws_client_v2

/-- The owner starts the client. -/
def starts : Label → Bool
  | .call _ .wsl_start => true
  | _ => false

/-- The frames of the owner that do not start the client. -/
def AppFrame.keeps_rest : AppFrame → Bool
  | .wsl_stop | .wsl_destroy => true
  | f => f.sends

/-- The client is not started, and since `start` only API functions have made calls. -/
structure Quiet (start s : Sys) : Prop where
  thread_started : s.c.thread_started = false
  thread : s.thread = .none
  calls : Extends (Every Act.of_app) start.trace s.trace

variable {cfg : Config} {start s s' : Sys}

theorem deliver_none (h : s.thread = .none) (e : Event) : s.deliver e = none := by
  cases e <;> simp [Sys.deliver, Sys.callback_enabled, h, lws_context.enables_none]

theorem app_quiet {f : AppFrame} {a : Answer} {fs : List AppFrame} (h : s.app f a = some (fs, s'))
    (hf : f.keeps_rest = true) (hquiet : Quiet start s) :
    Quiet start s' ∧ ∀ g ∈ fs, g.keeps_rest = true := by
  obtain ⟨hstarted, hthread, hcalls⟩ := hquiet
  have hcalls' := hcalls.trans (fun _ _ => Every.append) (app_makes (fun _ happ _ => happ) h)
  by_cases hsends : f.sends = true
  · obtain ⟨howned, hkept, hfs⟩ := app_sends h hsends
    refine ⟨⟨howned.thread_started.trans hstarted, hkept.trans hthread, hcalls'⟩, fun g hg => ?_⟩
    have hg := hfs g hg
    cases g <;> first | rfl | cases hg
  · cases f with
    | wsl_stop =>
      simp only [Sys.app, hstarted, Bool.false_eq_true, if_false, Option.some.injEq, Prod.mk.injEq] at h
      obtain ⟨rfl, rfl⟩ := h
      exact ⟨⟨hstarted, hthread, hcalls⟩, by simp⟩
    | wsl_destroy =>
      cases h
      exact ⟨⟨hstarted, hthread, hcalls'⟩, by simp⟩
    | _ => first | exact absurd rfl hsends | cases hf

theorem stays_quiet :
    system.StaysQuiet (fun _ l => starts l = false) (Quiet start) AppFrame.keeps_rest where
  deliver h := deliver_none h.thread
  call := by
    intro cfg t f hl hcall
    cases f with
    | enqueue_msg _ _ | wsl_stop | wsl_destroy => rfl
    | wsl_start => cases hl
    | _ => simp [system, Sys.call] at hcall
  app := app_quiet

/-- A client that its owner has stopped is at rest. -/
theorem Reachable.rests (h : Reachable cfg) (hidle : cfg.app 0 = [])
    (hstopped : cfg.shared.c.thread_started = false) :
    Rests (Quiet cfg.shared) AppFrame.keeps_rest cfg := by
  have hlife := h.lifecycle
  have hthread : cfg.shared.thread = .none := by
    simpa [hidle, Owner, hstopped] using hlife.owner
  refine ⟨⟨hstopped, hthread, .of_eq rfl .nil⟩, ?_, fun t f hf => ?_⟩
  · by_contra hne
    have hrun := hlife.busy hne
    rw [hthread] at hrun
    cases hrun
  · by_cases ht : t = 0
    · subst ht
      rw [hidle] at hf
      cases hf
    · have hsends := hlife.others t ht f hf
      cases f <;> first | rfl | cases hsends

end ws_client_v2

namespace ws_server

/-- What the owner's position says about the thread and the connections. -/
inductive Owner : List AppFrame → Sys → Prop where
  | rest {fs : List AppFrame} {s : Sys} : fs = [] ∨ fs = [.wss_start] ∨ fs = [.wss_stop] →
      s.srv.ctx = false → s.thread = .none → (∀ w, s.wsi w = none) → Owner fs s
  | serving {fs : List AppFrame} {s : Sys} : fs = [] ∨ fs = [.wss_stop] → s.srv.ctx = true →
      s.thread = .running → s.srv.stopping = false → Owner fs s
  | join {s : Sys} : s.srv.ctx = true → s.thread = .running ∨ s.thread = .exited →
      Owner [.stop_join] s
  | destroy {s : Sys} : s.srv.ctx = true →
      s.thread = .destroying ∨ (s.thread = .none ∧ ∀ w, s.wsi w = none) →
      Owner [.stop_context_destroyed] s

/-- The owner starts and stops the server by turns; no other thread calls it. -/
structure Lifecycle (cfg : Config) : Prop where
  others : ∀ t, t ≠ 0 → cfg.app t = []
  owner : Owner (cfg.app 0) cfg.shared

/-- What a callback leaves alone. -/
structure Served (s s' : Sys) : Prop where
  ctx : s'.srv.ctx = s.srv.ctx
  stopping : s'.srv.stopping = s.srv.stopping
  thread : s'.thread = s.thread

theorem deliver_owner {fs : List AppFrame} {gs : List Empty} {e : Event} {s s' : Sys}
    (h : s.deliver e = some (gs, s')) (howner : Owner fs s) : Owner fs s' := by
  have hserved : (s.thread = .running ∨ s.thread = .destroying) → Served s s' → Owner fs s' := by
    intro hthread hs
    cases howner with
    | rest _ _ hnone _ => rcases hthread with hthread | hthread <;> rw [hnone] at hthread <;> cases hthread
    | serving hfs hctx hrun hstop =>
      exact .serving hfs (hs.ctx.trans hctx) (hs.thread.trans hrun) (hs.stopping.trans hstop)
    | join hctx hthread => exact .join (hs.ctx.trans hctx) (by rwa [hs.thread])
    | destroy hctx hended =>
      rcases hended with hdestroying | ⟨hnone, _⟩
      · exact .destroy (hs.ctx.trans hctx) (.inl (hs.thread.trans hdestroying))
      · rcases hthread with hthread | hthread <;> rw [hnone] at hthread <;> cases hthread
  cases e with
  | established w =>
    simp only [Sys.deliver, Option.ite_none_right_eq_some, Option.some.injEq, Prod.mk.injEq] at h
    obtain ⟨⟨hrun, _⟩, _, rfl⟩ := h
    exact hserved (.inl hrun) ⟨rfl, rfl, rfl⟩
  | receive w chunk realloc malloc =>
    simp only [Sys.deliver, Option.ite_none_right_eq_some, Option.bind_eq_some_iff,
      Option.map_eq_some_iff, Prod.mk.injEq] at h
    obtain ⟨hrun, x, _, _, _, _, rfl⟩ := h
    exact hserved (.inl hrun) ⟨rfl, rfl, rfl⟩
  | server_writeable w =>
    simp only [Sys.deliver, Option.ite_none_right_eq_some, Option.map_eq_some_iff,
      Prod.mk.injEq] at h
    obtain ⟨hrun, x, _, _, rfl⟩ := h
    exact hserved (.inl hrun) ⟨rfl, rfl, rfl⟩
  | closed w =>
    simp only [Sys.deliver, Option.ite_none_right_eq_some, Option.map_eq_some_iff,
      Prod.mk.injEq] at h
    obtain ⟨hthread, x, _, _, rfl⟩ := h
    exact hserved hthread ⟨rfl, rfl, rfl⟩
  | exit =>
    simp only [Sys.deliver, Option.ite_none_right_eq_some, Option.some.injEq, Prod.mk.injEq] at h
    obtain ⟨⟨hrun, hstopping⟩, _, rfl⟩ := h
    cases howner with
    | join hctx _ => exact .join hctx (.inr rfl)
    | serving _ _ _ hstop =>
      rw [hstop] at hstopping
      cases hstopping
    | rest _ _ hnone _ =>
      rw [hnone] at hrun
      cases hrun
    | destroy _ hended =>
      rcases hended with hthread | ⟨hthread, _⟩ <;> rw [hthread] at hrun <;> cases hrun
  | context_destroyed =>
    simp only [Sys.deliver, Option.ite_none_right_eq_some, Option.some.injEq, Prod.mk.injEq] at h
    obtain ⟨hdestroying, _, rfl⟩ := h
    cases howner with
    | destroy hctx _ => exact .destroy hctx (.inr ⟨rfl, fun _ => rfl⟩)
    | rest _ _ hthread _ | serving _ _ hthread _ =>
      rw [hthread] at hdestroying
      cases hdestroying
    | join _ hthread =>
      rcases hthread with hthread | hthread <;> rw [hthread] at hdestroying <;> cases hdestroying

theorem app_owner {f : AppFrame} {a : Answer} {s s' : Sys} {fs : List AppFrame}
    (h : s.app f a = some (fs, s')) (howner : Owner [f] s) : Owner fs s' := by
  cases f with
  | wss_start =>
    simp only [Sys.app] at h
    cases howner with
    | rest _ hctx hthread hnone =>
      split at h <;> cases h
      · exact .serving (.inl rfl) rfl rfl rfl
      · exact .rest (.inl rfl) hctx hthread hnone
    | serving hfs _ _ _ => rcases hfs with hfs | hfs <;> cases hfs
  | wss_stop =>
    simp only [Sys.app] at h
    cases howner with
    | rest _ hctx hthread hnone =>
      rw [hctx] at h
      cases h
      exact .rest (.inl rfl) hctx hthread hnone
    | serving _ hctx hrun _ =>
      rw [hctx] at h
      cases h
      exact .join rfl (.inl hrun)
  | stop_join =>
    simp only [Sys.app, Option.ite_none_right_eq_some, Option.some.injEq, Prod.mk.injEq] at h
    obtain ⟨_, rfl, rfl⟩ := h
    cases howner with
    | join hctx _ => exact .destroy hctx (.inl rfl)
    | rest hfs _ _ _ => rcases hfs with hfs | hfs | hfs <;> cases hfs
    | serving hfs _ _ _ => rcases hfs with hfs | hfs <;> cases hfs
  | stop_context_destroyed =>
    simp only [Sys.app, Option.ite_none_right_eq_some, Option.some.injEq, Prod.mk.injEq] at h
    obtain ⟨hnone, rfl, rfl⟩ := h
    cases howner with
    | destroy _ hended =>
      rcases hended with hthread | ⟨hthread, hclosed⟩
      · rw [hnone] at hthread
        cases hthread
      · exact .rest (.inl rfl) rfl hthread hclosed
    | rest hfs _ _ _ => rcases hfs with hfs | hfs | hfs <;> cases hfs
    | serving hfs _ _ _ => rcases hfs with hfs | hfs <;> cases hfs

variable {cfg cfg' : Config} {l : Label} {ls : List Label}

theorem Lifecycle.step (hmove : system.Moves cfg l cfg') (h : Lifecycle cfg) : Lifecycle cfg' := by
  cases hmove with
  | event hdeliver => exact ⟨h.others, deliver_owner hdeliver h.owner⟩
  | @svc f => exact f.elim
  | @call t f s svc app hidle hcall =>
    have hzero : t = 0 := by
      simp only [system, Sys.call, Bool.and_eq_true, beq_iff_eq] at hcall
      exact hcall.1
    subst hzero
    refine ⟨fun u hu => by simpa [hu] using h.others u hu, ?_⟩
    have howner := h.owner
    simp only [Function.update_self]
    dsimp only at howner
    rw [hidle] at howner
    cases howner with
    | rest _ hctx hthread hnone =>
      cases f with
      | wss_start => exact .rest (.inr (.inl rfl)) hctx hthread hnone
      | wss_stop => exact .rest (.inr (.inr rfl)) hctx hthread hnone
      | _ => simp [system, Sys.call] at hcall
    | serving _ hctx hrun hstop =>
      cases f with
      | wss_stop => exact .serving (.inr rfl) hctx hrun hstop
      | _ => simp [system, Sys.call, hctx] at hcall
  | @app t f a s s' svc app rest fs htop happ =>
    have hzero : t = 0 := by
      by_contra ht
      have hidle := h.others t ht
      dsimp only at hidle
      rw [hidle] at htop
      cases htop
    subst hzero
    have howner := h.owner
    dsimp only at howner
    rw [htop] at howner
    obtain rfl : rest = [] := by
      cases howner with
      | rest hfs _ _ _ =>
        rcases hfs with hfs | hfs | hfs <;> cases hfs <;> rfl
      | serving hfs _ _ _ =>
        rcases hfs with hfs | hfs
        · cases hfs
        · cases hfs
          rfl
      | join _ _ | destroy _ _ => rfl
    refine ⟨fun u hu => by simpa [hu] using h.others u hu, ?_⟩
    simpa using app_owner happ howner

theorem initial_lifecycle {srv : wss_server} (hctx : srv.ctx = false) : Lifecycle (initial srv) :=
  ⟨fun _ _ => rfl, .rest (.inl rfl) hctx rfl fun _ => rfl⟩

theorem Reaches.lifecycle {srv : wss_server} (hctx : srv.ctx = false)
    (h : system.Reaches Any (initial srv) cfg) : Lifecycle cfg :=
  h.invariant (initial_lifecycle hctx) fun _ _ _ _ hmove => Lifecycle.step hmove

/-- The owner starts the server. -/
def starts : Label → Bool
  | .call _ .wss_start => true
  | _ => false

/-- The only frame that the owner of a stopped server runs without starting it. -/
def AppFrame.keeps_rest : AppFrame → Bool
  | .wss_stop => true
  | _ => false

/-- The server is not started and has no connection, and since `start` it has made no call. -/
structure Quiet (start s : Sys) : Prop where
  ctx : s.srv.ctx = false
  thread : s.thread = .none
  closed : ∀ w, s.wsi w = none
  calls : s.trace = start.trace

theorem deliver_none {s : Sys} (h : s.thread = .none) (e : Event) : s.deliver e = none := by
  cases e <;> simp [Sys.deliver, h]

theorem app_quiet {f : AppFrame} {a : Answer} {start s s' : Sys} {fs : List AppFrame}
    (h : s.app f a = some (fs, s')) (hf : f.keeps_rest = true) (hquiet : Quiet start s) :
    Quiet start s' ∧ ∀ g ∈ fs, g.keeps_rest = true := by
  cases f with
  | wss_stop =>
    simp only [Sys.app] at h
    rw [hquiet.ctx] at h
    cases h
    exact ⟨hquiet, by simp⟩
  | _ => cases hf

theorem stays_quiet {start : Sys} :
    system.StaysQuiet (fun _ l => starts l = false) (Quiet start) AppFrame.keeps_rest where
  deliver h := deliver_none h.thread
  call := by
    intro cfg t f hl hcall
    cases f with
    | wss_stop => rfl
    | wss_start => cases hl
    | _ => simp [system, Sys.call] at hcall
  app := app_quiet

theorem Lifecycle.rests (h : Lifecycle cfg) (hidle : cfg.app 0 = [])
    (hctx : cfg.shared.srv.ctx = false) : Rests (Quiet cfg.shared) AppFrame.keeps_rest cfg := by
  have howner := h.owner
  rw [hidle] at howner
  cases howner with
  | rest _ _ hthread hnone =>
    refine ⟨⟨hctx, hthread, hnone, rfl⟩, ?_, fun t f hf => ?_⟩
    · cases hsvc : cfg.svc with
      | nil => rfl
      | cons g _ => exact g.elim
    · by_cases ht : t = 0
      · subst ht
        rw [hidle] at hf
        cases hf
      · rw [h.others t ht] at hf
        cases hf
  | serving _ hctx' _ _ =>
    rw [hctx] at hctx'
    cases hctx'

end ws_server

/-- A stop is final. From a state in which the owner has stopped the client or
    the server and is in no call of it, to its next start: no callback can be
    delivered and no loop runs, no connection is open, and nothing but the calls
    of the API functions themselves is made. -/
theorem stops_final :
    (∀ {cfg ls cfg'}, ws_client.Reachable cfg → cfg.app 0 = [] →
      cfg.shared.c.thread_started = false →
      ws_client.system.Follows (fun _ l => ws_client.starts l = false) cfg ls cfg' →
      cfg'.svc = [] ∧ (∀ e, ws_client.system.step cfg' (.event e) = none) ∧ cfg'.shared.NoLive ∧
        ∃ acts, cfg'.shared.trace = cfg.shared.trace ++ acts ∧ Every Act.of_app acts) ∧
    (∀ {cfg ls cfg'}, ws_client_v2.Reachable cfg → cfg.app 0 = [] →
      cfg.shared.c.thread_started = false →
      ws_client_v2.system.Follows (fun _ l => ws_client_v2.starts l = false) cfg ls cfg' →
      cfg'.svc = [] ∧ (∀ e, ws_client_v2.system.step cfg' (.event e) = none) ∧ cfg'.shared.NoLive ∧
        ∃ acts, cfg'.shared.trace = cfg.shared.trace ++ acts ∧ Every Act.of_app acts) ∧
    (∀ {srv cfg ls cfg'}, srv.ctx = false → ws_server.system.Reaches Any (ws_server.initial srv) cfg →
      cfg.app 0 = [] → cfg.shared.srv.ctx = false →
      ws_server.system.Follows (fun _ l => ws_server.starts l = false) cfg ls cfg' →
      (∀ e, ws_server.system.step cfg' (.event e) = none) ∧ (∀ w, cfg'.shared.wsi w = none) ∧
        cfg'.shared.trace = cfg.shared.trace) := by
  refine ⟨?_, ?_, ?_⟩
  · intro cfg ls cfg' hreach hidle hstopped hfollows
    have hrests := hfollows.reaches.rests ws_client.stays_quiet (hreach.rests hidle hstopped)
    have hreach' : ws_client.Reachable cfg' := by
      obtain ⟨c, hc, hc'⟩ := hreach
      exact ⟨c, hc, hc'.trans (hfollows.reaches.mono fun _ _ _ => trivial)⟩
    exact ⟨hrests.svc, hrests.no_event ws_client.stays_quiet, (hreach'.conn.none hrests.shared.thread).1,
      hrests.shared.calls⟩
  · intro cfg ls cfg' hreach hidle hstopped hfollows
    have hrests := hfollows.reaches.rests ws_client_v2.stays_quiet (hreach.rests hidle hstopped)
    have hreach' : ws_client_v2.Reachable cfg' := by
      obtain ⟨c, hc, hc'⟩ := hreach
      exact ⟨c, hc, hc'.trans (hfollows.reaches.mono fun _ _ _ => trivial)⟩
    exact ⟨hrests.svc, hrests.no_event ws_client_v2.stays_quiet,
      (hreach'.conn.none hrests.shared.thread).1, hrests.shared.calls⟩
  · intro srv cfg ls cfg' hctx hreach hidle hstopped hfollows
    have hlife := ws_server.Reaches.lifecycle hctx hreach
    have hrests := hfollows.reaches.rests ws_server.stays_quiet (hlife.rests hidle hstopped)
    exact ⟨hrests.no_event ws_server.stays_quiet, hrests.shared.closed, hrests.shared.calls⟩

/-- A connected v1 client is stopped and sent to, a connected v2 client is stopped,
    sent to and stopped again, and a server with an open connection is stopped twice. -/
theorem stops_final_runs :
    (∃ cfg' : ws_client.Config, accepted cfg'.shared.trace = [([104], false)] ∧
      (∀ e, ws_client.system.step cfg' (.event e) = none) ∧ cfg'.shared.NoLive) ∧
    (∃ cfg' : ws_client_v2.Config, accepted cfg'.shared.trace = [([104], false)] ∧
      (∀ e, ws_client_v2.system.step cfg' (.event e) = none) ∧ cfg'.shared.NoLive) ∧
    ∃ cfg cfg' : ws_server.Config,
      ws_server.system.Follows (fun _ l => ws_server.starts l = false) cfg
        [.call 0 .wss_stop, .app 0 {}] cfg' ∧ cfg.shared.next = 1 ∧
      (∀ e, ws_server.system.step cfg' (.event e) = none) ∧ (∀ w, cfg'.shared.wsi w = none) ∧
      cfg'.shared.trace = cfg.shared.trace := by
  obtain ⟨hv1, hv2, hserver⟩ := stops_final
  refine ⟨?_, ?_, ?_⟩
  · obtain ⟨cfg, hfollows, hidle, hstopped, hsend⟩ : ∃ cfg,
        ws_client.system.Follows Any (ws_client.initial (ws_client.wsld_create "localhost" 9000 none true))
          (ws_client.connected_run ++ [.call 0 .wsld_stop, .app 0 {}, .app 0 {}, .event .exit,
            .app 0 {}, .app 0 {}, .event .context_destroyed, .app 0 {}]) cfg ∧
        (cfg.app 0).isEmpty = true ∧ cfg.shared.c.thread_started = false ∧
        (ws_client.system.run (fun _ l => ws_client.starts l = false) cfg (ws_client.send 104)).any
          (fun next => decide (accepted next.shared.trace = [([104], false)])) = true :=
      System.exists_follows_of_run (by decide)
    obtain ⟨cfg', hrest, haccepted⟩ := System.exists_follows_of_run hsend
    obtain ⟨_, hevents, hnone, _⟩ := hv1 ⟨_, ws_client.wsld_create_fresh _ _ _ _, hfollows.reaches⟩
      (List.isEmpty_iff.mp hidle) hstopped hrest
    exact ⟨cfg', haccepted, hevents, hnone⟩
  · obtain ⟨cfg, hfollows, hidle, hstopped, hsend⟩ : ∃ cfg,
        ws_client_v2.system.Follows Any
          (ws_client_v2.initial (ws_client_v2.wsl_create "localhost" 9000 none true))
          (ws_client_v2.connected_run ++ [.call 0 .wsl_stop, .app 0 {}, .app 0 {}, .event .exit,
            .app 0 {}, .app 0 {}, .event .context_destroyed, .app 0 {}, .app 0 {}]) cfg ∧
        (cfg.app 0).isEmpty = true ∧ cfg.shared.c.thread_started = false ∧
        (ws_client_v2.system.run (fun _ l => ws_client_v2.starts l = false) cfg
          [.call 1 (.enqueue_msg (some ⟨[104], one_byte⟩) false), .call 0 .wsl_stop, .app 1 {},
            .app 0 {}, .app 1 {}, .app 1 {}]).any
          (fun next => decide (accepted next.shared.trace = [([104], false)])) = true :=
      System.exists_follows_of_run (by decide)
    obtain ⟨cfg', hrest, haccepted⟩ := System.exists_follows_of_run hsend
    obtain ⟨_, hevents, hnone, _⟩ :=
      hv2 ⟨_, ws_client_v2.wsl_create_fresh _ _ _ _, hfollows.reaches⟩ (List.isEmpty_iff.mp hidle)
        hstopped hrest
    exact ⟨cfg', haccepted, hevents, hnone⟩
  · obtain ⟨cfg, hfollows, hidle, hctx, hnext, hagain⟩ : ∃ cfg,
        ws_server.system.Follows Any (ws_server.initial ws_server.wss_create)
          (ws_server.open_run ++ [.call 0 .wss_stop, .app 0 {}, .event .exit, .app 0 {},
            .event .context_destroyed, .app 0 {}]) cfg ∧
        (cfg.app 0).isEmpty = true ∧ cfg.shared.srv.ctx = false ∧ cfg.shared.next = 1 ∧
        (ws_server.system.run (fun _ l => ws_server.starts l = false) cfg
          [.call 0 .wss_stop, .app 0 {}]).any (fun _ => decide True) = true :=
      System.exists_follows_of_run (by decide)
    obtain ⟨cfg', hrest, _⟩ := System.exists_follows_of_run hagain
    obtain ⟨hevents, hnone, htrace⟩ :=
      hserver rfl hfollows.reaches (List.isEmpty_iff.mp hidle) hctx hrest
    exact ⟨cfg, cfg', hrest, hnext, hevents, hnone, htrace⟩

end lws_client
