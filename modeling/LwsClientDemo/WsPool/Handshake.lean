import LwsClientDemo.WsPool.Connection
import LwsClientDemo.WsPool.Flushed
import LwsClientDemo.WsPool.Adds

open interleaving

namespace lws_client.ws_pool

/-- The frame belongs to the stop that has marked client `c`. -/
def AppFrame.handles (c : ClientId) (f : AppFrame) : Bool := f.stops == some c

variable {s s' : Sys} {cfg cfg' : Config} {l : Label} {c : ClientId}

/-- A section passes on at most the stop it is part of; `wsp_client_stop` begins one. -/
theorem countP_handles_leads {clients : List ClientId} {f : AppFrame} {fs : List AppFrame}
    (h : fs ∈ f.leads clients) (hf : f ≠ .wsp_client_stop c) :
    fs.countP (AppFrame.handles c) ≤ ([f]).countP (AppFrame.handles c) := by
  cases f with
  | wsp_client_stop d =>
    have hd : d ≠ c := by
      rintro rfl
      exact hf rfl
    simp only [AppFrame.leads, List.mem_cons, List.not_mem_nil, or_false] at h
    rcases h with rfl | rfl <;> simp [AppFrame.handles, AppFrame.stops, hd]
  | stop_sul_cancel d | stop_locked d | stop_wait d =>
    simp only [AppFrame.leads, List.mem_cons, List.not_mem_nil, or_false] at h
    rcases h with rfl | rfl <;> exact Nat.le_refl _
  | enqueue d data is_binary =>
    cases data <;> simp only [AppFrame.leads, List.mem_singleton] at h <;> subst h <;>
      exact Nat.zero_le _
  | destroy_stop snap | destroy_clients snap =>
    cases snap <;> simp only [AppFrame.leads, List.mem_singleton] at h <;> subst h <;>
      exact Nat.zero_le _
  | _ =>
    simp only [AppFrame.leads, List.mem_cons, List.not_mem_nil, or_false] at h
    rcases h with rfl | rfl <;> exact Nat.zero_le _

/-- Only one stop of a client gets past its first locked section. -/
theorem Reaches.one_stop {ok : Config → Label → Prop} {client : ClientId → wsp_client}
    (h : system.Reaches ok (initial client) cfg) (c : ClientId) :
    Exclusive (AppFrame.handles c) cfg.app := by
  refine h.invariant_under (I := fun mid => Exclusive (AppFrame.handles c) mid.app)
    (J := fun mid => ∀ {t : Nat} {f : AppFrame}, f ∈ mid.app t →
      f.stops = some c → (mid.shared.client c).stopping = true)
    (fun mid hmid _ _ hf hc => Reaches.stopping hmid hf hc) .idle
    fun mid l next hknown _ hmove hone => ?_
  cases hmove with
  | event _ | svc _ => exact hone
  | @call t f s svc app hidle hcall =>
    have hnone : f.handles c = false := by
      cases f <;> first | rfl | simp [system, Sys.call] at hcall
    exact hone.update (by simp [hnone])
  | @app t f a s s' svc app rest fs htop happ =>
    have hleads := app_leads (f := f) (a := a) happ
    by_cases hf : f = .wsp_client_stop c
    · -- Another stop would have marked the client already.
      subst hf
      simp only [system, Sys.app] at happ
      split at happ
      · cases happ
        refine hone.update ?_
        rw [show (⟨s, svc, app⟩ : Config).app t = .wsp_client_stop c :: rest from htop]
        simp [AppFrame.handles, AppFrame.stops]
      · next hrunning =>
        have hnone : ∀ u, (app u).countP (AppFrame.handles c) = 0 := by
          intro u
          rw [List.countP_eq_zero]
          intro g hg hstops
          refine hrunning ?_
          rw [hknown (t := u) hg (by simpa [AppFrame.handles] using hstops)]
          rfl
        cases happ
        refine .take hnone ?_
        have hrest := hnone t
        rw [htop, List.countP_cons] at hrest
        rw [List.countP_append, List.countP_singleton]
        split <;> omega
    · refine hone.update ?_
      have hle := countP_handles_leads hleads hf
      rw [show (⟨s, svc, app⟩ : Config).app t = f :: rest from htop, List.countP_append,
        ← List.singleton_append (l := rest), List.countP_append]
      omega

/-- What a section of the service thread does for a thread that waits for a
    client to stop: nothing, or it signals the end of the connection. -/
inductive Signals (b b' : wsp_client) : Prop where
  | quiet : b'.wsi = b.wsi → b'.stopped = b.stopped → b'.waiting = b.waiting → Signals b b'
  | ended : b.stopping = false ∨ b.stopped = true → b'.stopped = b.stopped →
      b'.waiting = b.waiting → Signals b b'
  | signalled : b'.stopped = true → b'.waiting = false → Signals b b'

theorem Signals.waiting {b b' : wsp_client} (h : Signals b b') (hw : b'.waiting = true) :
    b.waiting = true := by
  cases h with
  | quiet _ _ hsame | ended _ _ hsame => exact hsame ▸ hw
  | signalled _ hnot =>
    rw [hnot] at hw
    cases hw

theorem connection_error_signals (b : wsp_client) (msg : Option String) :
    Signals b (connection_error b msg).1 := by
  unfold connection_error
  dsimp only
  split
  · exact .signalled rfl rfl
  · next hrunning => exact .ended (.inl (by simpa using hrunning)) rfl rfl

theorem closed_signals (b : wsp_client) : Signals b (closed b).1 := by
  unfold closed
  dsimp only
  split
  · exact .signalled rfl rfl
  · next hrunning => exact .ended (.inl (by simpa using hrunning)) rfl rfl

theorem wsi_destroy_signals (b : wsp_client) (w : WsiId) : Signals b (wsi_destroy b w) := by
  have hcleared : ∀ wsi, Signals b (if b.stopping && !b.stopped then
      signal_stopped { b with wsi } else { b with wsi }) := by
    intro wsi
    split
    · exact .signalled rfl rfl
    · next hnot =>
      refine .ended ?_ rfl rfl
      cases hstopping : b.stopping
      · exact .inl rfl
      · exact .inr (by simpa [hstopping] using hnot)
  unfold wsi_destroy
  dsimp only
  split
  · exact hcleared none
  · exact hcleared b.wsi

theorem Signals.act {r : wsp_client × List Act} (h : Signals (s.client c) r.1) (d : ClientId) :
    Signals (s.client d) ((s.act c r).client d) :=
  Sys.act_related (fun _ => .quiet rfl rfl rfl) h d

theorem svc_signals {f : Frame} {a : Answer} {fs : List Frame} (h : s.svc f a = some (fs, s'))
    (d : ClientId) : Signals (s.client d) (s'.client d) ∨
      ∃ wsi, f = .connect_return d wsi ∧ s'.client d = { s.client d with wsi } := by
  cases f with
  | do_connect c =>
    obtain ⟨⟨_, _, hclient, _⟩, _⟩ := do_connect_spec h
    refine .inl ?_
    rw [hclient]
    split
    · next hd =>
      subst hd
      exact .quiet rfl rfl rfl
    · exact .quiet rfl rfl rfl
  | connection_error c msg =>
    cases h
    exact .inl (.act (connection_error_signals _ msg) d)
  | wsi_destroy c w =>
    cases h
    exact .inl (.act (wsi_destroy_signals _ w) d)
  | connect_return c wsi =>
    cases h
    by_cases hd : d = c
    · subst hd
      exact .inr ⟨wsi, rfl, by simp⟩
    · exact .inl (.quiet (by simp [hd]) (by simp [hd]) (by simp [hd]))
  | schedule_arm c =>
    cases h
    obtain ⟨_, _, _, hc, _⟩ := schedule_reconnect_client (s.client c) a.ret
    refine .inl (.act ?_ d)
    rw [hc]
    exact .quiet rfl rfl rfl
  | lws_callback_on_writable c w =>
    cases h
    exact .inl (.act (.quiet rfl rfl rfl) d)
  | write c w n more =>
    have hsame := Signals.act (s := s) (c := c) (r := (s.client c, writeable_write n w))
      (.quiet rfl rfl rfl) d
    simp only [Sys.svc] at h
    split at h <;> cases h <;> exact .inl hsame
  | wc_connect pend =>
    cases pend <;> cases h
    · exact .inl (.quiet rfl rfl rfl)
    · exact .inl (.act (.quiet rfl rfl rfl) d)
  | wc_visit snap =>
    cases snap with
    | nil =>
      cases h
      exact .inl (.quiet rfl rfl rfl)
    | cons c snap =>
      simp only [Sys.svc] at h
      split at h
      · cases h
        exact .inl (.quiet rfl rfl rfl)
      · split at h
        · cases h
          exact .inl (.act (.quiet rfl rfl rfl) d)
        · split at h <;> cases h <;> exact .inl (.quiet rfl rfl rfl)
  | schedule_reconnect _ | has_data_check _ _ | event_wait_cancelled | wc_snapshot =>
    cases h
    exact .inl (.quiet rfl rfl rfl)

theorem callback_signals {w : WsiId} {a : Answer} {r : Reason} {fs : List Frame}
    (h : s.callback c w a r = some (fs, s')) (d : ClientId) :
    Signals (s.client d) (s'.client d) := by
  cases r with
  | CLIENT_ESTABLISHED =>
    cases h
    exact Signals.act (s := s.setLws _) (.quiet rfl rfl rfl) d
  | CLIENT_RECEIVE chunk =>
    simp only [Sys.callback, Option.map_eq_some_iff, Prod.mk.injEq] at h
    obtain ⟨o, ho, _, rfl⟩ := h
    obtain ⟨frag, hfrag⟩ := receive_client ho
    have hsame := Signals.act (s := s) (c := c) (r := (o.client, o.acts))
      (by rw [hfrag]; exact .quiet rfl rfl rfl) d
    split <;> exact hsame
  | CLIENT_WRITEABLE =>
    simp only [Sys.callback] at h
    split at h
    · cases h
      exact Signals.act (s := s.setLws _) (.quiet rfl rfl rfl) d
    · split at h <;> cases h
      · exact .quiet rfl rfl rfl
      · exact Signals.act (s := s.setLws _) (.quiet rfl rfl rfl) d
  | TIMER =>
    obtain ⟨_, hc⟩ := timer_client (s.client c) w a.ret
    have hsame := Signals.act (s := s.setLws (s.lws.modify w fun i => { i with timer := none }))
      (c := c) (r := ((timer (s.client c) w a.ret).client, (timer (s.client c) w a.ret).acts))
      (by rw [hc]; exact .quiet rfl rfl rfl) d
    simp only [Sys.callback, Option.some.injEq, Prod.mk.injEq] at h
    obtain ⟨_, rfl⟩ := h
    split <;> exact hsame
  | CLIENT_CONNECTION_ERROR msg =>
    cases h
    exact Signals.act (s := s.setLws _) (connection_error_signals _ msg) d
  | CLIENT_CLOSED =>
    cases h
    exact Signals.act (s := s.setLws _) (closed_signals _) d
  | WSI_DESTROY =>
    cases h
    exact Signals.act (s := s.setLws _) (wsi_destroy_signals _ w) d
  | CLIENT_RECEIVE_PONG | CLIENT_APPEND_HANDSHAKE_HEADER =>
    cases h
    exact .act (.quiet rfl rfl rfl) d

theorem deliver_signals {e : Event} {fs : List Frame} (h : s.deliver e = some (fs, s'))
    (d : ClientId) : Signals (s.client d) (s'.client d) := by
  cases e with
  | callback c w r a =>
    simp only [Sys.deliver, Option.ite_none_right_eq_some] at h
    exact callback_signals h.2 d
  | sul_reconnect_cb c =>
    simp only [Sys.deliver, Option.ite_none_right_eq_some, Option.some.injEq, Prod.mk.injEq] at h
    obtain ⟨_, _, rfl⟩ := h
    exact .act (.quiet rfl rfl rfl) d
  | service_thread | event_wait_cancelled _ | exit | context_destroyed =>
    simp only [Sys.deliver, Option.ite_none_right_eq_some, Option.some.injEq, Prod.mk.injEq] at h
    obtain ⟨_, _, rfl⟩ := h
    exact .quiet rfl rfl rfl

/-- A thread that waits for the client sees no difference. -/
def SameWait (b b' : wsp_client) : Prop := b'.stopped = b.stopped ∧ b'.waiting = b.waiting

theorem SameWait.act {d : ClientId} {r : wsp_client × List Act}
    (h : d = c → SameWait (s.client c) r.1) : SameWait (s.client d) ((s.act c r).client d) := by
  rw [Sys.act_client]
  split
  · next hd => exact hd ▸ h hd
  · exact ⟨rfl, rfl⟩

/-- Only the two sections in which `wsp_client_stop` holds `stop_mu` after it has
    marked the client speak to a waiting thread. -/
theorem app_waits {f : AppFrame} {a : Answer} {fs : List AppFrame} (h : s.app f a = some (fs, s'))
    (hlocked : f ≠ .stop_locked c) (hwait : f ≠ .stop_wait c) :
    SameWait (s.client c) (s'.client c) := by
  cases app_touches h c with
  | none hclient _ _ | send _ _ hclient _ | add hclient _ | stop _ hclient _ | sul_cancel hclient _
  | flush _ hclient _ =>
    rw [hclient]
    exact ⟨rfl, rfl⟩
  | lock => exact absurd rfl hlocked
  | wait => exact absurd rfl hwait
  | destroy hdestroy =>
    obtain ⟨freed, rfl⟩ := Sys.destroy_client_eq hdestroy
    exact .act fun _ => ⟨rfl, rfl⟩
  | destroy_all hdestroy hclient _ =>
    rw [hclient, destroy_all_client hdestroy]
    exact ⟨rfl, rfl⟩

/-- A thread that waits for client `c` waits for its connection, and a call that
    has come to its wait is waiting or has been signalled. -/
structure Handshake (c : ClientId) (cfg : Config) : Prop where
  blocked : (cfg.shared.client c).waiting = true →
    (cfg.shared.client c).stopped = false ∧ (cfg.shared.client c).wsi.isSome = true
  asked : (cfg.shared.client c).waiting = true → Pending cfg.app (· = .stop_wait c)
  heard : ∀ t, .stop_wait c ∈ cfg.app t →
    (cfg.shared.client c).waiting = true ∨ (cfg.shared.client c).stopped = true

/-- The service thread leaves the handshake as it is, or signals. -/
theorem Handshake.serve {svc : List Frame} {app : Nat → List AppFrame}
    (h : Handshake c ⟨s, svc, app⟩) (svc' : List Frame)
    (hstops : ∀ {t : Nat}, .stop_wait c ∈ app t → (s.client c).stopping = true)
    (hsignals : Signals (s.client c) (s'.client c)) :
    Handshake c ⟨s', svc', app⟩ ∧
      ((s'.client c).waiting = true → (s'.client c).wsi = (s.client c).wsi) := by
  obtain ⟨hblocked, hasked, hheard⟩ := h
  dsimp only at hblocked hasked hheard
  cases hsignals with
  | quiet hwsi hstopped hwaiting =>
    refine ⟨⟨?_, ?_, ?_⟩, fun _ => hwsi⟩ <;> dsimp only <;> rw [hwaiting]
    · rw [hstopped, hwsi]
      exact hblocked
    · exact hasked
    · rw [hstopped]
      exact hheard
  | ended hended hstopped hwaiting =>
    have hnot : (s.client c).waiting = false := by
      cases hw : (s.client c).waiting with
      | false => rfl
      | true =>
        obtain ⟨t, f, hf, rfl⟩ := hasked hw
        rcases hended with hrunning | hstopped
        · rw [hstops hf] at hrunning
          cases hrunning
        · rw [(hblocked hw).1] at hstopped
          cases hstopped
    refine ⟨⟨fun hw => ?_, fun hw => ?_, ?_⟩, fun hw => ?_⟩
    · exact absurd (hwaiting ▸ hw) (by simp [hnot])
    · exact absurd (hwaiting ▸ hw) (by simp [hnot])
    · dsimp only
      rw [hwaiting, hstopped]
      exact hheard
    · exact absurd (hwaiting ▸ hw) (by simp [hnot])
  | signalled hstopped hwaiting =>
    refine ⟨⟨fun hw => ?_, fun hw => ?_, fun _ _ => .inr hstopped⟩, fun hw => ?_⟩ <;>
      exact absurd hw (by simp [hwaiting])

/-- A connect call that stores its connection finds nobody waiting for another. -/
theorem Handshake.store {rest : List Frame} {app : Nat → List AppFrame} {wsi : Option WsiId}
    (h : Handshake c ⟨s, .connect_return c wsi :: rest, app⟩) (svc' : List Frame)
    (hlinked : Linked c ⟨s, .connect_return c wsi :: rest, app⟩)
    (hstore : s'.client c = { s.client c with wsi }) :
    Handshake c ⟨s', svc', app⟩ ∧
      ((s'.client c).waiting = true → (s'.client c).wsi = (s.client c).wsi) := by
  obtain ⟨hblocked, hasked, hheard⟩ := h
  dsimp only at hblocked hasked hheard
  have hsame : (s.client c).waiting = true → wsi = (s.client c).wsi := by
    intro hwaiting
    obtain ⟨v, hv⟩ := Option.isSome_iff_exists.mp (hblocked hwaiting).2
    have howns := hlinked.joined.owned v hv
    cases wsi with
    | none =>
      have hnone := (hlinked.joined.no_wsi (lives_of_retries (by simp [Frame.retries])
        hlinked.one)).1
      dsimp only at hnone
      rw [hv] at hnone
      cases hnone
    | some w =>
      have hlink := hlinked.joined.returning w (by simp)
      have hone := Nat.le_trans lives_le_seats hlinked.one
      rw [hv, hlinked.joined.bounded.unique hone howns
        (lws_context.owns_eq_true.mpr ⟨_, hlink, by decide⟩)]
  refine ⟨⟨fun hwaiting => ?_, fun hwaiting => ?_, fun t hf => ?_⟩, fun hwaiting => ?_⟩ <;>
    dsimp only at * <;> rw [hstore] at *
  · rw [hsame hwaiting]
    exact hblocked hwaiting
  · exact hasked hwaiting
  · exact hheard t hf
  · exact hsame hwaiting

/-- A wait is begun by the section before it. -/
theorem leads_stop_wait {clients : List ClientId} {f : AppFrame} {fs : List AppFrame}
    (h : fs ∈ f.leads clients) (hmem : .stop_wait c ∈ fs) : f = .stop_locked c ∨ f = .stop_wait c := by
  cases f with
  | stop_locked d | stop_wait d =>
    simp only [AppFrame.leads, List.mem_cons, List.not_mem_nil, or_false] at h
    rcases h with rfl | rfl
    · simp at hmem
    · simp only [List.mem_singleton, AppFrame.stop_wait.injEq] at hmem
      simp [hmem]
  | enqueue d data is_binary =>
    cases data <;> simp only [AppFrame.leads, List.mem_singleton] at h <;> subst h <;> simp at hmem
  | destroy_stop snap | destroy_clients snap =>
    cases snap <;> simp only [AppFrame.leads, List.mem_singleton] at h <;> subst h <;> simp at hmem
  | _ =>
    simp only [AppFrame.leads, List.mem_cons, List.not_mem_nil, or_false] at h
    rcases h with rfl | rfl <;> simp at hmem

variable {svc : List Frame} {app : Nat → List AppFrame} {t : Nat} {rest : List AppFrame}

/-- While one section of the stop of client `c` is next, no other is ahead. -/
theorem stops_alone (hone : Exclusive (AppFrame.handles c) app) {f g : AppFrame}
    (htop : app t = f :: rest) (hf : f.stops = some c) (hg : g.stops = some c) :
    (∀ u, u ≠ t → g ∉ app u) ∧ g ∉ rest := by
  have hhandles : ∀ {k : AppFrame}, k.stops = some c → k.handles c = true := fun hk => by
    simp [AppFrame.handles, hk]
  have hpos : 0 < (app t).countP (AppFrame.handles c) := by
    rw [htop, List.countP_cons, hhandles hf]
    simp
  refine ⟨fun u hu hmem => ?_, fun hmem => ?_⟩
  · have hnone := hone.others hpos hu
    rw [List.countP_eq_zero] at hnone
    exact hnone g hmem (hhandles hg)
  · have hsingle := hone.single t
    rw [htop, List.countP_cons, hhandles hf, if_pos rfl] at hsingle
    have hlater : 0 < rest.countP (AppFrame.handles c) :=
      List.countP_pos_iff.mpr ⟨g, hmem, hhandles hg⟩
    omega

/-- The thread at the locked section of the stop has not waited yet. -/
theorem Handshake.not_waiting (h : Handshake c ⟨s, svc, app⟩)
    (hone : Exclusive (AppFrame.handles c) app) {f : AppFrame} (htop : app t = f :: rest)
    (hf : f.stops = some c) (hne : f ≠ .stop_wait c) : (s.client c).waiting = false := by
  obtain ⟨hothers, hrest⟩ := stops_alone hone htop hf (g := .stop_wait c) rfl
  cases hw : (s.client c).waiting with
  | false => rfl
  | true =>
    obtain ⟨u, g, hg, rfl⟩ := h.asked hw
    by_cases hu : u = t
    · subst hu
      dsimp only at hg
      rw [htop] at hg
      rcases List.mem_cons.mp hg with heq | hg
      · exact absurd heq.symm hne
      · exact absurd hg hrest
    · exact absurd hg (hothers u hu)

theorem Handshake.ask {f : AppFrame} {a : Answer} {fs : List AppFrame}
    (h : Handshake c ⟨s, svc, app⟩) (hone : Exclusive (AppFrame.handles c) app)
    (htop : app t = f :: rest) (happ : s.app f a = some (fs, s')) :
    Handshake c ⟨s', svc, Function.update app t (fs ++ rest)⟩ := by
  have hleads := app_leads happ
  have hwsi := (app_advance happ c).wsi
  by_cases hlocked : f = .stop_locked c
  · subst hlocked
    have hnot := h.not_waiting hone htop rfl (by simp)
    simp only [Sys.app] at happ
    split at happ
    · next hcond =>
      split at happ
      · next hstopped =>
        cases happ
        exact ⟨fun hw => absurd hw (by simpa [Sys.cancel] using hnot),
          fun hw => absurd hw (by simpa [Sys.cancel] using hnot), fun _ _ => .inr hstopped⟩
      · next hstopped =>
        cases happ
        simp only [Bool.and_eq_true] at hcond
        exact ⟨fun _ => ⟨by simpa [Sys.cancel] using hstopped, by simpa [Sys.cancel] using hcond.1.1⟩,
          fun _ => .of_pushed (by simp) rfl, fun _ _ => .inl (by simp)⟩
    · cases happ
      exact ⟨fun hw => absurd hw (by simp [hnot]), fun hw => absurd hw (by simp [hnot]),
        fun _ _ => .inr (by simp)⟩
  · by_cases hwait : f = .stop_wait c
    · subst hwait
      obtain ⟨hother, hrest⟩ := stops_alone hone htop rfl (g := .stop_wait c) rfl
      -- Behind the wait no other wait is left.
      have hgone : ∀ u, .stop_wait c ∉ Function.update app t ([.stop_flush c] ++ rest) u := by
        intro u hmem
        rcases mem_update_app.mp hmem with ⟨_, hmem⟩ | ⟨hu, hmem⟩
        · exact hrest (by simpa using hmem)
        · exact hother u hu hmem
      simp only [Sys.app] at happ
      split at happ
      · cases happ
        exact ⟨fun hw => absurd hw (by simp), fun hw => absurd hw (by simp),
          fun u hu => absurd hu (hgone u)⟩
      · split at happ
        · cases happ
        · next hnot =>
          split at happ
          · next hstopped =>
            cases happ
            exact ⟨fun hw => absurd hw hnot, fun hw => absurd hw hnot,
              fun u hu => absurd hu (hgone u)⟩
          · next hstopped =>
            have hheard := h.heard t (by dsimp only; simp [htop])
            dsimp only at hheard
            rcases hheard with hw | hs
            · exact absurd hw hnot
            · exact absurd hs hstopped
    · obtain ⟨hstopped, hwaiting⟩ := app_waits happ hlocked hwait
      refine ⟨?_, fun hw => ?_, fun u hu => ?_⟩ <;> dsimp only at * <;> rw [hwaiting] at *
      · rw [hstopped, hwsi]
        exact h.blocked
      · exact (h.asked hw).update htop hwait fs
      · rw [hstopped]
        rcases mem_update_app.mp hu with ⟨rfl, hmem⟩ | ⟨_, hmem⟩
        · rcases List.mem_append.mp hmem with hmem | hmem
          · rcases leads_stop_wait hleads hmem with heq | heq
            · exact absurd heq hlocked
            · exact absurd heq hwait
          · exact h.heard u (by dsimp only; rw [htop]; simp [hmem])
        · exact h.heard u hmem

theorem Handshake.step (hmove : system.Moves cfg l cfg')
    (hone : Exclusive (AppFrame.handles c) cfg.app)
    (hstops : ∀ {t : Nat}, .stop_wait c ∈ cfg.app t → (cfg.shared.client c).stopping = true)
    (hlinked : Linked c cfg) (h : Handshake c cfg) : Handshake c cfg' := by
  cases hmove with
  | event hdeliver => exact (h.serve _ hstops (deliver_signals hdeliver c)).1
  | svc hsvc =>
    rcases svc_signals hsvc c with hsignals | ⟨wsi, rfl, hstore⟩
    · exact (h.serve _ hstops hsignals).1
    · exact (h.store _ hlinked hstore).1
  | @call t f s svc app hidle hcall =>
    have hf : .stop_wait c ≠ f := by
      rintro rfl
      simp [system, Sys.call] at hcall
    refine ⟨h.blocked, fun hw => (h.asked hw).call hidle, fun u hu => ?_⟩
    rcases mem_update_app.mp hu with ⟨_, hmem⟩ | ⟨_, hmem⟩
    · exact absurd (List.mem_singleton.mp hmem) hf
    · exact h.heard u hmem
  | app htop happ => exact h.ask hone htop happ

theorem Reaches.handshake {ok : Config → Label → Prop}
    (hadds : ∀ cfg l, ok cfg l → AddedOnce c cfg l) {client : ClientId → wsp_client}
    (hfresh : ∀ c, (client c).Fresh) (h : system.Reaches ok (initial client) cfg) :
    Handshake c cfg := by
  have hnot : (client c).waiting = false := (hfresh c).waiting
  refine h.invariant_under (I := Handshake c) (J := fun mid => Linked c mid ∧
      Exclusive (AppFrame.handles c) mid.app ∧
      ∀ {t : Nat}, .stop_wait c ∈ mid.app t → (mid.shared.client c).stopping = true)
    (fun mid hmid => ⟨Reaches.linked hadds hfresh hmid, Reaches.one_stop hmid c,
      fun hf => Reaches.stopping hmid hf rfl⟩)
    ⟨fun hw => ?_, fun hw => ?_, fun t hf => (by cases hf)⟩
    fun _ _ _ hknown _ hmove => Handshake.step hmove hknown.2.1 hknown.2.2 hknown.1
  · exact absurd (hnot ▸ hw : false = true) (by simp)
  · exact absurd (hnot ▸ hw : false = true) (by simp)

/-- The sections of a stop up to its wait follow each other. -/
theorem leads_early {clients : List ClientId} {f : AppFrame} {fs : List AppFrame}
    (h : fs ∈ f.leads clients) :
    (.stop_sul_cancel c ∈ fs → f = .wsp_client_stop c) ∧
      (.stop_locked c ∈ fs → f = .stop_sul_cancel c) := by
  cases f with
  | enqueue d data is_binary =>
    cases data <;> simp only [AppFrame.leads, List.mem_singleton] at h <;> subst h <;> simp
  | destroy_stop snap | destroy_clients snap =>
    cases snap <;> simp only [AppFrame.leads, List.mem_singleton] at h <;> subst h <;> simp
  | _ =>
    simp only [AppFrame.leads, List.mem_cons, List.not_mem_nil, or_false] at h
    rcases h with rfl | rfl <;> simp <;> exact Eq.symm

/-- The sections of the stop of client `c` before its wait are behind it. -/
structure Marked (c : ClientId) (cfg : Config) : Prop where
  stopping : (cfg.shared.client c).stopping = true
  behind : ∀ t, .stop_sul_cancel c ∉ cfg.app t ∧ .stop_locked c ∉ cfg.app t

theorem Marked.step (hmove : system.Moves cfg l cfg') (h : Marked c cfg) : Marked c cfg' := by
  cases hmove with
  | event hdeliver => exact ⟨((deliver_served hdeliver).1.stopping c).trans h.stopping, h.behind⟩
  | svc hsvc => exact ⟨((svc_served hsvc).1.stopping c).trans h.stopping, h.behind⟩
  | @call t f s svc app hidle hcall =>
    have hf : f ≠ .stop_sul_cancel c ∧ f ≠ .stop_locked c := by
      constructor <;> rintro rfl <;> simp [system, Sys.call] at hcall
    refine ⟨h.stopping, fun u => ⟨fun hu => ?_, fun hu => ?_⟩⟩ <;>
      rcases mem_update_app.mp hu with ⟨_, hmem⟩ | ⟨_, hmem⟩
    · exact hf.1 (List.mem_singleton.mp hmem).symm
    · exact (h.behind u).1 hmem
    · exact hf.2 (List.mem_singleton.mp hmem).symm
    · exact (h.behind u).2 hmem
  | @app t f a s s' svc app rest fs htop happ =>
    obtain ⟨hsul, hlocked⟩ := leads_early (c := c) (app_leads (f := f) (a := a) happ)
    have hbehind := h.behind t
    rw [show (⟨s, svc, app⟩ : Config).app t = f :: rest from htop] at hbehind
    have hnone : .stop_sul_cancel c ∉ fs ∧ .stop_locked c ∉ fs := by
      refine ⟨fun hmem => ?_, fun hmem => hbehind.1 (by simp [hlocked hmem])⟩
      obtain rfl := hsul hmem
      have hstopping := h.stopping
      dsimp only at hstopping
      simp only [system, Sys.app, hstopping, Bool.true_or, if_true, Option.some.injEq,
        Prod.mk.injEq] at happ
      rw [← happ.1] at hmem
      cases hmem
    refine ⟨(app_advance (f := f) (a := a) happ c).stopping h.stopping, fun u => ⟨fun hu => ?_, fun hu => ?_⟩⟩ <;>
      rcases mem_update_app.mp hu with ⟨_, hmem⟩ | ⟨_, hmem⟩
    · rcases List.mem_append.mp hmem with hmem | hmem
      · exact hnone.1 hmem
      · exact hbehind.1 (List.mem_cons_of_mem _ hmem)
    · exact (h.behind u).1 hmem
    · rcases List.mem_append.mp hmem with hmem | hmem
      · exact hnone.2 hmem
      · exact hbehind.2 (List.mem_cons_of_mem _ hmem)
    · exact (h.behind u).2 hmem

/-- A stop that has come to its wait has its other sections behind it. -/
theorem marked_of_wait (hone : Exclusive (AppFrame.handles c) cfg.app) {t : Nat}
    (hstopping : (cfg.shared.client c).stopping = true) (hwait : .stop_wait c ∈ cfg.app t) :
    Marked c cfg := by
  have honly : ∀ {u g}, g ∈ cfg.app u → g.stops = some c → g = .stop_wait c := fun hg hc =>
    hone.eq hg (by simp [AppFrame.handles, hc]) hwait (by simp [AppFrame.handles, AppFrame.stops])
  refine ⟨hstopping, fun u => ⟨fun hu => ?_, fun hu => ?_⟩⟩ <;> cases honly hu rfl

/-- While a thread waits for client `c` the connection it waits for stays the one
    the client has. -/
structure Waits (c : ClientId) (w : WsiId) (cfg : Config) : Prop where
  marked : Marked c cfg
  same : (cfg.shared.client c).waiting = true → (cfg.shared.client c).wsi = some w

theorem Waits.step {w : WsiId} (hmove : system.Moves cfg l cfg')
    (hstops : ∀ {t : Nat}, .stop_wait c ∈ cfg.app t → (cfg.shared.client c).stopping = true)
    (hlinked : Linked c cfg) (hshake : Handshake c cfg) (h : Waits c w cfg) : Waits c w cfg' := by
  refine ⟨h.marked.step hmove, fun hw => ?_⟩
  have hbefore := h.same
  cases hmove with
  | event hdeliver =>
    have hsignals := deliver_signals hdeliver c
    exact ((hshake.serve [] hstops hsignals).2 hw).trans (hbefore (hsignals.waiting hw))
  | svc hsvc =>
    rcases svc_signals hsvc c with hsignals | ⟨wsi, rfl, hstore⟩
    · exact ((hshake.serve [] hstops hsignals).2 hw).trans (hbefore (hsignals.waiting hw))
    · refine ((hshake.store [] hlinked hstore).2 hw).trans (hbefore ?_)
      dsimp only at hw ⊢
      rwa [hstore] at hw
  | call _ _ => exact hbefore hw
  | @app t f a s s' svc app rest fs htop happ =>
    have htop' : app t = f :: rest := htop
    have hlocked : f ≠ .stop_locked c := by
      rintro rfl
      exact (h.marked.behind t).2 (by dsimp only; simp [htop'])
    refine (app_advance (f := f) (a := a) happ c).wsi.trans (hbefore ?_)
    dsimp only at hw ⊢
    by_cases hwait : f = .stop_wait c
    · subst hwait
      have hheard := hshake.heard t (by dsimp only; simp [htop'])
      dsimp only at hheard
      rcases hheard with hheard | hstopped
      · exact hheard
      · -- A call that has been signalled does not wait again.
        simp only [system, Sys.app, hstopped, if_true] at happ
        split at happ
        · cases happ
          exact absurd hw (by simp)
        · split at happ
          · cases happ
          · cases happ
            exact hw
    · rwa [(app_waits (f := f) (a := a) happ hlocked hwait).2] at hw

/-- A thread blocked in `wsp_client_stop` waits for a live connection. When the
    connection has ended the thread has been signalled, and the call returns with
    the client stopped. -/
theorem stop_handshake {client : ClientId → wsp_client} (hfresh : ∀ c, (client c).Fresh)
    (h : system.Reaches (AddedOnce c) (initial client) cfg) :
    ((cfg.shared.client c).waiting = true → (cfg.shared.client c).stopped = false ∧
        ∃ w, (cfg.shared.client c).wsi = some w ∧ cfg.shared.lws.owns c w = true ∧
          ∀ {cfg'}, system.Reaches (AddedOnce c) cfg cfg' → cfg'.shared.lws.owns c w = false →
            (cfg'.shared.client c).waiting = false) ∧
      ∀ {t rest}, cfg.app t = .stop_wait c :: rest → (cfg.shared.client c).waiting = false →
        ∃ mid last, system.step cfg (.app t {}) = some mid ∧
          system.step mid (.app t {}) = some last ∧ last.app t = rest ∧
          (last.shared.client c).stopped = true ∧
          ∃ acts, last.shared.trace c = cfg.shared.trace c ++ acts ++ [.stop_returns] ∧
            .stop_times_out ∉ acts := by
  have hadds : ∀ cfg l, AddedOnce c cfg l → AddedOnce c cfg l := fun _ _ hok => hok
  have hshake := Reaches.handshake hadds hfresh h
  have hstopping : ∀ {t : Nat}, .stop_wait c ∈ cfg.app t → (cfg.shared.client c).stopping = true :=
    fun hf => Reaches.stopping h hf rfl
  refine ⟨fun hw => ?_, fun {t rest} htop hw => ?_⟩
  · obtain ⟨hstopped, hwsi⟩ := hshake.blocked hw
    obtain ⟨w, hwsi⟩ := Option.isSome_iff_exists.mp hwsi
    refine ⟨hstopped, w, hwsi, (Reaches.linked hadds hfresh h).joined.owned w hwsi,
      fun {cfg'} hlater hended => ?_⟩
    obtain ⟨u, f, hf, rfl⟩ := hshake.asked hw
    have hwaits : Waits c w cfg' := by
      refine hlater.invariant_under (J := fun mid => Linked c mid ∧ Handshake c mid ∧
          ∀ {t : Nat}, .stop_wait c ∈ mid.app t → (mid.shared.client c).stopping = true)
        (fun mid hmid => ?_) ⟨marked_of_wait (Reaches.one_stop h c) (hstopping hf) hf, fun _ => hwsi⟩
        fun _ _ _ hknown _ hmove => Waits.step hmove hknown.2.2 hknown.1 hknown.2.1
      have hall := h.trans hmid
      exact ⟨Reaches.linked hadds hfresh hall, Reaches.handshake hadds hfresh hall,
        fun hf => Reaches.stopping hall hf rfl⟩
    cases hw' : (cfg'.shared.client c).waiting with
    | false => rfl
    | true =>
      have howns := (Reaches.linked hadds hfresh (h.trans hlater)).joined.owned w (hwaits.same hw')
      rw [hended] at howns
      cases howns
  · have hstopped : (cfg.shared.client c).stopped = true := by
      rcases hshake.heard t (by simp [htop]) with hheard | hheard
      · exact absurd hheard (by simp [hw])
      · exact hheard
    obtain ⟨ns, hholds, _⟩ := Reaches.ordered hfresh h c
    obtain ⟨q, hflush, _⟩ := hholds.flush
    refine ⟨_, _, by simp [System.step, htop, system, Sys.app, hw, hstopped]; rfl,
      by simp [System.step, system, Sys.app, hflush]; rfl, by simp, by simp [hstopped],
      ns.map fun n => .flush_node n.payload n.is_binary, by simp, by simp⟩

/-- Client 0 is connected and a stop of it waits. -/
def blocked_run : List Label :=
  connected_run ++ [.call 1 (.wsp_client_stop 0), .app 1 {}, .app 1 {}, .app 1 {}]

theorem stop_handshake_blocked : ∃ cfg : Config,
    system.Follows Any (initial fresh_client) blocked_run cfg ∧
      (cfg.shared.client 0).waiting = true ∧ (cfg.shared.client 0).stopped = false ∧
      ∃ w, (cfg.shared.client 0).wsi = some w ∧ cfg.shared.lws.owns 0 w = true := by
  obtain ⟨cfg, hfollows, hw⟩ : ∃ cfg, system.Follows Any (initial fresh_client) blocked_run cfg ∧
      (cfg.shared.client 0).waiting = true :=
    System.exists_follows_of_run (by decide)
  have hfresh : ∀ c, (fresh_client c).Fresh := fun _ => wsp_client_create_fresh _ _ _ _
  have honce := Follows.adds_once hfresh hfollows (by decide)
  obtain ⟨hstopped, w, hwsi, howns, _⟩ :=
    (stop_handshake hfresh (honce.reaches.mono fun _ _ hok => hok.2 0)).1 hw
  exact ⟨cfg, hfollows, hw, hstopped, w, hwsi, howns⟩

end lws_client.ws_pool
