import LwsClientDemo.WsPool.Connection
import LwsClientDemo.WsPool.Members
import LwsClientDemo.WsPool.Queue

open interleaving

namespace lws_client.ws_pool

/-- A sender of client `d` between its queue insertion and its
    `lws_cancel_service` call. -/
def AppFrame.inserted (d : ClientId) : AppFrame → Bool
  | .enqueue_wake c | .lws_cancel_service c => c == d
  | _ => false

def Inserted (d : ClientId) (app : Nat → List AppFrame) : Prop :=
  Pending app fun f => f.inserted d = true

/-- A callback that still has to test `q_head` of client `d`, or to request
    WRITEABLE for it. -/
def Frame.wakes (d : ClientId) : Frame → Bool
  | .has_data_check c _ | .lws_callback_on_writable c _ => c == d
  | .write c _ _ more => c == d && more
  | .event_wait_cancelled | .wc_connect _ | .wc_snapshot => true
  | .wc_visit snap => snap.contains d
  | _ => false

/-- A WRITEABLE is outstanding on `c->wsi`. -/
def Sys.Requested (s : Sys) (d : ClientId) : Prop :=
  ∃ w, (s.client d).wsi = some w ∧ s.lws.Writable w

/-- A WRITEABLE or an EVENT_WAIT_CANCELLED is outstanding. -/
def Sys.Awake (s : Sys) (d : ClientId) : Prop := s.Requested d ∨ s.lws.cancelled = true

/-- Client `d` is connected, not stopping, and has something to send. -/
structure Sys.Needs (s : Sys) (d : ClientId) : Prop where
  stopping : (s.client d).stopping = false
  state : (s.client d).state = .STATE_CONNECTED
  q : (s.client d).q.has_data = true

/-- The step does not drop a wakeup: ESTABLISHED, which does not test `q_head`,
    finds nothing to send or leaves it to an EVENT_WAIT_CANCELLED; so does one
    that comes without a connection, and a write that fails. The loop ends for
    no connected client that is not stopping, and no client is added twice. -/
def passes (cfg : Config) : Label → Prop
  | .event (.callback c _ .CLIENT_ESTABLISHED _) =>
    (cfg.shared.client c).stopping = false → (cfg.shared.client c).q.has_data = true →
      cfg.shared.lws.cancelled = true ∨ Inserted c cfg.app
  | .event (.event_wait_cancelled false) =>
    ∀ d, cfg.shared.Needs d → cfg.shared.Requested d ∨ Inserted d cfg.app
  | .event .exit =>
    ∀ d, (cfg.shared.client d).stopping = false → (cfg.shared.client d).state ≠ .STATE_CONNECTED
  | .event _ => True
  | .svc a =>
    match cfg.svc with
    | .write c _ _ _ :: _ => a.ret < 0 → cfg.shared.Needs c → cfg.shared.Awake c ∨ Inserted c cfg.app
    | _ => True
  | l => AddsOnce cfg l

theorem passes_adds {cfg : Config} {l : Label} (h : passes cfg l) : AddsOnce cfg l := by
  cases l with
  | event e => exact fun _ hadd => hadd.elim
  | svc a => exact fun _ hadd => hadd.elim
  | call t f => exact h
  | app t a => exact h

/-- Whoever changed the queue or took a WRITEABLE passes the wakeup on. -/
def Wake (fs : List Frame) (app : Nat → List AppFrame) (s : Sys) : Prop :=
  ∀ d, s.Needs d → s.Awake d ∨ Inserted d app ∨ ∃ f ∈ fs, f.wakes d = true

/-- Only a running loop has connected clients that are not stopping. -/
def Lit (s : Sys) : Prop :=
  s.thread = .running ∨
    ∀ d, (s.client d).stopping = false → (s.client d).state ≠ .STATE_CONNECTED

/-- The connection a section of WRITEABLE, or of the visits, goes on with. -/
def Frame.aims : Frame → Option (ClientId × WsiId)
  | .has_data_check c w | .lws_callback_on_writable c w | .write c w _ _ => some (c, w)
  | _ => none

def Aimed (fs : List Frame) (s : Sys) : Prop :=
  ∀ f ∈ fs, ∀ c w, f.aims = some (c, w) → s.lws.link w = some (c, .established)

variable {s s' : Sys} {fs rest : List Frame} {d : ClientId}

theorem Lit.running (h : Lit s) (hneeds : s.Needs d) : s.thread = .running :=
  h.resolve_right fun hnone => hnone d hneeds.stopping hneeds.state

theorem Sys.Awake.congr (h : s.Awake d) (hwsi : (s'.client d).wsi = (s.client d).wsi)
    (hwritable : ∀ w, (s.client d).wsi = some w → s.lws.Writable w → s'.lws.Writable w)
    (hcancelled : s.lws.cancelled = true → s'.lws.cancelled = true) : s'.Awake d := by
  rcases h with ⟨w, hw, hrequested⟩ | hpending
  · exact .inl ⟨w, hwsi.trans hw, hwritable w hw hrequested⟩
  · exact .inr (hcancelled hpending)

/-- A client that is connected after a section of the service thread was so
    before it, unless its handshake has just completed. -/
theorem Relinks.connected {top : Option Frame} (hrel : Relinks s s' top fs)
    (hstate : (s'.client d).state = .STATE_CONNECTED) :
    (s.client d).state = .STATE_CONNECTED ∨ (top = none ∧ s.thread = .running) := by
  have hacts : ∀ {c : ClientId} {wsi : Option WsiId} {state : client_state_t} {stopped : Bool},
      Views s s' c (wsi, state, stopped) →
      (state = .STATE_CONNECTED → (s.client c).state = .STATE_CONNECTED) →
      (s.client d).state = .STATE_CONNECTED := by
    intro c wsi state stopped hviews hself
    by_cases hd : d = c
    · subst hd
      exact hself (hviews.self.2.1 ▸ hstate)
    · exact (hviews.other hd).2.1 ▸ hstate
  cases hrel with
  | still _ hview _ _ | finish _ _ hview _ =>
    exact .inl ((wsp_client.view_eq (hview d)).2.1 ▸ hstate)
  | establish hrun _ _ _ => exact .inr ⟨rfl, hrun⟩
  | close _ _ _ hviews hclosed _ _ _ => exact .inl (hacts hviews fun h => (hclosed h).2)
  | remove _ _ _ hviews _ _ | report _ _ _ hviews _ _ _ _ | store _ hviews =>
    exact .inl (hacts hviews id)
  | connect _ hviews | refuse _ hviews _ => exact .inl (hacts hviews fun h => by cases h)
  | idle _ _ hviews hnot _ => exact .inl (hacts hviews fun h => absurd h hnot)

/-- The client then keeps its connection. -/
theorem Relinks.keeps_wsi {f : Frame} (hrel : Relinks s s' (some f) fs)
    (hjoined : Joined d (f :: rest) s) (hone : seats d (f :: rest) s ≤ 1) (hrun : s.thread = .running)
    (hstate : (s.client d).state = .STATE_CONNECTED) :
    (s'.client d).wsi = (s.client d).wsi := by
  obtain ⟨v, _, hlink⟩ := hjoined.connected hrun hstate
  have howns : s.lws.owns d v = true := lws_context.owns_eq_true.mpr ⟨_, hlink, by decide⟩
  have hlives := hjoined.bounded.lives_pos howns
  have hnot : f.retries d = false := by
    by_contra hretries
    have hzero := lives_of_retries (by simpa using hretries) hone
    omega
  cases hrel with
  | still _ hview _ _ => exact (wsp_client.view_eq (hview d)).1
  | @report _ c w stopped fs hretries _ _ hviews _ _ _ _ =>
    have hd : d ≠ c := by
      rintro rfl
      rw [hnot] at hretries
      cases hretries
    exact (hviews.other hd).1
  | connect _ hviews | refuse _ hviews _ | idle _ _ hviews _ _ => exact hviews.wsi d
  | @store c wsi _ hviews =>
    by_cases hd : d = c
    · subst hd
      -- A connect call cannot return to a client that is connected.
      cases wsi with
      | none => simp [Frame.retries] at hnot
      | some w =>
        have hreturning := hjoined.returning w (by simp)
        have howns' : s.lws.owns d w = true := lws_context.owns_eq_true.mpr ⟨_, hreturning, by decide⟩
        have hone' : s.lws.lives d ≤ 1 := Nat.le_trans lives_le_seats hone
        obtain rfl := hjoined.bounded.unique hone' howns howns'
        rw [hlink] at hreturning
        cases hreturning
    · exact (hviews.other hd).1

/-- No section of the service thread takes a wakeup. -/
theorem svc_keeps {f : Frame} {a : Answer} (h : s.svc f a = some (fs, s')) (hb : s.lws.Bounded) :
    s.lws.Keeps s'.lws := by
  cases f with
  | do_connect c =>
    rcases (do_connect_spec h).2 with ⟨_, hlws⟩ | ⟨_, _, _, hlws⟩
    · exact hlws ▸ hb.keeps_connect c
    · exact hlws ▸ ⟨fun _ => id, fun _ => id, id⟩
  | write c w n more =>
    have hkeeps := s.lws.keeps_performs (writeable_write n w)
    simp only [Sys.svc] at h
    split at h <;> cases h
    · exact hkeeps.trans (lws_context.keeps_fail _ w)
    · exact hkeeps
  | wc_connect pend =>
    cases pend <;> cases h
    · exact .refl _
    · exact s.lws.keeps_performs _
  | wc_visit snap =>
    cases snap with
    | nil =>
      cases h
      exact .refl _
    | cons c snap =>
      simp only [Sys.svc] at h
      split at h
      · cases h
        exact .refl _
      · split at h
        · cases h
          exact s.lws.keeps_performs _
        · split at h <;> cases h <;> exact .refl _
  | schedule_reconnect _ | has_data_check _ _ | event_wait_cancelled | wc_snapshot =>
    cases h
    exact .refl _
  | connection_error _ _ | wsi_destroy _ _ | connect_return _ _ | schedule_arm _
  | lws_callback_on_writable _ _ =>
    cases h
    exact s.lws.keeps_performs _

/-- The section at the top passes on the wakeup it owes client `d`. -/
theorem svc_passes {f : Frame} {a : Answer} {app : Nat → List AppFrame}
    (h : s.svc f a = some (fs, s')) (hok : passes ⟨s, f :: rest, app⟩ (.svc a))
    (hlinked : Linked d ⟨s, f :: rest, app⟩) (hmembers : Members s) (haimed : Aimed (f :: rest) s)
    (hrun : s.thread = .running) (hneeds : s.Needs d) (hkept : s.Awake d → s'.Awake d)
    (hwakes : f.wakes d = true) : s'.Awake d ∨ Inserted d app ∨ ∃ g ∈ fs, g.wakes d = true := by
  obtain ⟨w, hw, hlink⟩ : ∃ w, (s.client d).wsi = some w ∧ s.lws.link w = some (d, .established) :=
    hlinked.joined.connected hrun hneeds.state
  have howns : s.lws.owns d w = true := lws_context.owns_eq_true.mpr ⟨_, hlink, by decide⟩
  cases f with
  | has_data_check c v =>
    obtain rfl : c = d := by simpa [Frame.wakes] using hwakes
    simp only [Sys.svc, Option.some.injEq, Prod.mk.injEq] at h
    obtain ⟨rfl, rfl⟩ := h
    exact .inr (.inr ⟨.lws_callback_on_writable c v, by simp [hneeds.q], by simp [Frame.wakes]⟩)
  | lws_callback_on_writable c v =>
    obtain rfl : c = d := by simpa [Frame.wakes] using hwakes
    have hlink' : s.lws.link v = some (c, .established) := haimed (.lws_callback_on_writable c v) (by simp) c v rfl
    have howns' : s.lws.owns c v = true := lws_context.owns_eq_true.mpr ⟨_, hlink', by decide⟩
    have hone : s.lws.lives c ≤ 1 := Nat.le_trans lives_le_seats (hlinked.one)
    obtain rfl := hlinked.joined.bounded.unique hone howns howns'
    cases h
    refine .inl (.inl ⟨w, by simpa using hw, lws_context.writable_requested ?_⟩)
    rw [lws_context.phase_eq_link, hlink]
    rfl
  | write c v n more =>
    obtain ⟨rfl, rfl⟩ : c = d ∧ more = true := by simpa [Frame.wakes] using hwakes
    simp only [Sys.svc] at h
    split at h
    · next hfailed =>
      rcases hok hfailed hneeds with hawake | hsender
      · exact .inl (hkept hawake)
      · exact .inr (.inl hsender)
    · cases h
      exact .inr (.inr ⟨.lws_callback_on_writable c v, by simp, by simp [Frame.wakes]⟩)
  | event_wait_cancelled =>
    cases h
    exact .inr (.inr ⟨_, List.mem_singleton_self _, rfl⟩)
  | wc_connect pend =>
    cases pend with
    | nil =>
      cases h
      exact .inr (.inr ⟨_, List.mem_singleton_self _, rfl⟩)
    | cons c pend =>
      cases h
      exact .inr (.inr ⟨.wc_connect pend, by simp, rfl⟩)
  | wc_snapshot =>
    cases h
    have hlives : 0 < s.lws.lives d := hlinked.joined.bounded.lives_pos howns
    have hle : s.lws.lives d ≤ (s.client d).pool.toNat :=
      Nat.le_trans lives_le_seats (hlinked.seats)
    have hmember : d ∈ s.pool.clients := by
      rw [← hmembers.registered d]
      cases hpool : (s.client d).pool with
      | true => rfl
      | false =>
        rw [hpool, Bool.toNat_false] at hle
        omega
    exact .inr (.inr ⟨_, List.mem_singleton_self _, by simpa [Frame.wakes] using hmember⟩)
  | wc_visit snap =>
    cases snap with
    | nil => simp [Frame.wakes] at hwakes
    | cons c snap =>
      by_cases hd : d = c
      · subst hd
        simp only [Sys.svc, hw, hneeds.stopping, hneeds.state, Bool.false_eq_true, if_false,
          if_true, Option.some.injEq, Prod.mk.injEq] at h
        obtain ⟨rfl, rfl⟩ := h
        exact .inr (.inr ⟨.has_data_check d w, by simp, by simp [Frame.wakes]⟩)
      · have hlater : (Frame.wc_visit snap).wakes d = true := by
          simpa [Frame.wakes, hd] using hwakes
        refine .inr (.inr ⟨.wc_visit snap, ?_, hlater⟩)
        simp only [Sys.svc] at h
        split at h
        · cases h
          simp
        · split at h
          · cases h
            simp
          · split at h <;> cases h <;> simp
  | _ => cases hwakes

/-- A section of the service thread passes the wakeup on. -/
theorem svc_wake {f : Frame} {a : Answer} {app : Nat → List AppFrame}
    (h : s.svc f a = some (fs, s')) (hok : passes ⟨s, f :: rest, app⟩ (.svc a))
    (hlinked : ∀ d, Linked d ⟨s, f :: rest, app⟩) (hmembers : Members s) (haimed : Aimed (f :: rest) s)
    (hlit : Lit s) (hwake : Wake (f :: rest) app s) : Wake (fs ++ rest) app s' := by
  intro d hneeds
  have hrel := svc_relinks h
  have hstop : (s.client d).stopping = false :=
    ((svc_served h).1.stopping d).symm.trans hneeds.stopping
  have hstate := (hrel.connected hneeds.state).resolve_right (by simp)
  have hq : (s'.client d).q = (s.client d).q := by
    rcases (svc_spec h d).2 with ⟨hsilent, _⟩ | ⟨_, hkept, _⟩ | ⟨_, _, _, _, hc, _⟩
    · exact hsilent.kept.q
    · exact hkept.q
    · rw [hc]
  have hbefore : s.Needs d := ⟨hstop, hstate, hq ▸ hneeds.q⟩
  have hrun := hlit.running hbefore
  have hwsi := hrel.keeps_wsi (hlinked d).joined (hlinked d).one hrun hstate
  have hkeeps := svc_keeps h (hlinked d).joined.bounded
  have hkept : s.Awake d → s'.Awake d := fun hawake =>
    hawake.congr hwsi (fun w _ => hkeeps.writable w) hkeeps.cancelled
  rcases hwake d hbefore with hawake | hsender | ⟨g, hg, hwakes⟩
  · exact .inl (hkept hawake)
  · exact .inr (.inl hsender)
  · rcases List.mem_cons.mp hg with rfl | hg
    · rcases svc_passes h hok (hlinked d) hmembers haimed hrun hbefore hkept hwakes with
        hawake | hsender | ⟨g', hg', hwakes'⟩
      · exact .inl hawake
      · exact .inr (.inl hsender)
      · exact .inr (.inr ⟨g', List.mem_append_left _ hg', hwakes'⟩)
    · exact .inr (.inr ⟨g, List.mem_append_right _ hg, hwakes⟩)

/-- A callback of one connection takes no wakeup from another, and it leaves the
    other clients alone. -/
theorem callback_keeps {c : ClientId} {w : WsiId} {a : Answer} {r : Reason}
    (h : s.callback c w a r = some (fs, s')) :
    s.lws.KeepsBut w s'.lws ∧ ∀ d, d ≠ c → s'.client d = s.client d := by
  have hact : ∀ (x : Sys) (r : wsp_client × List Act), s.lws.KeepsBut w x.lws →
      x.client = s.client → s.lws.KeepsBut w (x.act c r).lws ∧
        ∀ d, d ≠ c → (x.act c r).client d = s.client d := by
    intro x r hx hclient
    refine ⟨hx.trans ((x.lws.keeps_performs r.2).but w), fun d hd => ?_⟩
    rw [Sys.act_client, if_neg hd, hclient]
  have hmodify : ∀ f, s.lws.KeepsBut w (s.lws.modify w f) := s.lws.keepsBut_modify w
  have hsame : s.lws.KeepsBut w s.lws := (lws_context.Keeps.refl s.lws).but w
  have hfail : ∀ x : lws_context, x.KeepsBut w (x.fail w) := fun x => x.keepsBut_modify w _
  cases r with
  | CLIENT_ESTABLISHED | CLIENT_CONNECTION_ERROR _ | CLIENT_CLOSED =>
    cases h
    exact hact _ _ (hmodify _) rfl
  | WSI_DESTROY =>
    cases h
    exact hact _ _ (s.lws.keepsBut_remove w) rfl
  | CLIENT_RECEIVE_PONG | CLIENT_APPEND_HANDSHAKE_HEADER =>
    cases h
    exact hact s _ hsame rfl
  | CLIENT_RECEIVE chunk =>
    simp only [Sys.callback, Option.map_eq_some_iff, Prod.mk.injEq] at h
    obtain ⟨o, _, rfl, rfl⟩ := h
    obtain ⟨hkeeps, hclient⟩ := hact s (o.client, o.acts) hsame rfl
    split
    · exact ⟨hkeeps.trans (hfail _), hclient⟩
    · exact ⟨hkeeps, hclient⟩
  | CLIENT_WRITEABLE =>
    simp only [Sys.callback] at h
    split at h
    · cases h
      exact hact _ _ (hmodify _) rfl
    · split at h <;> cases h
      · exact ⟨hmodify _, fun _ _ => rfl⟩
      · exact hact _ _ (hmodify _) rfl
  | TIMER =>
    simp only [Sys.callback, Option.some.injEq, Prod.mk.injEq] at h
    obtain ⟨rfl, rfl⟩ := h
    obtain ⟨hkeeps, hclient⟩ := hact (s.setLws (s.lws.modify w fun i => { i with timer := none }))
      ((timer (s.client c) w a.ret).client, (timer (s.client c) w a.ret).acts) (hmodify _) rfl
    split
    · exact ⟨hkeeps.trans (hfail _), hclient⟩
    · exact ⟨hkeeps, hclient⟩

/-- Of the callbacks of an open connection only WRITEABLE takes its wakeup. -/
theorem callback_open {c : ClientId} {w : WsiId} {a : Answer} {r : Reason}
    (h : s.callback c w a r = some (fs, s')) (hr : r ≠ .CLIENT_WRITEABLE ∧ r ≠ .WSI_DESTROY) :
    s.lws.Keeps s'.lws := by
  have hphase : ∀ p, s.lws.Keeps (s.lws.setPhase w p) := fun p =>
    s.lws.keeps_modify w (fun _ => id) fun _ => id
  cases r with
  | CLIENT_ESTABLISHED | CLIENT_CONNECTION_ERROR _ | CLIENT_CLOSED =>
    cases h
    exact (hphase _).trans (lws_context.keeps_performs _ _)
  | CLIENT_RECEIVE_PONG | CLIENT_APPEND_HANDSHAKE_HEADER =>
    cases h
    exact s.lws.keeps_performs _
  | CLIENT_RECEIVE chunk =>
    simp only [Sys.callback, Option.map_eq_some_iff, Prod.mk.injEq] at h
    obtain ⟨o, _, rfl, rfl⟩ := h
    split
    · exact (s.lws.keeps_performs o.acts).trans (lws_context.keeps_fail _ w)
    · exact s.lws.keeps_performs o.acts
  | TIMER =>
    simp only [Sys.callback, Option.some.injEq, Prod.mk.injEq] at h
    obtain ⟨rfl, rfl⟩ := h
    have hfired : s.lws.Keeps (s.lws.modify w fun i => { i with timer := none }) :=
      s.lws.keeps_modify w (fun _ => id) fun _ => id
    have hkeeps := hfired.trans (lws_context.keeps_performs _ (timer (s.client c) w a.ret).acts)
    split
    · exact hkeeps.trans (lws_context.keeps_fail _ w)
    · exact hkeeps
  | CLIENT_WRITEABLE => exact absurd rfl hr.1
  | WSI_DESTROY => exact absurd rfl hr.2

theorem callback_receive {c : ClientId} {w : WsiId} {a : Answer} {chunk : Chunk}
    (h : s.callback c w a (.CLIENT_RECEIVE chunk) = some (fs, s')) :
    ∃ frag, s'.client c = { s.client c with frag } := by
  simp only [Sys.callback, Option.map_eq_some_iff, Prod.mk.injEq] at h
  obtain ⟨o, ho, _, rfl⟩ := h
  obtain ⟨frag, hc⟩ := receive_client ho
  refine ⟨frag, ?_⟩
  split <;> simp [Sys.setLws, hc]

theorem callback_timer {c : ClientId} {w : WsiId} {a : Answer}
    (h : s.callback c w a .TIMER = some (fs, s')) :
    ∃ send_ping, s'.client c = { s.client c with send_ping } := by
  obtain ⟨send_ping, hc⟩ := timer_client (s.client c) w a.ret
  simp only [Sys.callback, Option.some.injEq, Prod.mk.injEq] at h
  obtain ⟨_, rfl⟩ := h
  refine ⟨send_ping, ?_⟩
  rw [← hc]
  by_cases hret : (timer (s.client c) w a.ret).ret = 0 <;> simp [Sys.setLws, hret]

/-- A callback passes the wakeup on: WRITEABLE still has its test of `q_head`
    ahead or knows that there is more, and a connected client has one open
    connection, which is not the one that ends. -/
theorem callback_wake {c : ClientId} {w : WsiId} {a : Answer} {r : Reason}
    {app : Nat → List AppFrame} {ns : List ws_msg_node_t} (h : s.callback c w a r = some (fs, s'))
    (huser : (s.lws.wsi w).any (fun i => i.user == c) = true)
    (henabled : s.lws.enables s.thread w r = true)
    (hok : passes ⟨s, [], app⟩ (.event (.callback c w r a))) (hlinked : ∀ d, Linked d ⟨s, [], app⟩)
    (hlit : Lit s) (hholds : (s.client c).q.Holds ns) (hwake : Wake [] app s) :
    Wake fs app s' := by
  intro d hneeds
  obtain ⟨hbut, hother⟩ := callback_keeps h
  have hstop : (s.client d).stopping = false :=
    ((callback_served h).1.stopping d).symm.trans hneeds.stopping
  have hjoined : Joined d [] s := (hlinked d).joined
  -- What is owed to a client with an open connection other than `w`.
  have hkept : s.Needs d → (∀ v, (s.client d).wsi = some v → s.lws.Writable v → s'.lws.Writable v) →
      (s'.client d).wsi = (s.client d).wsi → s'.Awake d ∨ Inserted d app ∨ ∃ g ∈ fs, g.wakes d = true := by
    intro hbefore hwritable hwsi
    rcases hwake d hbefore with hawake | hsender | ⟨g, hg, _⟩
    · exact .inl (hawake.congr hwsi hwritable hbut.cancelled)
    · exact .inr (.inl hsender)
    · cases hg
  have hlinkw : ∀ {p}, s.lws.phase w = some p → s.lws.link w = some (c, p) :=
    lws_context.link_of_phase huser
  by_cases hd : d = c
  · subst hd
    have hopen : s.Needs d → ∃ v, (s.client d).wsi = some v ∧ s.lws.link v = some (d, .established) :=
      fun hbefore => hjoined.connected (hlit.running hbefore) hbefore.state
    have hsame : r ≠ .CLIENT_WRITEABLE ∧ r ≠ .WSI_DESTROY → (s.client d).state = .STATE_CONNECTED →
        (s'.client d).wsi = (s.client d).wsi → (s'.client d).q = (s.client d).q →
          s'.Awake d ∨ Inserted d app ∨ ∃ g ∈ fs, g.wakes d = true := fun hr hstate hwsi hq =>
      hkept ⟨hstop, hstate, hq ▸ hneeds.q⟩ (fun v _ => (callback_open h hr).writable v) hwsi
    have hstate' := hneeds.state
    cases r with
    | CLIENT_ESTABLISHED =>
      cases h
      have hdata : (s.client d).q.has_data = true := by simpa [established] using hneeds.q
      rcases hok hstop hdata with hcancelled | hsender
      · exact .inl (.inr (hbut.cancelled hcancelled))
      · exact .inr (.inl hsender)
    | CLIENT_RECEIVE chunk =>
      obtain ⟨frag, hclient⟩ := callback_receive h
      rw [hclient] at hstate'
      exact hsame (by simp) hstate' (by rw [hclient]) (by rw [hclient])
    | CLIENT_WRITEABLE =>
      simp only [Sys.callback] at h
      split at h
      · cases h
        exact .inr (.inr ⟨.has_data_check d w, by simp, by simp [Frame.wakes]⟩)
      · split at h
        · next q hdequeue =>
          cases h
          have hempty : (s.client d).q.has_data = false := by
            obtain ⟨hhead, _⟩ := hholds.dequeue
            have hdequeue' : (s.client d).q.dequeue = (none, q) := hdequeue
            rw [hdequeue'] at hhead
            have hns : ns = [] := by simpa using hhead.symm
            simpa [hns] using hholds.has_data_iff
          have hdata : (s.client d).q.has_data = true := hneeds.q
          rw [hempty] at hdata
          cases hdata
        · next n q _ =>
          cases h
          have hmore : q.has_data = true := by simpa using hneeds.q
          exact .inr (.inr ⟨.write d w n q.has_data, by simp, by simp [Frame.wakes, hmore]⟩)
    | TIMER =>
      obtain ⟨send_ping, hclient⟩ := callback_timer h
      rw [hclient] at hstate'
      exact hsame (by simp) hstate' (by rw [hclient]) (by rw [hclient])
    | CLIENT_RECEIVE_PONG | CLIENT_APPEND_HANDSHAKE_HEADER =>
      have hcb := h
      cases hcb
      exact hsame (by simp) (by simpa [receive_pong] using hstate') (by simp [receive_pong])
        (by simp [receive_pong])
    | CLIENT_CONNECTION_ERROR msg =>
      have hlink := hlinkw (lws_context.phase_of_enables_ne henabled (by simp))
      cases h
      obtain ⟨n, stopped, waiting, hc, _⟩ := connection_error_client (s.client d) msg
      have hstate : (s.client d).state = .STATE_CONNECTED := by simpa [hc] using hstate'
      have hq : (s.client d).q.has_data = true := by simpa [hc] using hneeds.q
      obtain ⟨v, _, hlinkv⟩ := hopen ⟨hstop, hstate, hq⟩
      have howns : s.lws.owns d v = true := lws_context.owns_eq_true.mpr ⟨_, hlinkv, by decide⟩
      have howns' : s.lws.owns d w = true :=
        lws_context.owns_eq_true.mpr ⟨_, hlink, by simp [Reason.phase]⟩
      obtain rfl := hjoined.bounded.unique (Nat.le_trans lives_le_seats ((hlinked d).one)) howns howns'
      rw [hlink] at hlinkv
      cases hlinkv
    | CLIENT_CLOSED =>
      cases h
      obtain ⟨n, stopped, waiting, hc, _⟩ := closed_client (s.client d)
      simp [hc] at hstate'
    | WSI_DESTROY =>
      have hcb := h
      cases hcb
      obtain ⟨stopped, waiting, hc, _⟩ := wsi_destroy_client (s.client d) w
      have hstate : (s.client d).state = .STATE_CONNECTED := by simpa [hc] using hstate'
      have hq : (s.client d).q.has_data = true := by simpa [hc] using hneeds.q
      have hbefore : s.Needs d := ⟨hstop, hstate, hq⟩
      obtain ⟨v, hv, hlinkv⟩ := hopen hbefore
      have hvw : v ≠ w := by
        rintro rfl
        rw [hlit.running hbefore] at henabled
        have hlink := hlinkw (lws_context.phase_of_enables henabled)
        rw [hlink] at hlinkv
        cases hlinkv
      refine hkept hbefore (fun u hu hwritable => ?_) ?_
      · rw [hv] at hu
        cases hu
        exact hbut.writable v hvw hwritable
      · simp [hc, hv, hvw]
  · have hclient := hother d hd
    have hbefore : s.Needs d := ⟨hstop, hclient ▸ hneeds.state, hclient ▸ hneeds.q⟩
    refine hkept hbefore (fun v hv hwritable => hbut.writable v ?_ hwritable) (by rw [hclient])
    rintro rfl
    obtain ⟨p, hlink, _⟩ := lws_context.owns_eq_true.mp (hjoined.owned v hv)
    rw [Option.any_eq_true] at huser
    obtain ⟨i, hi, huser⟩ := huser
    simp only [lws_context.link, hi, Option.map_some, Option.some.injEq, Prod.mk.injEq] at hlink
    exact hd (hlink.1.symm.trans (by simpa using huser))

theorem deliver_wake {e : Event} {app : Nat → List AppFrame} (h : s.deliver e = some (fs, s'))
    (hok : passes ⟨s, [], app⟩ (.event e)) (hlinked : ∀ d, Linked d ⟨s, [], app⟩) (hlit : Lit s)
    (hholds : ∀ c, ∃ ns, (s.client c).q.Holds ns) (hwake : Wake [] app s) : Wake fs app s' := by
  have hsame : (∀ d, (s'.client d).stopping = (s.client d).stopping ∧
      (s'.client d).state = (s.client d).state ∧ (s'.client d).q = (s.client d).q ∧
      (s'.client d).wsi = (s.client d).wsi) → s.lws.Keeps s'.lws → Wake fs app s' := by
    intro hclient hkeeps d hneeds
    obtain ⟨hstop, hstate, hq, hwsi⟩ := hclient d
    rcases hwake d ⟨hstop ▸ hneeds.stopping, hstate ▸ hneeds.state, hq ▸ hneeds.q⟩ with
      hawake | hsender | ⟨g, hg, _⟩
    · exact .inl (hawake.congr hwsi (fun w _ => hkeeps.writable w) hkeeps.cancelled)
    · exact .inr (.inl hsender)
    · cases hg
  cases e with
  | service_thread =>
    simp only [Sys.deliver, Option.ite_none_right_eq_some, Option.some.injEq, Prod.mk.injEq] at h
    obtain ⟨_, _, rfl⟩ := h
    exact hsame (fun _ => ⟨rfl, rfl, rfl, rfl⟩) (.refl _)
  | callback c w r a =>
    simp only [Sys.deliver, Option.ite_none_right_eq_some, Bool.and_eq_true] at h
    obtain ⟨ns, hns⟩ := hholds c
    exact callback_wake h.2 h.1.1 h.1.2 hok hlinked hlit hns hwake
  | event_wait_cancelled wsi =>
    simp only [Sys.deliver, Option.ite_none_right_eq_some, Option.some.injEq, Prod.mk.injEq] at h
    obtain ⟨_, rfl, rfl⟩ := h
    intro d hneeds
    cases wsi with
    | true => exact .inr (.inr ⟨.event_wait_cancelled, by simp, rfl⟩)
    | false =>
      rcases hok d ⟨hneeds.stopping, hneeds.state, hneeds.q⟩ with hrequested | hsender
      · exact .inl (.inl hrequested)
      · exact .inr (.inl hsender)
  | sul_reconnect_cb c =>
    simp only [Sys.deliver, Option.ite_none_right_eq_some, Option.some.injEq, Prod.mk.injEq] at h
    obtain ⟨_, _, rfl⟩ := h
    refine hsame (fun d => ?_) (s.lws.keeps_performs _)
    rw [Sys.act_client]
    split
    · next hd => exact hd ▸ ⟨rfl, rfl, rfl, rfl⟩
    · exact ⟨rfl, rfl, rfl, rfl⟩
  | exit =>
    simp only [Sys.deliver, Option.ite_none_right_eq_some, Option.some.injEq, Prod.mk.injEq] at h
    obtain ⟨_, _, rfl⟩ := h
    exact fun d hneeds => absurd hneeds.state (hok d hneeds.stopping)
  | context_destroyed =>
    simp only [Sys.deliver, Option.ite_none_right_eq_some, Option.some.injEq, Prod.mk.injEq] at h
    obtain ⟨⟨hthread, _⟩, _, rfl⟩ := h
    intro d hneeds
    have hrun := hlit.running (d := d) ⟨hneeds.stopping, hneeds.state, hneeds.q⟩
    rw [hthread] at hrun
    cases hrun

/-- A sender passes the wakeup on to the service thread, and the other calls
    leave it where it is. -/
theorem app_wake {f : AppFrame} {a : Answer} {svc : List Frame} {frames grest : List AppFrame}
    {app : Nat → List AppFrame} {t : Nat} (htop : app t = f :: grest)
    (h : s.app f a = some (frames, s')) (hlife : Lifecycle ⟨s, svc, app⟩)
    (hlinked : ∀ d, Linked d ⟨s, svc, app⟩) (hlit : Lit s) (hholds : ∀ c, ∃ ns, (s.client c).q.Holds ns)
    (hwake : Wake svc app s) : Wake svc (Function.update app t (frames ++ grest)) s' := by
  intro d hneeds
  have hadvance := app_advance h d
  have hstop : (s.client d).stopping = false := by
    by_contra hstopping
    have hstill := hadvance.stopping (by simpa using hstopping)
    rw [hneeds.stopping] at hstill
    cases hstill
  have hstate := hadvance.state ▸ hneeds.state
  have hgo : s.Needs d → s'.Awake d ∨ Inserted d (Function.update app t (frames ++ grest)) ∨
      ∃ g ∈ svc, g.wakes d = true := by
    intro hbefore
    have hrun := hlit.running hbefore
    obtain ⟨w, _, hlink⟩ : ∃ w, (s.client d).wsi = some w ∧ s.lws.link w = some (d, .established) :=
      (hlinked d).joined.connected hrun hbefore.state
    have hcalls : s.lws.Calls s'.lws := by
      rcases (app_registers h).calls with hcalls | hlws
      · exact hcalls
      · have hgone := (hlinked d).links htop h hlife w
        rw [hlink, hlws] at hgone
        cases hgone
    by_cases hinserted : f.inserted d = true
    · cases f with
      | enqueue_wake c =>
        obtain rfl : c = d := by simpa [AppFrame.inserted] using hinserted
        cases h
        have hlives : 0 < s.lws.lives c :=
          (hlinked c).joined.bounded.lives_pos (lws_context.owns_eq_true.mpr ⟨_, hlink, by decide⟩)
        have hle : s.lws.lives c ≤ (s.client c).pool.toNat :=
          Nat.le_trans lives_le_seats (hlinked c).seats
        have hpool : (s.client c).pool = true := by
          cases hnone : (s.client c).pool with
          | true => rfl
          | false =>
            rw [hnone, Bool.toNat_false] at hle
            omega
        have hctx : s.pool.ctx = true := hlife.owner.ctx hrun
        refine .inr (.inl (Pending.of_pushed (f := .lws_cancel_service c) ?_ (by simp [AppFrame.inserted])))
        simp [hpool, hctx]
      | lws_cancel_service c =>
        cases h
        exact .inl (.inr rfl)
      | _ => cases hinserted
    · rcases hwake d hbefore with hawake | hsender | hservice
      · exact .inl (hawake.congr hadvance.wsi (fun w _ => hcalls.keeps.writable w)
          hcalls.keeps.cancelled)
      · exact .inr (.inl (hsender.update htop hinserted frames))
      · exact .inr (.inr hservice)
  rcases app_spec h d with hsilent | ⟨freed, q, _, hflush, hc, _⟩ | ⟨_, _, _, _, _, _, _, rfl⟩
  · exact hgo ⟨hstop, hstate, hsilent.kept.q ▸ hneeds.q⟩
  · obtain ⟨ns, hns⟩ := hholds d
    obtain ⟨q', hnone, hempty⟩ := hns.flush
    rw [hflush] at hnone
    simp only [Option.some.injEq, Prod.mk.injEq] at hnone
    rw [hnone.2] at hc
    have hdata := hneeds.q
    rw [hc] at hdata
    exact absurd rfl (hempty.has_data_iff.mp hdata)
  · exact .inr (.inl (Pending.of_pushed (f := .enqueue_wake d) (by simp) (by simp [AppFrame.inserted])))

/-- What a section goes on with, it was given, or it has just read it. -/
theorem svc_aims {f g : Frame} {a : Answer} {c : ClientId} {w : WsiId}
    (h : s.svc f a = some (fs, s')) (hg : g ∈ fs) (haims : g.aims = some (c, w)) :
    (∀ v, s'.lws.link v = s.lws.link v) ∧ (f.aims = some (c, w) ∨
      ((s.client c).wsi = some w ∧ (s.client c).stopping = false ∧
        (s.client c).state = .STATE_CONNECTED)) := by
  cases f with
  | has_data_check d v =>
    simp only [Sys.svc, Option.some.injEq, Prod.mk.injEq] at h
    obtain ⟨rfl, rfl⟩ := h
    rw [List.mem_ite_nil_right, List.mem_singleton] at hg
    rw [hg.2] at haims
    exact ⟨fun _ => rfl, .inl haims⟩
  | write d v n more =>
    have hlinks := s.lws.sameLinks_performs (writeable_write n v)
    simp only [Sys.svc] at h
    split at h
    · cases h
      cases hg
    · simp only [Option.some.injEq, Prod.mk.injEq] at h
      obtain ⟨rfl, rfl⟩ := h
      rw [List.mem_ite_nil_right, List.mem_singleton] at hg
      rw [hg.2] at haims
      exact ⟨hlinks.link, .inl haims⟩
  | wc_visit snap =>
    cases snap with
    | nil =>
      cases h
      cases hg
    | cons d snap =>
      simp only [Sys.svc] at h
      split at h
      · cases h
        obtain rfl := List.mem_singleton.mp hg
        cases haims
      · next v hv =>
        split at h
        · cases h
          obtain rfl := List.mem_singleton.mp hg
          cases haims
        · next hstop =>
          split at h <;> cases h
          · next hstate =>
            simp only [List.mem_cons, List.not_mem_nil, or_false] at hg
            rcases hg with rfl | rfl
            · cases haims
              exact ⟨fun _ => rfl, .inr ⟨hv, by simpa using hstop, hstate⟩⟩
            · cases haims
          · obtain rfl := List.mem_singleton.mp hg
            cases haims
  | do_connect d =>
    rcases (do_connect_spec h).2 with ⟨rfl, _⟩ | ⟨error, destroyed, rfl, _⟩
    · obtain rfl := List.mem_singleton.mp hg
      cases haims
    · cases error <;> cases destroyed <;> simp at hg
      · subst hg
        cases haims
      · rcases hg with rfl | rfl <;> cases haims
      · rcases hg with rfl | rfl <;> cases haims
      · rcases hg with rfl | rfl | rfl <;> cases haims
  | wc_connect pend =>
    cases pend <;> cases h <;> simp at hg
    · subst hg
      cases haims
    · rcases hg with rfl | rfl <;> cases haims
  | connection_error _ _ | connect_return _ _ | schedule_reconnect _ =>
    simp only [Sys.svc, Option.some.injEq, Prod.mk.injEq] at h
    obtain ⟨rfl, _⟩ := h
    split at hg <;> simp at hg
    subst hg
    cases haims
  | event_wait_cancelled | wc_snapshot =>
    cases h
    obtain rfl := List.mem_singleton.mp hg
    cases haims
  | wsi_destroy _ _ | schedule_arm _ | lws_callback_on_writable _ _ =>
    cases h
    cases hg

theorem Frame.aims_of_behind {g : Frame} (h : g.behind = true) : g.aims = none := by
  cases g <;> first | rfl | cases h

theorem Aimed.svc {f : Frame} {a : Answer} {app : Nat → List AppFrame}
    (h : s.svc f a = some (fs, s')) (hbehind : ∀ g ∈ rest, g.behind = true)
    (hlinked : ∀ d, Linked d ⟨s, f :: rest, app⟩) (hlit : Lit s) (haimed : Aimed (f :: rest) s) :
    Aimed (fs ++ rest) s' := by
  intro g hg c w haims
  rcases List.mem_append.mp hg with hg | hg
  · obtain ⟨hlink, hf | ⟨hw, hstop, hstate⟩⟩ := svc_aims h hg haims
    · exact (hlink w).trans (haimed f (by simp) c w hf)
    · have hrun : s.thread = .running := hlit.resolve_right fun hnone => hnone c hstop hstate
      obtain ⟨v, hv, hestablished⟩ : ∃ v, (s.client c).wsi = some v ∧
          s.lws.link v = some (c, .established) := (hlinked c).joined.connected hrun hstate
      rw [hw, Option.some.injEq] at hv
      exact (hlink w).trans (hv ▸ hestablished)
  · rw [Frame.aims_of_behind (hbehind g hg)] at haims
    cases haims

theorem Aimed.deliver {e : Event} (h : s.deliver e = some (fs, s')) : Aimed fs s' := by
  intro g hg c w haims
  cases e with
  | callback d v r a =>
    simp only [Sys.deliver, Option.ite_none_right_eq_some, Bool.and_eq_true] at h
    obtain ⟨⟨huser, henabled⟩, h⟩ := h
    cases r with
    | CLIENT_WRITEABLE =>
      have hlink := lws_context.link_of_phase huser
        (lws_context.phase_of_enables_ne henabled (by simp))
      have htaken := s.lws.sameLinks_modify v (f := fun i => { i with writable := false })
        fun _ => ⟨rfl, rfl⟩
      have hkept : ∀ acts, ((s.lws.modify v fun i => { i with writable := false }).performs acts).link v =
          some (d, .established) := fun acts =>
        ((htaken.trans (lws_context.sameLinks_performs _ acts)).link v).trans hlink
      simp only [Sys.callback] at h
      split at h
      · cases h
        obtain rfl := List.mem_singleton.mp hg
        cases haims
        exact hkept _
      · split at h <;> cases h
        · cases hg
        · obtain rfl := List.mem_singleton.mp hg
          cases haims
          exact hkept []
    | CLIENT_RECEIVE chunk =>
      simp only [Sys.callback, Option.map_eq_some_iff, Prod.mk.injEq] at h
      obtain ⟨_, _, rfl, _⟩ := h
      cases hg
    | CLIENT_CONNECTION_ERROR _ | CLIENT_CLOSED =>
      simp only [Sys.callback, Option.some.injEq, Prod.mk.injEq] at h
      obtain ⟨rfl, _⟩ := h
      split at hg <;> simp at hg
      subst hg
      cases haims
    | CLIENT_ESTABLISHED | TIMER | CLIENT_RECEIVE_PONG | WSI_DESTROY |
      CLIENT_APPEND_HANDSHAKE_HEADER =>
      cases h
      cases hg
  | event_wait_cancelled _ | sul_reconnect_cb _ =>
    simp only [Sys.deliver, Option.ite_none_right_eq_some, Option.some.injEq, Prod.mk.injEq] at h
    obtain ⟨_, rfl, _⟩ := h
    split at hg <;> simp at hg
    subst hg
    cases haims
  | service_thread | exit | context_destroyed =>
    simp only [Sys.deliver, Option.ite_none_right_eq_some, Option.some.injEq, Prod.mk.injEq] at h
    obtain ⟨_, rfl, _⟩ := h
    cases hg

/-- The loop ends only when no client is connected and not stopping. -/
theorem Lit.step {cfg cfg' : Config} {l : Label} (hmove : system.Moves cfg l cfg')
    (hok : passes cfg l) (hlife : Lifecycle cfg) (h : Lit cfg.shared) :
    Lit cfg'.shared := by
  cases hmove with
  | @event e s s' app fs hdeliver =>
    obtain ⟨hserved, hturns, _⟩ := deliver_served hdeliver
    have hdark : s.thread ≠ .running → s'.thread = .running ∨
        ∀ d, (s'.client d).stopping = false → (s'.client d).state ≠ .STATE_CONNECTED := by
      intro hthread
      refine .inr fun d hstop hstate => ?_
      have hstop' : (s.client d).stopping = false := (hserved.stopping d).symm.trans hstop
      rcases (deliver_relinks hdeliver).connected hstate with hbefore | ⟨_, hrun⟩
      · exact (h.resolve_left hthread) d hstop' hbefore
      · exact hthread hrun
    cases hturns with
    | stay heq =>
      by_cases hrun : s.thread = .running
      · exact .inl (heq.trans hrun)
      · exact hdark hrun
    | run _ hrun => exact .inl hrun
    | exit hrun hdestroying hexited =>
      cases e with
      | exit =>
        have hdeliver' : s.deliver .exit = some (fs, s') := hdeliver
        simp only [Sys.deliver, Option.ite_none_right_eq_some, Option.some.injEq,
          Prod.mk.injEq] at hdeliver'
        obtain ⟨_, _, rfl⟩ := hdeliver'
        exact .inr hok
      | callback c w r a =>
        have hdeliver' : s.deliver (.callback c w r a) = some (fs, s') := hdeliver
        simp only [Sys.deliver, Option.ite_none_right_eq_some] at hdeliver'
        rw [(callback_served hdeliver'.2).2, hrun] at hexited
        cases hexited
      | event_wait_cancelled _ | sul_reconnect_cb _ =>
        simp only [system, Sys.deliver, Option.ite_none_right_eq_some, Option.some.injEq,
          Prod.mk.injEq] at hdeliver
        obtain ⟨_, _, rfl⟩ := hdeliver
        exact .inl hrun
      | service_thread | context_destroyed =>
        simp only [system, Sys.deliver, Option.ite_none_right_eq_some] at hdeliver
        simp [hrun] at hdeliver
    | destroyed hthread _ => exact hdark (by simp [hthread])
  | @svc f a s s' app rest fs hsvc =>
    obtain ⟨hserved, hthread⟩ := svc_served hsvc
    rcases h with hrun | hnone
    · exact .inl (hthread.trans hrun)
    · refine .inr fun d hstop hstate => ?_
      have hstop' : (s.client d).stopping = false := (hserved.stopping d).symm.trans hstop
      exact hnone d hstop' (((svc_relinks hsvc).connected hstate).resolve_right (by simp))
  | call _ _ => exact h
  | @app t f a s s' svc app rest fs htop happ =>
    rcases h with hrun | hnone
    · left
      by_cases hf : f.guest = true
      · exact (app_guest happ hf).1.thread.trans hrun
      · have ht : t = 0 := by
          by_contra ht
          exact hf (hlife.guests t ht f (by simp [htop]))
        subst ht
        exact ((owner_app hlife.owner htop (by simpa using hf) happ).2 (.inl hrun)).trans hrun
    · refine .inr fun d hstop hstate => ?_
      have hadvance := app_advance happ d
      refine hnone d ?_ (hadvance.state ▸ hstate)
      by_contra hstopping
      have hstill := hadvance.stopping (by simpa using hstopping)
      rw [hstop] at hstill
      cases hstill

/-- What holds in runs whose steps drop no wakeup. -/
structure Woken (cfg : Config) : Prop where
  lit : Lit cfg.shared
  aimed : Aimed cfg.svc cfg.shared
  wake : Wake cfg.svc cfg.app cfg.shared

theorem Woken.step {cfg cfg' : Config} {l : Label} (hmove : system.Moves cfg l cfg')
    (hok : passes cfg l) (hlife : Lifecycle cfg) (hlinked : ∀ d, Linked d cfg)
    (hmembers : Members cfg.shared) (hbehind : ∀ f ∈ cfg.svc.tail, f.behind = true)
    (hholds : ∀ c, ∃ ns, (cfg.shared.client c).q.Holds ns) (h : Woken cfg) : Woken cfg' := by
  have hlit := h.lit.step hmove hok hlife
  obtain ⟨hlit₀, haimed, hwake⟩ := h
  cases hmove with
  | event hdeliver =>
    exact ⟨hlit, .deliver hdeliver, deliver_wake hdeliver hok hlinked hlit₀ hholds hwake⟩
  | svc hsvc =>
    exact ⟨hlit, haimed.svc hsvc hbehind hlinked hlit₀,
      svc_wake hsvc hok hlinked hmembers haimed hlit₀ hwake⟩
  | call hidle _ =>
    refine ⟨hlit, haimed, fun d hneeds => ?_⟩
    rcases hwake d hneeds with hawake | hsender | hservice
    · exact .inl hawake
    · exact .inr (.inl (hsender.call hidle))
    · exact .inr (.inr hservice)
  | app htop happ =>
    refine ⟨hlit, fun g hg c w haims => ?_,
      app_wake htop happ hlife hlinked hlit₀ hholds hwake⟩
    exact ((hlinked c).links htop happ hlife w).trans (haimed g hg c w haims)

theorem Reaches.woken {client : ClientId → wsp_client} (hfresh : ∀ c, (client c).Fresh)
    {cfg : Config} (h : system.Reaches passes (initial client) cfg) : Woken cfg := by
  refine h.invariant_under (I := Woken)
    (J := fun mid => Lifecycle mid ∧ (∀ d, Linked d mid) ∧ Members mid.shared ∧
      (∀ f ∈ mid.svc.tail, f.behind = true) ∧ ∀ c, ∃ ns, (mid.shared.client c).q.Holds ns)
    (fun mid hmid => ?_) ⟨.inr fun d _ => ?_, fun f hf => (by cases hf), fun d hneeds => ?_⟩
    fun _ _ _ hknown hok hmove => ?_
  · refine ⟨Reaches.lifecycle hmid, fun d => Reaches.linked (fun _ _ hok => passes_adds hok d) hfresh hmid,
      Reaches.members (fun _ _ => passes_adds) hfresh hmid, Reaches.behind hmid, fun c => ?_⟩
    obtain ⟨ns, hholds, _⟩ := Reaches.ordered hfresh hmid c
    exact ⟨ns, hholds⟩
  · rw [show ((initial client).shared.client d).state = (client d).state from rfl, (hfresh d).state]
    decide
  · have hstate := hneeds.state
    rw [show ((initial client).shared.client d).state = (client d).state from rfl,
      (hfresh d).state] at hstate
    cases hstate
  · obtain ⟨hlife, hlinked, hmembers, hbehind, hholds⟩ := hknown
    exact Woken.step hmove hok hlife hlinked hmembers hbehind hholds

/-- In runs whose steps drop no wakeup, no queued message waits without one. In
    the middle of a callback it may be that callback which is still to test
    `q_head` or to request the WRITEABLE. -/
theorem wakeup_passed {client : ClientId → wsp_client} (hfresh : ∀ c, (client c).Fresh)
    {cfg : Config} (h : system.Reaches passes (initial client) cfg) {d : ClientId}
    (hstop : (cfg.shared.client d).stopping = false)
    (hstate : (cfg.shared.client d).state = .STATE_CONNECTED)
    (hdata : (cfg.shared.client d).q.list.head ≠ none)
    (hsenders : ∀ t, ∀ f ∈ cfg.app t, f.inserted d = false) :
    ((∃ w, (cfg.shared.client d).wsi = some w ∧ cfg.shared.lws.phase w = some .established ∧
        cfg.shared.lws.Writable w) ∨ cfg.shared.lws.cancelled = true) ∨
      (cfg.svc ≠ [] ∧ ∃ f ∈ cfg.svc, f.wakes d = true) := by
  have hneeds : cfg.shared.Needs d :=
    ⟨hstop, hstate, by simpa [SendQueue.has_data, Option.isSome_iff_ne_none] using hdata⟩
  obtain ⟨hlit, _, hwake⟩ := Reaches.woken hfresh h
  have hlinked := Reaches.linked (fun _ _ hok => passes_adds hok d) hfresh h
  obtain ⟨w, hw, hlink⟩ := hlinked.joined.connected (hlit.running hneeds) hstate
  rcases hwake d hneeds with (⟨v, hv, hwritable⟩ | hcancelled) | ⟨t, f, hf, hinserted⟩ |
    ⟨f, hf, hwakes⟩
  · obtain rfl : w = v := by
      rw [hw] at hv
      simpa using hv
    refine .inl (.inl ⟨w, hv, ?_, hwritable⟩)
    rw [lws_context.phase_eq_link, hlink]
    rfl
  · exact .inl (.inr hcancelled)
  · rw [hsenders t f hf] at hinserted
    cases hinserted
  · exact .inr ⟨List.ne_nil_of_mem hf, f, hf, hwakes⟩

/-- A condition on a step that can be evaluated, under which it drops no wakeup. -/
def sure (cfg : Config) : Label → Bool
  | .event (.callback c _ .CLIENT_ESTABLISHED _) => !(cfg.shared.client c).q.has_data
  | .event (.event_wait_cancelled wsi) => wsi
  | .event .exit => false
  | .event _ | .call _ _ => true
  | .svc a => decide (0 ≤ a.ret)
  | .app t _ =>
    match cfg.app t with
    | .pool_add_locked c :: _ => !(cfg.shared.client c).pool
    | _ => true

theorem passes_of_sure {cfg : Config} {l : Label} (h : sure cfg l = true) : passes cfg l := by
  cases l with
  | event e =>
    cases e with
    | callback c w reason a =>
      cases reason with
      | CLIENT_ESTABLISHED =>
        intro _ hdata
        simp [sure, hdata] at h
      | _ => exact trivial
    | event_wait_cancelled wsi =>
      obtain rfl : wsi = true := h
      exact trivial
    | exit => simp [sure] at h
    | _ => exact trivial
  | svc a =>
    simp only [passes]
    split
    · exact fun hfailed => absurd hfailed (by simpa [sure] using h)
    · exact trivial
  | call t f => exact fun _ hadd => hadd.elim
  | app t a =>
    rintro c ⟨rest, htop⟩
    simpa [sure, htop] using h

/-- A message is queued before the connection of client 0 is established, and
    the EVENT_WAIT_CANCELLED of its sender finds the client not connected. -/
def stalled_run : List Label :=
  connected_run.dropLast ++ [.call 2 (.enqueue 0 (some ⟨[104, 105], two_bytes⟩) false), .app 2 {},
    .app 2 {}, .app 2 {}, .app 2 {}, .event (.event_wait_cancelled true), .svc {}, .svc {}, .svc {},
    .svc {}, .svc {}, .event (.callback 0 0 .CLIENT_ESTABLISHED {})]

/-- A message is queued on the open connection of client 0, up to the return of
    `wsp_send`. -/
def sent_run : List Label :=
  connected_run ++ [.call 2 (.enqueue 0 (some ⟨[104, 105], two_bytes⟩) false), .app 2 {}, .app 2 {},
    .app 2 {}, .app 2 {}]

/-- Another thread queues a second message of client 0, and the first is written. -/
def written_run : List Label :=
  sent_run ++ [.call 3 (.enqueue 0 (some ⟨[120], one_byte⟩) true), .app 3 {}, .app 3 {}, .app 3 {},
    .app 3 {}, .event (.callback 0 0 .CLIENT_WRITEABLE {}), .svc {}, .svc {}]

end lws_client.ws_pool
