import LwsClientDemo.WsPool.Seats

open interleaving

namespace lws_client.ws_pool

/-- What a client remembers about its connection. -/
def wsp_client.view (c : wsp_client) : Option WsiId × client_state_t × Bool :=
  (c.wsi, c.state, c.stopped)

/-- A connect call that has made its connection and not yet stored it. -/
def Frame.returns : Frame → Bool
  | .connect_return _ (some _) => true
  | _ => false

/-- Client `c` changes its view, the others keep theirs. -/
def Views (s s' : Sys) (c : ClientId) (view : Option WsiId × client_state_t × Bool) : Prop :=
  ∀ d, (s'.client d).view = if d = c then view else (s.client d).view

/-- What a section of the service thread does to the connections, with the
    frame it runs and the frames it pushes. -/
inductive Relinks (s s' : Sys) : Option Frame → List Frame → Prop where
  | still {top : Option Frame} {fs : List Frame} : s.lws.SameLinks s'.lws →
      (∀ d, (s'.client d).view = (s.client d).view) → (∀ f ∈ top, f.returns = false) →
      (∀ f ∈ fs, f.returns = false) → Relinks s s' top fs
  | establish {c : ClientId} {w : WsiId} : s.thread = .running → s.lws.link w = some (c, .connecting) →
      (s.lws.setPhase w .established).SameLinks s'.lws →
      Views s s' c ((s.client c).wsi, .STATE_CONNECTED, (s.client c).stopped) →
      Relinks s s' none []
  | close {c : ClientId} {w : WsiId} {p : WsiPhase} {state : client_state_t} {stopped : Bool}
      {fs : List Frame} : s.lws.link w = some (c, p) → p ≠ .closed →
      (s.lws.setPhase w .closed).SameLinks s'.lws → Views s s' c (none, state, stopped) →
      (state = .STATE_CONNECTED → p = .connecting ∧ (s.client c).state = .STATE_CONNECTED) →
      ((s.client c).stopping = true → stopped = true) →
      ((s.client c).stopping = false → stopped = (s.client c).stopped) →
      fs = [] ∨ fs = [.schedule_reconnect c] → Relinks s s' none fs
  | remove {c : ClientId} {w : WsiId} {p : WsiPhase} {stopped : Bool} :
      s.lws.link w = some (c, p) → (s.thread = .running → p = .closed) →
      (s.lws.remove w).SameLinks s'.lws →
      Views s s' c (if (s.client c).wsi = some w then none else (s.client c).wsi,
        (s.client c).state, stopped) →
      ((s.client c).stopping = true → stopped = true) →
      ((s.client c).stopping = false → stopped = (s.client c).stopped) → Relinks s s' none []
  | report {f : Frame} {c : ClientId} {w : Option WsiId} {stopped : Bool} {fs : List Frame} :
      f.retries c = true → f.returns = false → s.lws.SameLinks s'.lws →
      Views s s' c (w, (s.client c).state, stopped) → w = none ∨ w = (s.client c).wsi →
      ((s.client c).stopping = true → stopped = true) →
      ((s.client c).stopping = false → stopped = (s.client c).stopped) →
      fs = [] ∨ fs = [.schedule_reconnect c] → Relinks s s' (some f) fs
  | connect {c : ClientId} : (s.lws.connect c).SameLinks s'.lws →
      Views s s' c ((s.client c).wsi, .STATE_CONNECTING, (s.client c).stopped) →
      Relinks s s' (some (.do_connect c)) [.connect_return c (some s.lws.next)]
  | refuse {c : ClientId} {fs : List Frame} : s'.lws = { s.lws with next := s.lws.next + 1 } →
      Views s s' c ((s.client c).wsi, .STATE_CONNECTING, (s.client c).stopped) →
      (∀ f ∈ fs, f.returns = false) → Relinks s s' (some (.do_connect c)) fs
  | store {c : ClientId} {wsi : Option WsiId} : s.lws.SameLinks s'.lws →
      Views s s' c (wsi, (s.client c).state, (s.client c).stopped) →
      Relinks s s' (some (.connect_return c wsi))
        (if wsi.isSome then [] else [.schedule_reconnect c])
  | idle {f : Frame} {c : ClientId} {state : client_state_t} {fs : List Frame} :
      s.lws.SameLinks s'.lws → f.returns = false →
      Views s s' c ((s.client c).wsi, state, (s.client c).stopped) → state ≠ .STATE_CONNECTED →
      (∀ f ∈ fs, f.returns = false) → Relinks s s' (some f) fs
  | finish : (∀ w, w < s.lws.next → s.lws.link w = none) → s'.lws = s.lws.destroy →
      (∀ d, (s'.client d).view = (s.client d).view) → s'.thread = .exited → Relinks s s' none []

theorem Views.act {s : Sys} {lws : lws_context} {c : ClientId} {r : wsp_client × List Act}
    {view : Option WsiId × client_state_t × Bool} (h : r.1.view = view) :
    Views s ((s.setLws lws).act c r) c view := by
  intro d
  rw [Sys.act_client]
  split
  · exact h
  · rfl

/-- Client `c` changes nothing it remembers about its connection. -/
theorem Sys.act_view {s : Sys} {c : ClientId} {r : wsp_client × List Act}
    (h : r.1.view = (s.client c).view) (d : ClientId) :
    ((s.act c r).client d).view = (s.client d).view :=
  Sys.act_field wsp_client.view h d

theorem svc_relinks {f : Frame} {a : Answer} {s s' : Sys} {fs : List Frame}
    (h : s.svc f a = some (fs, s')) : Relinks s s' (some f) fs := by
  cases f with
  | do_connect c =>
    obtain ⟨⟨_, _, hclient, _⟩, hspec⟩ := do_connect_spec h
    have hviews : Views s s' c ((s.client c).wsi, .STATE_CONNECTING, (s.client c).stopped) := by
      intro d
      rw [hclient]
      split <;> rfl
    rcases hspec with ⟨rfl, hlws⟩ | ⟨error, destroyed, rfl, hlws⟩
    · exact .connect (hlws ▸ .refl _) hviews
    · refine .refuse hlws hviews ?_
      cases error <;> cases destroyed <;> simp [Frame.returns]
  | connection_error c msg =>
    simp only [Sys.svc, Option.some.injEq, Prod.mk.injEq] at h
    obtain ⟨rfl, rfl⟩ := h
    obtain ⟨_, stopped, _, hc, hstop, hkept⟩ := connection_error_client (s.client c) msg
    refine .report (by simp [Frame.retries]) rfl (s.lws.sameLinks_performs _)
      (Views.act (by rw [hc]; rfl)) (.inl rfl) hstop hkept ?_
    split
    · exact .inl rfl
    · exact .inr rfl
  | wsi_destroy c w =>
    cases h
    obtain ⟨stopped, _, hc, hstop, hkept⟩ := wsi_destroy_client (s.client c) w
    refine .report (by simp [Frame.retries]) rfl (.refl _) (Views.act (by rw [hc]; rfl)) ?_ hstop
      hkept (.inl rfl)
    split
    · exact .inl rfl
    · exact .inr rfl
  | connect_return c wsi =>
    cases h
    exact .store (.refl _) (Views.act rfl)
  | schedule_reconnect c =>
    simp only [Sys.svc, Option.some.injEq, Prod.mk.injEq] at h
    obtain ⟨rfl, rfl⟩ := h
    refine .still (.refl _) (fun _ => rfl) (by simp [Frame.returns]) ?_
    split <;> simp [Frame.returns]
  | schedule_arm c =>
    cases h
    obtain ⟨_, state, _, hc, hstate⟩ := schedule_reconnect_client (s.client c) a.ret
    exact .idle (s.lws.sameLinks_performs _) rfl (Views.act (by rw [hc]; rfl)) hstate (by simp)
  | has_data_check c w =>
    simp only [Sys.svc, Option.some.injEq, Prod.mk.injEq] at h
    obtain ⟨rfl, rfl⟩ := h
    refine .still (.refl _) (fun _ => rfl) (by simp [Frame.returns]) ?_
    split <;> simp [Frame.returns]
  | lws_callback_on_writable c w =>
    cases h
    exact .still (s.lws.sameLinks_performs _) (Sys.act_view rfl) (by simp [Frame.returns]) (by simp)
  | write c w n more =>
    have hlinks := s.lws.sameLinks_performs (writeable_write n w)
    have hview := Sys.act_view (s := s) (c := c) (r := (s.client c, writeable_write n w)) rfl
    simp only [Sys.svc] at h
    split at h
    · cases h
      exact .still (hlinks.trans (lws_context.sameLinks_fail _ w)) hview (by simp [Frame.returns])
        (by simp)
    · simp only [Option.some.injEq, Prod.mk.injEq] at h
      obtain ⟨rfl, rfl⟩ := h
      refine .still hlinks hview (by simp [Frame.returns]) ?_
      split <;> simp [Frame.returns]
  | event_wait_cancelled | wc_snapshot =>
    cases h
    exact .still (.refl _) (fun _ => rfl) (by simp [Frame.returns]) (by simp [Frame.returns])
  | wc_connect pend =>
    cases pend with
    | nil =>
      cases h
      exact .still (.refl _) (fun _ => rfl) (by simp [Frame.returns]) (by simp [Frame.returns])
    | cons c pend =>
      cases h
      exact .idle (.refl _) rfl (Views.act rfl) (by simp) (by simp [Frame.returns])
  | wc_visit snap =>
    cases snap with
    | nil =>
      cases h
      exact .still (.refl _) (fun _ => rfl) (by simp [Frame.returns]) (by simp)
    | cons c snap =>
      simp only [Sys.svc] at h
      split at h
      · cases h
        exact .still (.refl _) (fun _ => rfl) (by simp [Frame.returns]) (by simp [Frame.returns])
      · split at h
        · cases h
          exact .still (s.lws.sameLinks_performs _) (Sys.act_view rfl) (by simp [Frame.returns])
            (by simp [Frame.returns])
        · split at h <;> cases h <;>
            exact .still (.refl _) (fun _ => rfl) (by simp [Frame.returns]) (by simp [Frame.returns])

theorem callback_relinks {c : ClientId} {w : WsiId} {a : Answer} {r : Reason} {s s' : Sys}
    {fs : List Frame} (h : s.callback c w a r = some (fs, s'))
    (huser : (s.lws.wsi w).any (fun i => i.user == c) = true)
    (henabled : s.lws.enables s.thread w r = true) : Relinks s s' none fs := by
  cases r with
  | CLIENT_ESTABLISHED =>
    have hlink := lws_context.link_of_phase huser
      (lws_context.phase_of_enables_ne henabled (by simp))
    cases h
    refine .establish ?_ hlink (lws_context.sameLinks_performs _ _) (Views.act rfl)
    simp only [lws_context.enables, Bool.and_eq_true, beq_iff_eq] at henabled
    exact henabled.1
  | CLIENT_RECEIVE chunk =>
    simp only [Sys.callback, Option.map_eq_some_iff, Prod.mk.injEq] at h
    obtain ⟨o, ho, rfl, rfl⟩ := h
    obtain ⟨frag, hc⟩ := receive_client ho
    have hview := Sys.act_view (s := s) (c := c) (r := (o.client, o.acts)) (by rw [hc]; rfl)
    have hlinks := s.lws.sameLinks_performs o.acts
    split
    · exact .still (hlinks.trans (lws_context.sameLinks_fail _ w)) hview (by simp) (by simp)
    · exact .still hlinks hview (by simp) (by simp)
  | CLIENT_WRITEABLE =>
    have htaken := s.lws.sameLinks_modify w (f := fun i => { i with writable := false })
      fun _ => ⟨rfl, rfl⟩
    simp only [Sys.callback] at h
    split at h
    · cases h
      exact .still (htaken.trans (lws_context.sameLinks_performs _ _)) (Sys.act_view rfl) (by simp)
        (by simp [Frame.returns])
    · split at h <;> cases h
      · exact .still htaken (fun _ => rfl) (by simp) (by simp)
      · exact .still htaken (Sys.act_view rfl) (by simp) (by simp [Frame.returns])
  | TIMER =>
    obtain ⟨send_ping, hc⟩ := timer_client (s.client c) w a.ret
    have hfired := s.lws.sameLinks_modify w (f := fun i => { i with timer := none })
      fun _ => ⟨rfl, rfl⟩
    have hlinks := hfired.trans (lws_context.sameLinks_performs _ (timer (s.client c) w a.ret).acts)
    simp only [Sys.callback, Option.some.injEq, Prod.mk.injEq] at h
    obtain ⟨rfl, rfl⟩ := h
    have hview := Sys.act_view (s := s.setLws (s.lws.modify w fun i => { i with timer := none }))
      (c := c) (r := ((timer (s.client c) w a.ret).client, (timer (s.client c) w a.ret).acts))
      (by rw [hc]; rfl)
    split
    · exact .still (hlinks.trans (lws_context.sameLinks_fail _ w)) hview (by simp) (by simp)
    · exact .still hlinks hview (by simp) (by simp)
  | CLIENT_RECEIVE_PONG | CLIENT_APPEND_HANDSHAKE_HEADER =>
    cases h
    exact .still (s.lws.sameLinks_performs _) (Sys.act_view rfl) (by simp) (by simp)
  | CLIENT_CONNECTION_ERROR msg =>
    have hlink := lws_context.link_of_phase huser
      (lws_context.phase_of_enables_ne henabled (by simp))
    simp only [Sys.callback, Option.some.injEq, Prod.mk.injEq] at h
    obtain ⟨rfl, rfl⟩ := h
    obtain ⟨_, stopped, _, hc, hstop, hkept⟩ := connection_error_client (s.client c) msg
    refine .close hlink (by simp [Reason.phase]) (lws_context.sameLinks_performs _ _)
      (Views.act (by rw [hc]; rfl)) (fun hstate => ⟨rfl, hstate⟩) hstop hkept ?_
    split
    · exact .inl rfl
    · exact .inr rfl
  | CLIENT_CLOSED =>
    have hlink := lws_context.link_of_phase huser
      (lws_context.phase_of_enables_ne henabled (by simp))
    simp only [Sys.callback, Option.some.injEq, Prod.mk.injEq] at h
    obtain ⟨rfl, rfl⟩ := h
    obtain ⟨_, stopped, _, hc, hstop, hkept⟩ := closed_client (s.client c)
    refine .close hlink (by simp [Reason.phase]) (lws_context.sameLinks_performs _ _)
      (Views.act (by rw [hc]; rfl)) (fun hstate => by cases hstate) hstop hkept ?_
    split
    · exact .inl rfl
    · exact .inr rfl
  | WSI_DESTROY =>
    cases h
    obtain ⟨stopped, _, hc, hstop, hkept⟩ := wsi_destroy_client (s.client c) w
    have hused := huser
    rw [Option.any_eq_true] at hused
    obtain ⟨i, hi, _⟩ := hused
    have hlink : s.lws.link w = some (c, i.phase) :=
      lws_context.link_of_phase huser (by simp [lws_context.phase, hi])
    refine .remove hlink (fun hrun => ?_) (.refl _) (Views.act (by rw [hc]; rfl)) hstop hkept
    simpa [lws_context.enables, hrun, lws_context.phase, hi] using henabled

theorem deliver_relinks {e : Event} {s s' : Sys} {fs : List Frame}
    (h : s.deliver e = some (fs, s')) : Relinks s s' none fs := by
  cases e with
  | callback c w r a =>
    simp only [Sys.deliver, Option.ite_none_right_eq_some, Bool.and_eq_true] at h
    exact callback_relinks h.2 h.1.1 h.1.2
  | event_wait_cancelled wsi =>
    simp only [Sys.deliver, Option.ite_none_right_eq_some, Option.some.injEq, Prod.mk.injEq] at h
    obtain ⟨_, rfl, rfl⟩ := h
    refine .still ⟨rfl, fun _ => rfl⟩ (fun _ => rfl) (by simp) ?_
    split <;> simp [Frame.returns]
  | sul_reconnect_cb c =>
    simp only [Sys.deliver, Option.ite_none_right_eq_some, Option.some.injEq, Prod.mk.injEq] at h
    obtain ⟨_, rfl, rfl⟩ := h
    refine .still (.refl _) (Sys.act_view rfl) (by simp) ?_
    split <;> simp [Frame.returns]
  | service_thread | exit =>
    simp only [Sys.deliver, Option.ite_none_right_eq_some, Option.some.injEq, Prod.mk.injEq] at h
    obtain ⟨_, rfl, rfl⟩ := h
    exact .still (.refl _) (fun _ => rfl) (by simp) (by simp)
  | context_destroyed =>
    simp only [Sys.deliver, Option.ite_none_right_eq_some, Option.some.injEq, Prod.mk.injEq] at h
    obtain ⟨⟨_, hall⟩, rfl, rfl⟩ := h
    refine .finish (fun w hw => ?_) rfl (fun _ => rfl) rfl
    rw [List.all_eq_true] at hall
    simpa [lws_context.link] using hall w (List.mem_range.mpr hw)

/-- Only ids below `next` are in use. -/
theorem Relinks.bounded {s s' : Sys} {top : Option Frame} {fs : List Frame}
    (h : Relinks s s' top fs) (hb : s.lws.Bounded) : s'.lws.Bounded := by
  cases h with
  | still hlinks _ _ _ | report _ _ hlinks _ _ _ _ _ | store hlinks _ | idle hlinks _ _ _ _ =>
    exact hlinks.bounded hb
  | establish _ _ hlinks _ => exact hlinks.bounded (hb.setPhase _ _)
  | close _ _ hlinks _ _ _ _ _ => exact hlinks.bounded (hb.setPhase _ _)
  | remove _ _ hlinks _ _ _ => exact hlinks.bounded (hb.remove _)
  | connect hlinks _ => exact hlinks.bounded (hb.connect _)
  | refuse hlws _ _ =>
    rw [hlws]
    exact hb.skip
  | finish _ hlws _ _ =>
    rw [hlws]
    exact .destroy _

theorem bounded_step {cfg cfg' : Config} {l : Label} (hmove : system.Moves cfg l cfg')
    (h : cfg.shared.lws.Bounded) : cfg'.shared.lws.Bounded := by
  cases hmove with
  | event hdeliver => exact (deliver_relinks hdeliver).bounded h
  | svc hsvc => exact (svc_relinks hsvc).bounded h
  | call _ _ => exact h
  | app htop happ =>
    cases app_registers happ with
    | same hcalls _ _ | clear hcalls _ _ => exact hcalls.sameLinks.bounded h
    | add hlws _ _ _ =>
      dsimp only
      rwa [hlws]
    | start hlws _ _ =>
      dsimp only
      rw [hlws]
      exact .destroy _

/-- When the adds of a client do not overlap it has at most one place, and none
    before it is registered. -/
theorem seats_step {cfg cfg' : Config} {l : Label} {d : ClientId}
    (hmove : system.Moves cfg l cfg') (hb : cfg.shared.lws.Bounded) (hok : AddedOnce d cfg l) :
    seats d cfg'.svc cfg'.shared + (cfg.shared.client d).pool.toNat ≤
      seats d cfg.svc cfg.shared + (cfg'.shared.client d).pool.toNat := by
  cases hmove with
  | event hdeliver =>
    have hpool := (deliver_served hdeliver).1.joined d
    have hle := deliver_seats (d := d) hdeliver hb
    dsimp only at hle ⊢
    rw [hpool]
    omega
  | @svc f a s s' app rest fs hsvc =>
    have hpool := (svc_served hsvc).1.joined d
    have hle := svc_seats d rest hsvc hb
    dsimp only at hle ⊢
    rw [List.singleton_append] at hle
    rw [hpool]
    omega
  | call _ _ => exact Nat.le_refl _
  | app htop happ => exact app_seats happ fun hadd => hok ⟨_, hadd ▸ htop⟩

/-- What holds of the connections of client `d` and what it remembers of them. -/
structure Joined (d : ClientId) (svc : List Frame) (s : Sys) : Prop where
  bounded : s.lws.Bounded
  connected : s.thread = .running → (s.client d).state = .STATE_CONNECTED →
    ∃ w, (s.client d).wsi = some w ∧ s.lws.link w = some (d, .established)
  stored : ∀ w, s.lws.owns d w = true →
    (s.client d).wsi = some w ∨ .connect_return d (some w) ∈ svc
  returning : ∀ w, .connect_return d (some w) ∈ svc → s.lws.link w = some (d, .connecting)
  owned : ∀ w, (s.client d).wsi = some w → s.lws.owns d w = true

/-- A client that is connected is so on another connection than one that is not
    its own or not established. -/
theorem Joined.connected_elsewhere {svc : List Frame} {s : Sys} {c d : ClientId} {w : WsiId}
    {p : WsiPhase} (h : Joined d svc s) (hrun : s.thread = .running)
    (hstate : (s.client d).state = .STATE_CONNECTED) (hlink : s.lws.link w = some (c, p))
    (hne : d = c → p ≠ .established) :
    ∃ v, v ≠ w ∧ (s.client d).wsi = some v ∧ s.lws.link v = some (d, .established) := by
  obtain ⟨v, hv, hestablished⟩ := h.connected hrun hstate
  refine ⟨v, ?_, hv, hestablished⟩
  rintro rfl
  rw [hlink] at hestablished
  obtain ⟨rfl, rfl⟩ : c = d ∧ p = .established := by simpa using hestablished
  exact hne rfl rfl

/-- A client with a place other than a connection has no connection. -/
theorem Joined.no_wsi {svc : List Frame} {s : Sys} {d : ClientId} (h : Joined d svc s)
    (hlives : s.lws.lives d = 0) : (s.client d).wsi = none ∧ ∀ w, s.lws.owns d w = false := by
  have hnone : ∀ w, s.lws.owns d w = false := fun w => by simpa using h.bounded.not_owns hlives w
  refine ⟨?_, hnone⟩
  cases hwsi : (s.client d).wsi with
  | none => rfl
  | some w =>
    have howns := h.owned w hwsi
    rw [hnone w] at howns
    cases howns

theorem lives_of_retries {d : ClientId} {f : Frame} {rest : List Frame} {s : Sys}
    (hf : f.retries d = true) (hone : seats d (f :: rest) s ≤ 1) : s.lws.lives d = 0 := by
  have hretrying : s.retrying d (f :: rest) = true := by
    simp [Sys.retrying, hf]
  simp only [seats, hretrying, Bool.toNat_true] at hone
  omega

theorem lives_le_seats {d : ClientId} {svc : List Frame} {s : Sys} :
    s.lws.lives d ≤ seats d svc s := by
  simp only [seats]
  omega

theorem Views.self {s s' : Sys} {c : ClientId} {wsi : Option WsiId} {state : client_state_t}
    {stopped : Bool} (h : Views s s' c (wsi, state, stopped)) :
    (s'.client c).wsi = wsi ∧ (s'.client c).state = state ∧ (s'.client c).stopped = stopped := by
  have hc := h c
  rw [if_pos rfl] at hc
  simpa [wsp_client.view] using hc

theorem wsp_client.view_eq {c c' : wsp_client} (h : c'.view = c.view) :
    c'.wsi = c.wsi ∧ c'.state = c.state ∧ c'.stopped = c.stopped := by
  simpa [wsp_client.view] using h

theorem Views.other {s s' : Sys} {c d : ClientId} {view : Option WsiId × client_state_t × Bool}
    (h : Views s s' c view) (hd : d ≠ c) :
    (s'.client d).wsi = (s.client d).wsi ∧ (s'.client d).state = (s.client d).state ∧
      (s'.client d).stopped = (s.client d).stopped := by
  have hother := h d
  rw [if_neg hd] at hother
  exact wsp_client.view_eq hother

/-- A client that keeps its connection when it acts keeps it in every section. -/
theorem Views.wsi {s s' : Sys} {c : ClientId} {state : client_state_t} {stopped : Bool}
    (h : Views s s' c ((s.client c).wsi, state, stopped)) (d : ClientId) :
    (s'.client d).wsi = (s.client d).wsi := by
  by_cases hd : d = c
  · subst hd
    exact h.self.1
  · exact (h.other hd).1

variable {s s' : Sys} {svc svc' : List Frame} {c d : ClientId}

/-- The connections stay as they are, and the client remembers as much of them. -/
theorem Joined.same (h : Joined d svc s) (hb : s'.lws.Bounded)
    (hlink : ∀ w, s'.lws.link w = s.lws.link w) (hwsi : (s'.client d).wsi = (s.client d).wsi)
    (hconn : s'.thread = .running → (s'.client d).state = .STATE_CONNECTED →
      s.thread = .running ∧ (s.client d).state = .STATE_CONNECTED)
    (hsvc : ∀ w, .connect_return d (some w) ∈ svc' ↔ .connect_return d (some w) ∈ svc) :
    Joined d svc' s' := by
  refine ⟨hb, fun hrun hstate => ?_, fun w howns => ?_, fun w hf => ?_, fun w hw => ?_⟩
  · obtain ⟨hrun, hstate⟩ := hconn hrun hstate
    obtain ⟨w, hw, hestablished⟩ := h.connected hrun hstate
    exact ⟨w, hwsi.trans hw, (hlink w).trans hestablished⟩
  · rw [hwsi, hsvc]
    exact h.stored w (lws_context.owns_congr (hlink w) d ▸ howns)
  · rw [hlink]
    exact h.returning w ((hsvc w).mp hf)
  · rw [lws_context.owns_congr (hlink w)]
    exact h.owned w (hwsi ▸ hw)

/-- One client changes its state and keeps its connection. -/
theorem Joined.idle (h : Joined d svc s) (hb : s'.lws.Bounded)
    (hlink : ∀ w, s'.lws.link w = s.lws.link w) {wsi : Option WsiId} {state : client_state_t}
    {stopped : Bool} (hviews : Views s s' c (wsi, state, stopped))
    (hwsi : d = c → wsi = (s.client c).wsi)
    (hstate : state = .STATE_CONNECTED → (s.client c).state = .STATE_CONNECTED)
    (hwas : s'.thread = .running → (s.client d).state = .STATE_CONNECTED → s.thread = .running)
    (hsvc : ∀ w, .connect_return d (some w) ∈ svc' ↔ .connect_return d (some w) ∈ svc) :
    Joined d svc' s' := by
  refine h.same hb hlink ?_ (fun hrun hconn => ?_) hsvc
  · by_cases hd : d = c
    · subst hd
      exact hviews.self.1.trans (hwsi rfl)
    · exact (hviews.other hd).1
  · have hbefore : (s.client d).state = .STATE_CONNECTED := by
      by_cases hd : d = c
      · subst hd
        exact hstate (hviews.self.2.1 ▸ hconn)
      · exact (hviews.other hd).2.1 ▸ hconn
    exact ⟨hwas hrun hbefore, hbefore⟩

/-- A handshake completes. -/
theorem Joined.establish (h : Joined d [] s) {w : WsiId} (hrun : s.thread = .running)
    (hlink : s.lws.link w = some (c, .connecting))
    (hlinks : (s.lws.setPhase w .established).SameLinks s'.lws)
    (hviews : Views s s' c ((s.client c).wsi, .STATE_CONNECTED, (s.client c).stopped)) :
    Joined d [] s' := by
  have hnew : s'.lws.link w = some (c, .established) := by
    rw [hlinks.link, lws_context.link_setPhase, if_pos rfl, hlink]
    rfl
  have hold : ∀ v, v ≠ w → s'.lws.link v = s.lws.link v := by
    intro v hv
    rw [hlinks.link, lws_context.link_setPhase, if_neg hv]
  have howns' : ∀ v, s'.lws.owns d v = s.lws.owns d v := fun v =>
    (hlinks.owns d v).trans (lws_context.owns_establish hlink d v)
  refine ⟨hlinks.bounded (h.bounded.setPhase _ _), fun _ hconn => ?_, fun v hv => ?_,
    fun v hf => (by cases hf), fun v hv => ?_⟩
  · by_cases hd : d = c
    · subst hd
      have howns : s.lws.owns d w = true := lws_context.owns_eq_true.mpr ⟨_, hlink, by decide⟩
      exact ⟨w, hviews.self.1.trans ((h.stored w howns).resolve_right (by simp)), hnew⟩
    · rw [(hviews.other hd).2.1] at hconn
      obtain ⟨v, hv, hlinkv⟩ := h.connected hrun hconn
      have hvw : v ≠ w := by
        rintro rfl
        rw [hlink] at hlinkv
        exact hd (by simpa using (congrArg (Option.map Prod.fst) hlinkv).symm)
      exact ⟨v, (hviews.wsi d).trans hv, (hold v hvw).trans hlinkv⟩
  · rw [hviews.wsi]
    exact h.stored v (howns' v ▸ hv)
  · rw [howns']
    exact h.owned v (hviews.wsi d ▸ hv)

/-- A connection is forgotten: its phase becomes closed, or it is removed. The
    client that remembers it forgets it too. -/
theorem Joined.forget (h : Joined d [] s) (hb : s'.lws.Bounded) {w : WsiId} {p : WsiPhase}
    (hlink : s.lws.link w = some (c, p)) (hnew : s'.lws.owns d w = false)
    (hold : ∀ v, v ≠ w → s'.lws.link v = s.lws.link v)
    (hfs : ∀ w, Frame.connect_return d (some w) ∉ svc')
    (hself : d = c →
      (s'.client d).wsi = if (s.client d).wsi = some w then none else (s.client d).wsi)
    (hother : d ≠ c → (s'.client d).wsi = (s.client d).wsi)
    (hconn : s'.thread = .running → (s'.client d).state = .STATE_CONNECTED →
      ∃ v, v ≠ w ∧ (s.client d).wsi = some v ∧ s.lws.link v = some (d, .established)) :
    Joined d svc' s' := by
  have hkept : ∀ v, v ≠ w → ((s'.client d).wsi = some v ↔ (s.client d).wsi = some v) := by
    intro v hv
    by_cases hd : d = c
    · rw [hself hd]
      split
      · next hw => simp [hw, Ne.symm hv]
      · rfl
    · rw [hother hd]
  refine ⟨hb, fun hrun hstate => ?_, fun v howns => ?_, fun v hf => absurd hf (hfs v),
    fun v hwsi => ?_⟩
  · obtain ⟨v, hv, hwsi, hestablished⟩ := hconn hrun hstate
    exact ⟨v, (hkept v hv).mpr hwsi, (hold v hv).trans hestablished⟩
  · have hv : v ≠ w := by
      rintro rfl
      rw [hnew] at howns
      cases howns
    rw [lws_context.owns_congr (hold v hv)] at howns
    exact .inl ((hkept v hv).mpr ((h.stored v howns).resolve_right (by simp)))
  · have hv : v ≠ w := by
      rintro rfl
      by_cases hd : d = c
      · rw [hself hd] at hwsi
        split at hwsi
        · cases hwsi
        · next hne => exact hne hwsi
      · rw [hother hd] at hwsi
        obtain ⟨q, hlink', _⟩ := lws_context.owns_eq_true.mp (h.owned v hwsi)
        rw [hlink] at hlink'
        exact hd (by simpa using (congrArg (Option.map Prod.fst) hlink').symm)
    rw [lws_context.owns_congr (hold v hv)]
    exact h.owned v ((hkept v hv).mp hwsi)

/-- A connect call has made its connection and will store it. -/
theorem Joined.connect {rest : List Frame} (h : Joined d (.do_connect c :: rest) s)
    (hlinks : (s.lws.connect c).SameLinks s'.lws)
    (hviews : Views s s' c ((s.client c).wsi, .STATE_CONNECTING, (s.client c).stopped))
    (hwas : s'.thread = .running → (s.client d).state = .STATE_CONNECTED → s.thread = .running) :
    Joined d (.connect_return c (some s.lws.next) :: rest) s' := by
  have hnew : s'.lws.link s.lws.next = some (c, .connecting) := by
    rw [hlinks.link, lws_context.link_connect, if_pos rfl]
  have hold : ∀ v, v ≠ s.lws.next → s'.lws.link v = s.lws.link v := by
    intro v hv
    rw [hlinks.link, lws_context.link_connect, if_neg hv]
  have hused : ∀ {v l}, s.lws.link v = some l → v ≠ s.lws.next := fun hl =>
    Nat.ne_of_lt (h.bounded.lt hl)
  refine ⟨hlinks.bounded (h.bounded.connect _), fun hrun hconn => ?_, fun v howns => ?_,
    fun v hf => ?_, fun v hv => ?_⟩
  · by_cases hd : d = c
    · subst hd
      rw [hviews.self.2.1] at hconn
      cases hconn
    · rw [(hviews.other hd).2.1] at hconn
      obtain ⟨v, hv, hlink⟩ := h.connected (hwas hrun hconn) hconn
      exact ⟨v, (hviews.wsi d).trans hv, (hold v (hused hlink)).trans hlink⟩
  · by_cases hv : v = s.lws.next
    · subst hv
      obtain ⟨p, hlink, _⟩ := lws_context.owns_eq_true.mp howns
      rw [hnew] at hlink
      simp only [Option.some.injEq, Prod.mk.injEq] at hlink
      rw [hlink.1]
      exact .inr (by simp)
    · rw [lws_context.owns_congr (hold v hv)] at howns
      rcases h.stored v howns with hwsi | hf
      · exact .inl ((hviews.wsi d).trans hwsi)
      · exact .inr (List.mem_cons_of_mem _ (by simpa using hf))
  · rcases List.mem_cons.mp hf with hf | hf
    · simp only [Frame.connect_return.injEq, Option.some.injEq] at hf
      obtain ⟨rfl, rfl⟩ := hf
      exact hnew
    · have hlink := h.returning v (by simp [hf])
      exact (hold v (hused hlink)).trans hlink
  · have howns := h.owned v ((hviews.wsi d).symm.trans hv)
    obtain ⟨p, hlink, _⟩ := lws_context.owns_eq_true.mp howns
    rwa [lws_context.owns_congr (hold v (hused hlink))]

/-- The connection a connect call returned is stored. -/
theorem Joined.store {rest : List Frame} {w : WsiId}
    (h : Joined d (.connect_return c (some w) :: rest) s) (hone : s.lws.lives d ≤ 1)
    (hlinks : s.lws.SameLinks s'.lws)
    (hviews : Views s s' c (some w, (s.client c).state, (s.client c).stopped))
    (hwas : s'.thread = .running → (s.client d).state = .STATE_CONNECTED → s.thread = .running) :
    Joined d rest s' := by
  have hown : d = c → s.lws.link w = some (c, .connecting) ∧ s.lws.owns d w = true ∧
      ∀ v, s.lws.owns d v = true → v = w := by
    rintro rfl
    have hlink := h.returning w (by simp)
    have howns : s.lws.owns d w = true := lws_context.owns_eq_true.mpr ⟨_, hlink, by decide⟩
    exact ⟨hlink, howns, fun v hv => h.bounded.unique hone hv howns⟩
  refine ⟨hlinks.bounded h.bounded, fun hrun hconn => ?_, fun v hv => ?_, fun v hf => ?_,
    fun v hv => ?_⟩
  · by_cases hd : d = c
    · subst hd
      obtain ⟨hlink, _, honly⟩ := hown rfl
      -- The connection is still connecting, so the client is not connected.
      rw [hviews.self.2.1] at hconn
      obtain ⟨v, _, hestablished⟩ := h.connected (hwas hrun hconn) hconn
      have hv := honly v (lws_context.owns_eq_true.mpr ⟨_, hestablished, by decide⟩)
      subst hv
      rw [hlink] at hestablished
      cases hestablished
    · rw [(hviews.other hd).2.1] at hconn
      obtain ⟨v, hv, hestablished⟩ := h.connected (hwas hrun hconn) hconn
      exact ⟨v, (hviews.other hd).1.trans hv, (hlinks.link v).trans hestablished⟩
  · rw [hlinks.owns] at hv
    by_cases hd : d = c
    · subst hd
      rw [(hown rfl).2.2 v hv]
      exact .inl hviews.self.1
    · rw [(hviews.other hd).1]
      rcases h.stored v hv with hwsi | hf
      · exact .inl hwsi
      · exact .inr (by simpa [hd] using hf)
  · rw [hlinks.link]
    exact h.returning v (by simp [hf])
  · rw [hlinks.owns]
    by_cases hd : d = c
    · subst hd
      rw [hviews.self.1, Option.some.injEq] at hv
      exact hv ▸ (hown rfl).2.1
    · exact h.owned v ((hviews.other hd).1 ▸ hv)

/-- Frames that return no connection make no difference. -/
theorem mem_returns {top fs rest : List Frame} (htop : ∀ f ∈ top, f.returns = false)
    (hfs : ∀ f ∈ fs, f.returns = false) (d : ClientId) (w : WsiId) :
    .connect_return d (some w) ∈ fs ++ rest ↔ .connect_return d (some w) ∈ top ++ rest := by
  have hnot : ∀ {gs : List Frame}, (∀ f ∈ gs, f.returns = false) →
      .connect_return d (some w) ∉ gs := fun hgs hmem => by cases hgs _ hmem
  simp [hnot htop, hnot hfs]

/-- A section of the service thread keeps a client joined with its connections. -/
theorem Joined.relinks (top : Option Frame) (rest : List Frame) {fs : List Frame}
    (h : Joined d (top.toList ++ rest) s) (hone : seats d (top.toList ++ rest) s ≤ 1)
    (hrel : Relinks s s' top fs) (hevent : top = none → rest = [])
    (hthread : s'.thread = .running →
      s.thread = .running ∨ (s.client d).state ≠ .STATE_CONNECTED) :
    Joined d (fs ++ rest) s' := by
  have hwas : s'.thread = .running → (s.client d).state = .STATE_CONNECTED →
      s.thread = .running := fun hrun hstate =>
    (hthread hrun).resolve_right fun hnot => hnot hstate
  have hb' := hrel.bounded h.bounded
  cases hrel with
  | still hlinks hview htop hfs =>
    refine h.same hb' hlinks.link (wsp_client.view_eq (hview d)).1 (fun hrun hstate => ?_)
      fun w => mem_returns (by simpa using htop) hfs d w
    rw [(wsp_client.view_eq (hview d)).2.1] at hstate
    exact ⟨hwas hrun hstate, hstate⟩
  | establish hrun hlink hlinks hviews =>
    obtain rfl := hevent rfl
    exact Joined.establish h hrun hlink hlinks hviews
  | @close c w p state stopped fs hlink hp hlinks hviews hstate _ _ hfs =>
    obtain rfl := hevent rfl
    have hold : ∀ v, v ≠ w → s'.lws.link v = s.lws.link v := fun v hv => by
      rw [hlinks.link, lws_context.link_setPhase, if_neg hv]
    refine Joined.forget h hb' hlink ?_ hold (fun v => ?_) (fun hd => ?_)
      (fun hd => (hviews.other hd).1) fun hrun hconn => ?_
    · rw [lws_context.owns, hlinks.link, lws_context.link_setPhase, if_pos rfl, hlink]
      simp
    · rcases hfs with rfl | rfl <;> simp
    · subst hd
      have howns : s.lws.owns d w = true := lws_context.owns_eq_true.mpr ⟨p, hlink, hp⟩
      rw [hviews.self.1, if_pos ((h.stored w howns).resolve_right (by simp))]
    · by_cases hd : d = c
      · subst hd
        obtain ⟨rfl, hbefore⟩ := hstate (hviews.self.2.1 ▸ hconn)
        exact h.connected_elsewhere (hwas hrun hbefore) hbefore hlink fun _ => by simp
      · rw [(hviews.other hd).2.1] at hconn
        exact h.connected_elsewhere (hwas hrun hconn) hconn hlink fun heq => absurd heq hd
  | @remove c w p stopped hlink hclosed hlinks hviews _ _ =>
    obtain rfl := hevent rfl
    have hold : ∀ v, v ≠ w → s'.lws.link v = s.lws.link v := fun v hv => by
      rw [hlinks.link, lws_context.link_remove, if_neg hv]
    refine Joined.forget h hb' hlink ?_ hold (fun v => by simp) (fun hd => ?_)
      (fun hd => (hviews.other hd).1) fun hrun hconn => ?_
    · rw [lws_context.owns, hlinks.link, lws_context.link_remove, if_pos rfl]
      rfl
    · subst hd
      exact hviews.self.1
    · have hbefore : (s.client d).state = .STATE_CONNECTED := by
        by_cases hd : d = c
        · subst hd
          exact hviews.self.2.1 ▸ hconn
        · exact (hviews.other hd).2.1 ▸ hconn
      exact h.connected_elsewhere (hwas hrun hbefore) hbefore hlink fun _ => by
        simp [hclosed (hwas hrun hbefore)]
  | @report f c w stopped fs hf hreturns hlinks hviews hw _ _ hfs =>
    refine h.idle hb' hlinks.link hviews (fun hd => ?_) id hwas fun v => ?_
    · subst hd
      rcases hw with rfl | rfl
      · exact (h.no_wsi (lives_of_retries hf hone)).1.symm
      · rfl
    · refine mem_returns (by simpa using hreturns) ?_ d v
      rcases hfs with rfl | rfl <;> simp [Frame.returns]
  | @connect c hlinks hviews =>
    exact Joined.connect h hlinks hviews hwas
  | @refuse c fs hlws hviews hfs =>
    exact h.idle hb' (fun w => by rw [hlws]; rfl) hviews (fun _ => rfl) (fun hstate => by cases hstate)
      hwas fun v => mem_returns (by simp [Frame.returns]) hfs d v
  | @store c wsi hlinks hviews =>
    cases wsi with
    | none =>
      refine h.idle hb' hlinks.link hviews (fun hd => ?_) id hwas fun v =>
        mem_returns (by simp [Frame.returns]) (by simp [Frame.returns]) d v
      subst hd
      exact (h.no_wsi (lives_of_retries (by simp [Frame.retries]) hone)).1.symm
    | some w => exact Joined.store h (Nat.le_trans lives_le_seats hone) hlinks hviews hwas
  | idle hlinks hf hviews hstate hfs =>
    exact h.idle hb' hlinks.link hviews (fun _ => rfl) (fun heq => absurd heq hstate) hwas fun v =>
      mem_returns (by simpa using hf) hfs d v
  | finish hgone hlws hview hexited =>
    obtain rfl := hevent rfl
    have hnone : ∀ w, s.lws.link w = none := by
      intro w
      by_cases hw : w < s.lws.next
      · exact hgone w hw
      · rw [lws_context.link, h.bounded w (Nat.le_of_not_lt hw)]
        rfl
    refine h.same hb' (fun w => ?_) (wsp_client.view_eq (hview d)).1 (fun hrun => ?_)
      fun _ => Iff.rfl
    · rw [hlws, hnone w]
      rfl
    · rw [hexited] at hrun
      cases hrun

/-- Client `d` is joined with its connections, has at most one place and none
    before it is registered, and a thread that does not run yet has connected
    nothing. -/
structure Linked (d : ClientId) (cfg : Config) : Prop where
  joined : Joined d cfg.svc cfg.shared
  seats : ws_pool.seats d cfg.svc cfg.shared ≤ (cfg.shared.client d).pool.toNat
  dormant : cfg.shared.thread = .none ∨ cfg.shared.thread = .created →
    (∀ w, cfg.shared.lws.link w = none) ∧ (cfg.shared.client d).state ≠ .STATE_CONNECTED

theorem Linked.one {cfg : Config} (h : Linked d cfg) :
    ws_pool.seats d cfg.svc cfg.shared ≤ 1 :=
  Nat.le_trans h.seats (Bool.toNat_le _)

/-- After an event the thread runs, or has run. -/
theorem deliver_ran {e : Event} {s s' : Sys} {fs : List Frame} (h : s.deliver e = some (fs, s')) :
    ¬ (s'.thread = .none ∨ s'.thread = .created) := by
  cases e with
  | callback c w r a =>
    simp only [Sys.deliver, Option.ite_none_right_eq_some, Bool.and_eq_true] at h
    obtain ⟨⟨_, henabled⟩, h⟩ := h
    rw [(callback_served h).2]
    cases r <;> simp [lws_context.enables] at henabled <;> rintro (hthread | hthread) <;>
      simp [hthread] at henabled
  | event_wait_cancelled _ | sul_reconnect_cb _ =>
    simp only [Sys.deliver, Option.ite_none_right_eq_some, Option.some.injEq, Prod.mk.injEq] at h
    obtain ⟨⟨hrun, _⟩, _, rfl⟩ := h
    change ¬ (s.thread = .none ∨ s.thread = .created)
    simp [hrun]
  | service_thread | exit | context_destroyed =>
    simp only [Sys.deliver, Option.ite_none_right_eq_some, Option.some.injEq, Prod.mk.injEq] at h
    obtain ⟨_, _, rfl⟩ := h
    simp

/-- An API call changes no connection; a new context has none either. -/
theorem Linked.links {t : Nat} {f : AppFrame} {a : Answer} {s s' : Sys} {svc : List Frame}
    {app : Nat → List AppFrame} {rest fs : List AppFrame} (htop : app t = f :: rest)
    (happ : s.app f a = some (fs, s')) (hlife : Lifecycle ⟨s, svc, app⟩)
    (h : Linked d ⟨s, svc, app⟩) (w : WsiId) : s'.lws.link w = s.lws.link w := by
  cases app_registers happ with
  | same hcalls _ _ | clear hcalls _ _ => exact hcalls.sameLinks.link w
  | add hlws _ _ _ => rw [hlws]
  | start hlws _ _ =>
    rw [hlws, (h.dormant (.inl (hlife.none htop (.inl rfl)))).1 w]
    rfl

theorem Linked.app {t : Nat} {f : AppFrame} {a : Answer} {s s' : Sys} {svc : List Frame}
    {app : Nat → List AppFrame} {rest fs : List AppFrame} (htop : app t = f :: rest)
    (happ : s.app f a = some (fs, s')) (hlife : Lifecycle ⟨s, svc, app⟩)
    (h : Linked d ⟨s, svc, app⟩)
    (hseats : ws_pool.seats d svc s' ≤ (s'.client d).pool.toNat) :
    Linked d ⟨s', svc, Function.update app t (fs ++ rest)⟩ := by
  have hlink := h.links htop happ hlife
  have hb : s'.lws.Bounded := bounded_step (l := .app t a) (.app htop happ) h.joined.bounded
  have hthread := app_thread happ
  refine ⟨h.joined.same hb hlink (app_advance happ d).wsi (fun hrun hstate => ?_)
    fun _ => Iff.rfl, hseats, fun hthread' => ?_⟩
  · rw [(app_advance happ d).state] at hstate
    refine ⟨?_, hstate⟩
    rcases hthread with heq | ⟨_, heq⟩ | ⟨_, heq⟩
    · rwa [heq] at hrun
    · rw [heq] at hrun
      cases hrun
    · rw [heq] at hrun
      cases hrun
  · have hbefore : s.thread = .none ∨ s.thread = .created := by
      rcases hthread with heq | ⟨hf, _⟩ | ⟨_, heq⟩
      · rwa [← heq]
      · exact .inl (hlife.none htop (.inr hf))
      · dsimp only at hthread'
        rw [heq] at hthread'
        rcases hthread' with hthread' | hthread' <;> cases hthread'
    obtain ⟨hlinks, hstate⟩ := h.dormant hbefore
    refine ⟨fun w => (hlink w).trans (hlinks w), ?_⟩
    dsimp only
    rwa [(app_advance happ d).state]

theorem Linked.step {cfg cfg' : Config} {l : Label} (hmove : system.Moves cfg l cfg')
    (hlife : Lifecycle cfg) (hok : AddedOnce d cfg l) (h : Linked d cfg) : Linked d cfg' := by
  have hseats : ws_pool.seats d cfg'.svc cfg'.shared ≤ (cfg'.shared.client d).pool.toNat := by
    have hstep := seats_step (d := d) hmove h.joined.bounded hok
    have hbefore := h.seats
    omega
  cases hmove with
  | @event e s s' app fs hdeliver =>
    refine ⟨?_, hseats, fun hthread => absurd hthread (deliver_ran hdeliver)⟩
    have hjoined := Joined.relinks none [] h.joined h.one
      (deliver_relinks hdeliver) (fun _ => rfl) fun hrun => ?_
    · simpa using hjoined
    · cases (deliver_served hdeliver).2.1 with
      | stay heq => exact .inl (heq ▸ hrun)
      | run hcreated _ => exact .inr (h.dormant (.inr hcreated)).2
      | exit _ _ hexited | destroyed _ hexited =>
        rw [hexited] at hrun
        cases hrun
  | @svc f a s s' app rest fs hsvc =>
    have hthread := (svc_served hsvc).2
    refine ⟨?_, hseats, fun hbefore => ?_⟩
    · exact Joined.relinks (some f) rest h.joined h.one (svc_relinks hsvc) (by simp) fun hrun =>
        .inl (hthread ▸ hrun)
    · have hbusy := hlife.busy (by simp)
      dsimp only at hbefore hbusy
      rw [hthread] at hbefore
      rcases hbusy with hbusy | hbusy <;> rw [hbusy] at hbefore <;>
        rcases hbefore with hbefore | hbefore <;> cases hbefore
  | call _ _ => exact ⟨h.joined, h.seats, h.dormant⟩
  | app htop happ => exact Linked.app htop happ hlife h hseats

theorem initial_linked {client : ClientId → wsp_client} (hfresh : ∀ c, (client c).Fresh)
    (d : ClientId) : Linked d (initial client) := by
  refine ⟨⟨fun _ _ => rfl, fun hrun => (by cases hrun), fun w howns => ?_, fun w hf => ?_,
    fun w hwsi => ?_⟩, ?_, fun _ => ⟨fun _ => rfl, ?_⟩⟩
  · cases howns
  · cases hf
  · have hnone : (client d).wsi = some w := hwsi
    rw [(hfresh d).wsi] at hnone
    cases hnone
  · have hzero : ws_pool.seats d (initial client).svc (initial client).shared = 0 := by
      simp [ws_pool.seats, Sys.retrying, initial, wsp_pool_create, lws_context.lives, (hfresh d).sul]
    omega
  · change (client d).state ≠ .STATE_CONNECTED
    rw [(hfresh d).state]
    decide

/-- In every run in which adds of client `d` do not overlap. -/
theorem Reaches.linked {ok : Config → Label → Prop}
    (hadds : ∀ cfg l, ok cfg l → AddedOnce d cfg l) {client : ClientId → wsp_client}
    (hfresh : ∀ c, (client c).Fresh) {cfg : Config}
    (h : system.Reaches ok (initial client) cfg) : Linked d cfg :=
  h.invariant_under (fun _ hmid => Reaches.lifecycle hmid) (initial_linked hfresh d)
    fun _ _ _ hlife hok hmove => Linked.step hmove hlife (hadds _ _ hok)

end lws_client.ws_pool
