import LwsClientDemo.WsPool.Places
import LwsClientDemo.WsPool.Quiescent

open interleaving

namespace lws_client.ws_pool

/-- No two `wsp_pool_add` of client `d` overlap, and where `on_reconnect_decision`
    stops the client, its timer is not armed and no frame behind retries. -/
structure Heeds (d : ClientId) (cfg : Config) (l : Label) : Prop where
  once : AddedOnce d cfg l
  stops : refuses d cfg l = true →
    (cfg.shared.client d).sul = none ∧ ∀ f ∈ cfg.svc.tail, f.retries d = false

variable {d : ClientId} {cfg cfg' mid : Config} {l : Label}

theorem heeds_iff : Heeds d cfg l ↔ AddedOnce d cfg l ∧ (refuses d cfg l = true →
    (cfg.shared.client d).sul = none ∧ ∀ f ∈ cfg.svc.tail, f.retries d = false) :=
  ⟨fun h => ⟨h.once, h.stops⟩, fun h => ⟨h.1, h.2⟩⟩

instance (cfg : Config) (l : Label) : Decidable (Heeds d cfg l) :=
  decidable_of_iff' _ heeds_iff

theorem joined_kept (hmove : system.Moves cfg l cfg') (h : (cfg.shared.client d).pool = true) :
    (cfg'.shared.client d).pool = true := by
  cases hmove with
  | event hdeliver => exact ((deliver_served hdeliver).1.joined d).trans h
  | svc hsvc => exact ((svc_served hsvc).1.joined d).trans h
  | call _ _ => exact h
  | app _ happ => exact (app_advance happ d).joined h

/-- The negative answer takes the last place of the client. -/
theorem refused_seats (hmove : system.Moves cfg l mid) (hlinked : Linked d cfg) (hok : Heeds d cfg l)
    (hrefuses : refuses d cfg l = true) :
    seats d mid.svc mid.shared = 0 ∧ (mid.shared.client d).pool = true := by
  obtain ⟨hnosul, hbehind⟩ := hok.stops hrefuses
  cases hmove with
  | @svc f a s s' app rest fs hsvc =>
    simp only [refuses, List.head?_cons, Option.any_some, Bool.and_eq_true, decide_eq_true_eq]
      at hrefuses
    obtain ⟨⟨harms, hasks⟩, hneg⟩ := hrefuses
    cases f with
    | schedule_arm c =>
      obtain rfl : c = d := beq_iff_eq.mp harms
      have hstopped : (schedule_reconnect (s.client c) a.ret).1 =
          { s.client c with state := .STATE_STOPPED } := by
        rw [wsp_client.asks] at hasks
        simp [schedule_reconnect, hasks, hneg]
      cases hsvc
      have hpool := Bool.toNat_le (s.client c).pool
      have hseats := hlinked.seats
      have hbefore : s.retrying c (.schedule_arm c :: rest) = true := by
        simp [Sys.retrying, Frame.retries]
      have hafter : (s.act c (schedule_reconnect (s.client c) a.ret)).retrying c rest = false := by
        rw [Sys.retrying, Sys.act_client, if_pos rfl, hstopped]
        have hsul : (s.client c).sul = none := hnosul
        simpa [hsul] using hbehind
      have hlives := s.act_lives c (schedule_reconnect (s.client c) a.ret) c
      simp only [seats, hbefore, Bool.toNat_true, List.map_cons, List.sum_cons] at hseats
      refine ⟨?_, ?_⟩
      · simp only [List.nil_append, seats, hafter, hlives, Sys.act_pool, Bool.toNat_false]
        omega
      · rw [Sys.act_client, if_pos rfl, hstopped, ← Bool.toNat_eq_one]
        change (s.client c).pool.toNat = 1
        omega
    | _ => cases harms
  | event _ | call _ _ | app _ _ => cases hrefuses

/-- A client of the pool that has lost its last place never retries. -/
theorem seats_lost {client : ClientId → wsp_client} (hfresh : ∀ c, (client c).Fresh)
    (h : system.Reaches (AddedOnce d) (initial client) mid) (hseats : seats d mid.svc mid.shared = 0)
    (hjoined : (mid.shared.client d).pool = true) (hlater : system.Reaches (AddedOnce d) mid cfg') :
    retries (cfg'.shared.trace d) = retries (mid.shared.trace d) ∧
      (cfg'.shared.client d).sul = none := by
  have hstill : seats d cfg'.svc cfg'.shared = 0 ∧ (cfg'.shared.client d).pool = true ∧
      retries (cfg'.shared.trace d) = retries (mid.shared.trace d) := by
    refine hlater.invariant_under (I := fun next => seats d next.svc next.shared = 0 ∧
        (next.shared.client d).pool = true ∧
        retries (next.shared.trace d) = retries (mid.shared.trace d)) (J := Linked d)
      (fun next hnext => Reaches.linked (fun _ _ hok => hok) hfresh (h.trans hnext))
      ⟨hseats, hjoined, rfl⟩ fun next l last hlinked hok hmove ⟨hzero, hin, hsame⟩ => ?_
    have hstep := seats_step (d := d) hmove hlinked.joined.bounded hok
    have hin' := joined_kept hmove hin
    rw [hzero, hin, hin'] at hstep
    exact ⟨by omega, hin', ((Calm.of_seats hzero).retries hmove).trans hsame⟩
  exact ⟨hstill.2.2, (Calm.of_seats hstill.1).sul⟩

/-- After a negative answer of its hook a client is never connected, its hook is
    not asked and its timer is not armed. -/
theorem refused_final {client : ClientId → wsp_client} (hfresh : ∀ c, (client c).Fresh)
    (h : system.Reaches (Heeds d) (initial client) cfg) (hok : Heeds d cfg l)
    (hstep : system.step cfg l = some mid) (hrefuses : refuses d cfg l = true)
    (hlater : system.Reaches (Heeds d) mid cfg') :
    retries (cfg'.shared.trace d) = retries (mid.shared.trace d) ∧
      (cfg'.shared.client d).sul = none := by
  have honce : ∀ cfg l, Heeds d cfg l → AddedOnce d cfg l := fun _ _ hok => hok.once
  obtain ⟨hseats, hjoined⟩ :=
    refused_seats (System.step_moves hstep) (Reaches.linked honce hfresh h) hok hrefuses
  exact seats_lost hfresh ((h.mono honce).step hok.once hstep) hseats hjoined (hlater.mono honce)

/-- Client 0 loses its connection, up to the question to its hook. -/
def lost_question : List Label :=
  connected_run ++ [.event (.callback 0 0 .CLIENT_CLOSED {}), .svc {}]

/-- What may still happen to client 0: its connection is destroyed, and a
    message is sent. -/
def silent_run : List Label :=
  [.event (.callback 0 0 .WSI_DESTROY {}),
    .call 1 (.enqueue 0 (some { bytes := [104], length_le := one_byte }) false), .app 1 {},
    .app 1 {}, .app 1 {}, .app 1 {}]

/-- A connect call reports its failure by CONNECTION_ERROR, up to the question
    to the hook inside the call. -/
def nested_question : List Label :=
  first_attempt ++ [.svc { connect := .refused (some none) true }, .svc {}, .svc {}]

/-- The call returns NULL, the hook agrees to retry, and the timer fires. -/
def overruled_run : List Label :=
  List.replicate 8 (.svc {}) ++ [.event (.sul_reconnect_cb 0), .svc { connect := .accepted }]

end lws_client.ws_pool
