import LwsClientDemo.Reassembly
import LwsClientDemo.WsClient.Sections

open interleaving

namespace lws_client.ws_client

/-- No append of a RECEIVE fails. -/
def granted (cfg : Config) : Label → Prop
  | .event (.callback _ (.CLIENT_RECEIVE chunk) a) =>
    (receive cfg.shared.c chunk a.ok).any (fun o => o.ret == 0) = true
  | _ => True

instance (cfg : Config) (l : Label) : Decidable (granted cfg l) := by
  unfold granted
  split <;> infer_instance

/-- The chunks received in a run, over all its connections. -/
def received (ls : List Label) : List Chunk :=
  ls.filterMap fun
    | .event e => e.receives
    | _ => none

/-- With `realloc` answering, RECEIVE returns 0 as long as the message fits. -/
theorem receive_returns (c : wsld_client) (chunk : Chunk)
    (hfits : c.frag.len + chunk.data.bytes.length ≤ 2 ^ 62) :
    (receive c chunk true).any (fun o => o.ret == 0) = true := by
  unfold receive
  split
  · rfl
  · have hbase : (if chunk.is_first_fragment then c.frag.reset else c.frag).len +
        chunk.data.bytes.length ≤ 2 ^ 62 := by
      split
      · simp only [ws_frag_buf_t.reset]
        omega
      · exact hfits
    obtain ⟨f, hf⟩ := ws_frag_append_succeeds _ chunk.data hbase
    rw [hf]
    simp only [Option.map_some, Int.lt_irrefl, if_false, Option.any_some]
    split <;> rfl

section receive

variable {c : wsld_client} {chunk : Chunk} {ok : Bool} {o : Out wsld_client}

/-- What RECEIVE does with a chunk that is a message by itself. -/
theorem receive_whole (h : receive c chunk ok = some o) (hwhole : chunk.whole = true) :
    o.client = c ∧ o.ret = 0 ∧
      o.acts = callIf c.rx_cb (.rx_cb chunk.data.bytes chunk.frame_is_binary) := by
  unfold receive at h
  rw [← chunk.whole_eq, if_pos hwhole] at h
  cases h
  exact ⟨rfl, rfl, rfl⟩

/-- What RECEIVE does with a chunk that it appends. -/
theorem receive_appends (h : receive c chunk ok = some o) (hwhole : chunk.whole = false)
    (hret : o.ret = 0) :
    ∃ g, ws_frag_append (if chunk.is_first_fragment then c.frag.reset else c.frag) chunk.data ok =
        some (0, g) ∧
      o.client = { c with frag := if chunk.last then g.reset else g } ∧
      o.acts = if chunk.last then callIf c.rx_cb (.rx_cb g.contents chunk.frame_is_binary) else [] := by
  unfold receive at h
  rw [← chunk.whole_eq, if_neg (by simp [hwhole])] at h
  simp only [Option.map_eq_some_iff] at h
  obtain ⟨⟨ret, g⟩, happend, rfl⟩ := h
  dsimp only at hret ⊢
  obtain rfl := ws_frag_append_returned happend fun hneg => by simp [hneg] at hret
  refine ⟨g, happend, ?_⟩
  simp only [Int.lt_irrefl, if_false]
  cases hlast : chunk.last with
  | true =>
    rw [Chunk.last] at hlast
    simp only [hlast, if_true, and_self]
  | false =>
    rw [Chunk.last] at hlast
    simp only [hlast, Bool.false_eq_true, if_false, and_self]

/-- A RECEIVE that returns 0 takes its chunk as the receiver does. -/
theorem receive_take (h : receive c chunk ok = some o) (hret : o.ret = 0) (hrx : c.rx_cb = true)
    (out : List Message) :
    Assembler.take ⟨c.frag.contents, out⟩ chunk =
      ⟨o.client.frag.contents, out ++ deliveries o.acts⟩ := by
  have hcalled : ∀ data is_binary, deliveries (callIf c.rx_cb (.rx_cb data is_binary)) =
      [(data, is_binary)] := by
    intro data is_binary
    rw [hrx]
    rfl
  cases hwhole : chunk.whole with
  | true =>
    obtain ⟨hclient, _, hacts⟩ := receive_whole h hwhole
    rw [hclient, hacts, hcalled]
    exact if_pos hwhole
  | false =>
    obtain ⟨g, happend, hclient, hacts⟩ := receive_appends h hwhole hret
    rw [hclient, hacts]
    have hpart : ¬ chunk.whole = true := by simp [hwhole]
    refine (if_neg hpart).trans ?_
    dsimp only
    rw [← ws_frag_append_after happend]
    split
    · rw [hcalled]
      rfl
    · simp [deliveries]

end receive

/-- Over any run the buffer and the deliveries are those of the receiver on the
    chunks received so far. -/
theorem follows_take {c : wsld_client} (hc : c.Fresh) (hrx : c.rx_cb = true) {ls : List Label}
    {cfg : Config} (h : system.Follows granted (initial c) ls cfg) :
    cfg.shared.c.rx_cb = true ∧ (received ls).foldl Assembler.take ⟨[], []⟩ =
      ⟨cfg.shared.c.frag.contents, deliveries cfg.shared.trace⟩ := by
  refine h.invariant (I := fun ls cfg => cfg.shared.c.rx_cb = true ∧
    (received ls).foldl Assembler.take ⟨[], []⟩ =
      ⟨cfg.shared.c.frag.contents, deliveries cfg.shared.trace⟩) ⟨hrx, ?_⟩ ?_
  · change (⟨[], []⟩ : Assembler) = ⟨c.frag.contents, []⟩
    rw [hc.frag]
    rfl
  · rintro ls cfg l cfg' hok hmove ⟨hrx, htake⟩
    have hreceived : received (ls ++ [l]) = received ls ++ received [l] := List.filterMap_append
    rw [hreceived, List.foldl_append, htake]
    cases hmove with
    | @event e s s' app fs hdeliver =>
      obtain ⟨acts, htrace, heffect⟩ := deliver_spec hdeliver
      dsimp only at hrx ⊢
      rw [htrace, deliveries_append]
      cases heffect with
      | plain hnone hplain hkept _ =>
        rw [hkept.frag, hplain.deliveries]
        refine ⟨(congrArg wsld_config.rx_cb hkept.config).trans hrx, ?_⟩
        simp [received, hnone]
      | @receive w chunk a o ho hacts hc =>
        obtain ⟨frag, hfrag⟩ := receive_client ho
        have hret : o.ret = 0 := by
          simp only [granted, ho, Option.any_some, beq_iff_eq] at hok
          exact hok
        rw [hc, hacts]
        exact ⟨by rw [hfrag]; exact hrx, receive_take ho hret hrx _⟩
      | ping hacts hkept =>
        rw [hkept.frag, hacts]
        refine ⟨(congrArg wsld_config.rx_cb hkept.config).trans hrx, ?_⟩
        simp [received, Event.receives, writeable_ping, deliveries]
      | dequeue _ hacts hc =>
        rw [hc, hacts]
        exact ⟨hrx, by simp [received, Event.receives, deliveries]⟩
      | exit _ _ _ hacts hc =>
        rw [hc, hacts]
        exact ⟨hrx, by simp [received, Event.receives, deliveries, List.filterMap_map]⟩
    | svc hsvc =>
      obtain ⟨hkept, _, acts, htrace, hacts⟩ := svc_spec hsvc
      have hnone : deliveries acts = [] := by
        rcases hacts with ⟨hplain, _⟩ | ⟨w, n, more, _, rfl⟩
        · exact hplain.deliveries
        · rfl
      dsimp only at hrx ⊢
      rw [hkept.frag, htrace, deliveries_append, hnone]
      exact ⟨(congrArg wsld_config.rx_cb hkept.config).trans hrx, by simp [received]⟩
    | call _ _ => exact ⟨hrx, by simp [received]⟩
    | app htop happ =>
      obtain ⟨hconfig, hfrag, acts, htrace, hacts⟩ := app_spec happ
      have hnone : deliveries acts = [] := by
        rcases hacts with ⟨_, hplain⟩ | ⟨_, _, rfl⟩ | ⟨n, data, is_binary, _, _, rfl⟩
        · exact hplain.deliveries
        · rfl
        · rfl
      dsimp only at hrx ⊢
      rw [hfrag, htrace, deliveries_append, hnone]
      exact ⟨(congrArg wsld_config.rx_cb hconfig).trans hrx, by simp [received]⟩

/-- Over all connections of a client `rx_cb` gets exactly the messages whose last
    chunk arrived. -/
theorem delivers_completed {c : wsld_client} (hc : c.Fresh) (hrx : c.rx_cb = true)
    {ls : List Label} {cfg : Config} (h : system.Follows granted (initial c) ls cfg)
    {conns : List Connection} (hwire : received ls = conns.flatMap Connection.chunks)
    (hconns : ∀ conn ∈ conns, conn.WellFormed Chunk.last) :
    deliveries cfg.shared.trace = completed conns := by
  obtain ⟨_, htake⟩ := follows_take hc hrx h
  have hout := Assembler.take_connections hconns ⟨[], []⟩
  rw [← hwire, htake] at hout
  simpa using hout

end lws_client.ws_client
