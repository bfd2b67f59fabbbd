import LwsClientDemo.WsPool.Receive

open interleaving

namespace lws_client.ws_pool

/-- The messages given to `on_message`, in order. -/
def on_messages (trace : List Act) : List Message :=
  trace.filterMap fun
    | .on_message data is_binary => some (data, is_binary)
    | _ => none

@[simp] theorem on_messages_append (xs ys : List Act) :
    on_messages (xs ++ ys) = on_messages xs ++ on_messages ys :=
  List.filterMap_append

/-- What a RECEIVE that returns -1 does with its chunk: a first one has reset the
    buffer. -/
def refuse (s : Assembler) (k : Chunk) : Assembler :=
  if k.is_first_fragment then { s with buf := [] } else s

/-- A chunk with whether its RECEIVE returned 0. -/
def answer (take : Assembler → Chunk → Assembler) (s : Assembler) (x : Chunk × Bool) :
    Assembler :=
  if x.2 then take s x.1 else refuse s x.1

/-- A connection with the chunk that a RECEIVE refused by returning -1, if one
    did: lws then closes the connection. -/
structure Reception extends Connection where
  refused : Option Chunk

def Reception.receipts (r : Reception) : List (Chunk × Bool) :=
  r.chunks.map (fun k => (k, true)) ++ r.refused.toList.map fun k => (k, false)

theorem answer_taken (take : Assembler → Chunk → Assembler) (ks : List Chunk) (s : Assembler) :
    (ks.map fun k => (k, true)).foldl (answer take) s = ks.foldl take s := by
  rw [List.foldl_map]
  rfl

/-- A refused chunk gives nothing out. -/
theorem answer_refused (take : Assembler → Chunk → Assembler) (k : Option Chunk) (s : Assembler) :
    ((k.toList.map fun k => (k, false)).foldl (answer take) s).out = s.out := by
  cases k with
  | none => rfl
  | some k =>
    simp only [Option.toList_some, List.map_cons, List.map_nil, List.foldl_cons, List.foldl_nil,
      answer, Bool.false_eq_true, if_false, refuse]
    split <;> rfl

/-- What a receiver gives out for the chunks of each connection it gives out over
    all of them. -/
theorem answer_receptions {take : Assembler → Chunk → Assembler}
    (given : Reception → List Message) {rs : List Reception}
    (h : ∀ r ∈ rs, ∀ s : Assembler, (r.chunks.foldl take s).out = s.out ++ given r)
    (s : Assembler) :
    ((rs.flatMap Reception.receipts).foldl (answer take) s).out =
      s.out ++ rs.flatMap given := by
  induction rs generalizing s with
  | nil => simp
  | cons r rs ih =>
    rw [List.flatMap_cons, List.foldl_append, ih fun q hq => h q (by simp [hq]), Reception.receipts,
      List.foldl_append, answer_refused, answer_taken, h r (by simp)]
    simp

/-- `on_message` is called for the message: an empty one has to come in one chunk. -/
def heard (m : Message × List Chunk) : Bool := decide (m.1.1 = [] → m.2.length = 1)

/-- What `on_message` is given: as `rx_cb`, but for an empty message that went
    through the buffer. -/
def take_hook (s : Assembler) (k : Chunk) : Assembler :=
  if k.is_first_fragment && k.last then
    { s with out := s.out ++ [(k.data.bytes, k.frame_is_binary)] }
  else
    let buf := (if k.is_first_fragment then [] else s.buf) ++ k.data.bytes
    if k.last then
      { buf := [], out := s.out ++ if buf = [] then [] else [(buf, k.frame_is_binary)] }
    else { s with buf }

section
variable {ks : List Chunk}

theorem take_hook_first {k : Chunk} (hfirst : k.is_first_fragment = true)
    (hlast : k.last = false) (s : Assembler) : take_hook s k = { s with buf := k.data.bytes } := by
  simp [take_hook, hfirst, hlast]

theorem take_hook_inner (h : lws_client.Inner Chunk.last ks) (s : Assembler) :
    ks.foldl take_hook s = { s with buf := s.buf ++ payload ks } := by
  induction ks generalizing s with
  | nil => simp [payload]
  | cons k ks ih =>
    obtain ⟨hfirst, hlast⟩ := h k (by simp)
    have htake : take_hook s k = { s with buf := s.buf ++ k.data.bytes } := by
      simp [take_hook, hfirst, hlast]
    rw [List.foldl_cons, htake, ih fun r hr => h r (by simp [hr])]
    simp [payload]

theorem take_hook_split {m : Message} (h : Split Chunk.last m ks) (s : Assembler) :
    (ks.foldl take_hook s).out = s.out ++ if heard (m, ks) then [m] else [] := by
  cases h with
  | @whole k hfirst hlast => simp [take_hook, hfirst, hlast, heard]
  | @parts k l inner is_binary hfirst hlast hinner hfirst' hlast' hbinary =>
    have hl : l.frame_is_binary = is_binary := hbinary l (by simp)
    have hbuf : k.data.bytes ++ payload inner ++ l.data.bytes = payload (k :: inner ++ [l]) := by
      simp [payload]
    have hheard : heard ((payload (k :: inner ++ [l]), is_binary), k :: inner ++ [l]) =
        !decide (payload (k :: inner ++ [l]) = []) := by
      simp [heard]
    rw [hheard, List.cons_append, List.foldl_cons, List.foldl_append, take_hook_first hfirst hlast,
      take_hook_inner hinner]
    simp only [List.foldl_cons, List.foldl_nil, take_hook, hfirst', hlast', hl, Bool.false_and,
      Bool.false_eq_true, if_false, if_true]
    rw [hbuf]
    split <;> simp_all

theorem take_hook_cut (h : Cut Chunk.last ks) (s : Assembler) :
    (ks.foldl take_hook s).out = s.out := by
  cases h with
  | between => rfl
  | inside hfirst hlast hinner =>
    rw [List.foldl_cons, take_hook_first hfirst hlast, take_hook_inner hinner]

theorem take_hook_messages {ms : List (Message × List Chunk)}
    (h : ∀ m ∈ ms, Split Chunk.last m.1 m.2) (s : Assembler) :
    ((ms.flatMap Prod.snd).foldl take_hook s).out =
      s.out ++ (ms.filter heard).map Prod.fst := by
  induction ms generalizing s with
  | nil => simp
  | cons m ms ih =>
    rw [List.flatMap_cons, List.foldl_append, ih fun r hr => h r (by simp [hr]),
      take_hook_split (h m (by simp)), List.append_assoc]
    cases hm : heard m <;> simp [hm]

end

/-- On the chunks of a connection the hook is given the messages it hears. -/
theorem take_hook_connection {conn : Connection} (h : conn.WellFormed Chunk.last)
    (s : Assembler) : (conn.chunks.foldl take_hook s).out =
      s.out ++ (conn.messages.filter heard).map Prod.fst := by
  rw [Connection.chunks, List.foldl_append, take_hook_cut h.cut, take_hook_messages h.split]

section sections

variable {s s' : Sys} {d : ClientId}

theorem Makes.on_messages {p : Act → Bool} (h : Makes p s s' d)
    (hp : ∀ data is_binary, p (.on_message data is_binary) = false) :
    on_messages (s'.trace d) = on_messages (s.trace d) := by
  obtain ⟨acts, htrace, hacts⟩ := h
  have hnone : ws_pool.on_messages acts = [] := by
    refine List.filterMap_eq_nil_iff.mpr fun act hact => ?_
    cases act with
    | on_message data is_binary =>
      have hcall := hacts _ hact
      rw [hp] at hcall
      cases hcall
    | _ => rfl
  rw [htrace, on_messages_append, hnone, List.append_nil]

theorem destroy_client_on_messages {c : ClientId} (h : s.destroy_client c = some s') :
    on_messages (s'.trace d) = on_messages (s.trace d) := by
  obtain ⟨freed, rfl⟩ := Sys.destroy_client_eq h
  have hacts : Every (fun act => !Act.delivers act)
      (freed.map (fun n => Act.free_node n.payload n.is_binary) ++ [.client_destroy]) :=
    (Every.map (fun _ => rfl) freed).append (Every.single rfl)
  exact (Makes.act hacts d).on_messages fun _ _ => rfl

theorem app_on_messages {f : AppFrame} {a : Answer} {fs : List AppFrame}
    (h : s.app f a = some (fs, s')) : on_messages (s'.trace d) = on_messages (s.trace d) := by
  have hcalls : ∀ {acts}, s'.trace d = s.trace d ++ acts → Every (fun act => !Act.delivers act) acts →
      on_messages (s'.trace d) = on_messages (s.trace d) := fun htrace hacts =>
    Makes.on_messages ⟨_, htrace, hacts⟩ fun _ _ => rfl
  cases app_touches h d with
  | none _ htrace hacts => exact Makes.on_messages ⟨_, htrace, hacts⟩ fun _ _ => rfl
  | send _ _ _ htrace | add _ htrace | sul_cancel _ htrace => exact hcalls htrace (Every.single rfl)
  | stop _ _ htrace | lock _ _ _ _ htrace => rw [htrace]
  | wait _ _ htrace =>
    rcases htrace with htrace | htrace
    · rw [htrace]
    · exact hcalls htrace (Every.single rfl)
  | @flush _ freed _ _ _ htrace =>
    exact hcalls htrace ((Every.map (fun _ => rfl) freed).append (Every.single rfl))
  | destroy hdestroy => exact destroy_client_on_messages hdestroy
  | destroy_all hdestroy _ htrace =>
    rw [htrace]
    exact destroy_all_rule (R := fun s t => on_messages (t.trace d) = on_messages (s.trace d))
      (fun _ => rfl) (fun h₁ h₂ => h₂.trans h₁) destroy_client_on_messages hdestroy

/-- Only a RECEIVE calls `on_message`. -/
theorem moves_on_messages {cfg cfg' : Config} {l : Label} (hmove : system.Moves cfg l cfg')
    (hnone : received d [l] = []) :
    on_messages (cfg'.shared.trace d) = on_messages (cfg.shared.trace d) := by
  cases hmove with
  | @event e s s' app fs hdeliver =>
    have hreceives : e.receives d = none := by
      cases he : e.receives d with
      | none => rfl
      | some k => simp [received, he] at hnone
    exact (deliver_makes hdeliver hreceives).on_messages fun _ _ => rfl
  | svc hsvc => exact (svc_makes hsvc d).on_messages fun _ _ => rfl
  | call _ _ => rfl
  | app _ happ => exact app_on_messages happ

end sections

/-- The chunk client `d` receives in a step, with whether RECEIVE returned 0. -/
def receipts (d : ClientId) (cfg : Config) : Label → List (Chunk × Bool)
  | .event (.callback c _ (.CLIENT_RECEIVE chunk) a) =>
    if c = d then
      [(chunk, (receive (cfg.shared.client c) chunk a.ok).any fun o => o.ret == 0)]
    else []
  | _ => []

variable {c : wsp_client} {chunk : Chunk} {ok : Bool} {o : Out wsp_client}

/-- A RECEIVE that returns 0 gives the hook what its receiver gives out. -/
theorem receive_take_hook (h : receive c chunk ok = some o) (hret : o.ret = 0)
    (hhook : hooked c.hooks (·.on_message) = true) (out : List Message) :
    take_hook ⟨c.frag.contents, out⟩ chunk =
      ⟨o.client.frag.contents, out ++ on_messages o.acts⟩ := by
  have hcalled : ∀ data is_binary message,
      on_messages (callIf c.rx_cb (.rx_cb data is_binary) ++
        callIf message (.on_message data is_binary)) =
          if message then [(data, is_binary)] else [] := by
    intro data is_binary message
    cases c.rx_cb <;> cases message <;> rfl
  cases hwhole : chunk.whole with
  | true =>
    obtain ⟨hclient, _, hacts⟩ := receive_whole h hwhole
    rw [hclient, hacts, hcalled, if_pos hhook]
    exact if_pos hwhole
  | false =>
    obtain ⟨g, happend, hclient, hacts⟩ := receive_appends h hwhole hret
    rw [hclient, hacts]
    have hpart : ¬ chunk.whole = true := by simp [hwhole]
    refine (if_neg hpart).trans ?_
    dsimp only
    rw [← ws_frag_append_after happend]
    split
    · rw [hcalled, hhook, Bool.true_and]
      by_cases hempty : g.contents = []
      · simp [hempty]
      · have hpos : g.contents.length > 0 := List.length_pos_iff.mpr hempty
        rw [if_neg hempty, if_pos (decide_eq_true hpos)]
        rfl
    · simp [on_messages]

/-- A RECEIVE that returns -1 calls nobody, and has reset the buffer for a first
    chunk. -/
theorem receive_refused (h : receive c chunk ok = some o) (hret : o.ret ≠ 0) (out : List Message) :
    refuse ⟨c.frag.contents, out⟩ chunk = ⟨o.client.frag.contents, out⟩ ∧ o.acts = [] := by
  unfold receive at h
  dsimp only at h
  split at h
  · cases h
    exact absurd rfl hret
  · simp only [Option.map_eq_some_iff] at h
    obtain ⟨⟨ret, f⟩, happend, rfl⟩ := h
    dsimp only at hret ⊢
    have hne : ret ≠ 0 := by
      rintro rfl
      simp only [Int.lt_irrefl, if_false] at hret
      split at hret <;> exact hret rfl
    obtain ⟨rfl, rfl⟩ := ws_frag_append_failed happend hne
    have hneg : (-1 : Int) < 0 := by decide
    rw [if_pos hneg]
    refine ⟨?_, rfl⟩
    dsimp only [refuse]
    split <;> rfl

/-- After the receipts `xs` the buffer of client `d` and what its two consumers
    have been given are those of the two receivers. -/
structure Heard (d : ClientId) (xs : List (Chunk × Bool)) (s : Sys) : Prop where
  rx_cb : (s.client d).rx_cb = true
  on_message : hooked (s.client d).hooks (·.on_message) = true
  delivered : xs.foldl (answer Assembler.take) ⟨[], []⟩ =
    ⟨(s.client d).frag.contents, deliveries (s.trace d)⟩
  hooked : xs.foldl (answer take_hook) ⟨[], []⟩ =
    ⟨(s.client d).frag.contents, on_messages (s.trace d)⟩

variable {d : ClientId} {xs : List (Chunk × Bool)} {s s' : Sys} {cfg cfg' : Config} {l : Label}

theorem Heard.receive {a : Answer} (h : Heard d xs s)
    (ho : receive (s.client d) chunk a.ok = some o) (hc : s'.client d = o.client)
    (htrace : s'.trace d = s.trace d ++ o.acts) :
    Heard d (xs ++ [(chunk, decide (o.ret = 0))]) s' := by
  obtain ⟨hrx, hhook, hdelivered, hhooked⟩ := h
  obtain ⟨frag, hfrag⟩ := receive_client ho
  have hrx' : (s'.client d).rx_cb = true := by rw [hc, hfrag]; exact hrx
  have hhook' : lws_client.hooked (s'.client d).hooks (·.on_message) = true := by
    rw [hc, hfrag]
    exact hhook
  by_cases hret : o.ret = 0
  · refine ⟨hrx', hhook', ?_, ?_⟩
    · rw [List.foldl_append, hdelivered, hc, htrace, deliveries_append,
        ← receive_take ho hret hrx]
      simp [answer, hret]
    · rw [List.foldl_append, hhooked, hc, htrace, on_messages_append,
        ← receive_take_hook ho hret hhook]
      simp [answer, hret]
  · have hrefused := receive_refused ho hret
    have hacts := (hrefused []).2
    refine ⟨hrx', hhook', ?_, ?_⟩
    · rw [List.foldl_append, hdelivered, hc, htrace, hacts, List.append_nil, ← (hrefused _).1]
      simp [answer, hret]
    · rw [List.foldl_append, hhooked, hc, htrace, hacts, List.append_nil, ← (hrefused _).1]
      simp [answer, hret]

theorem receipts_nil (hnone : received d [l] = []) (cfg : Config) : receipts d cfg l = [] := by
  unfold receipts
  split
  · next c w chunk a =>
    refine if_neg ?_
    rintro rfl
    simp [received, Event.receives] at hnone
  · rfl

theorem Heard.step (hmove : system.Moves cfg l cfg') (h : Heard d xs cfg.shared) :
    Heard d (xs ++ receipts d cfg l) cfg'.shared := by
  by_cases hnone : received d [l] = []
  · obtain ⟨hconfig, hfrag, hdeliveries⟩ := moves_undelivered hmove hnone
    rw [receipts_nil hnone, List.append_nil]
    refine ⟨(congrArg wsp_config.rx_cb hconfig).trans h.rx_cb, ?_, ?_, ?_⟩
    · rw [congrArg wsp_config.hooks hconfig]
      exact h.on_message
    · rw [hfrag, hdeliveries]
      exact h.delivered
    · rw [hfrag, moves_on_messages hmove hnone]
      exact h.hooked
  · obtain ⟨w, chunk, a, o, rfl, ho, hc, htrace⟩ := moves_receive hmove hnone
    have hreceipt : receipts d cfg (.event (.callback d w (.CLIENT_RECEIVE chunk) a)) =
        [(chunk, decide (o.ret = 0))] := by
      rw [receipts, if_pos rfl, ho]
      simp only [Option.any_some, List.cons.injEq, Prod.mk.injEq, true_and, and_true]
      exact beq_eq_decide ..
    rw [hreceipt]
    exact h.receive ho hc htrace

variable {client : ClientId → wsp_client} {ls : List Label} {rs : List Reception}

/-- Over any run the two consumers of a client are given what the two receivers
    give out for the receipts so far. -/
theorem follows_heard (hfresh : (client d).Fresh) (hrx : (client d).rx_cb = true)
    (hhook : hooked (client d).hooks (·.on_message) = true)
    (h : system.Follows Any (initial client) ls cfg) :
    Heard d (system.observe (receipts d) (initial client) ls) cfg.shared := by
  refine h.observed (J := fun _ => True) (I := fun xs cfg => Heard d xs cfg.shared)
    (fun _ _ => trivial) ?_ fun xs cfg l cfg' _ _ hmove hheard => hheard.step hmove
  have hempty : (client d).frag.contents = [] := by
    rw [hfresh.frag]
    rfl
  exact ⟨hrx, hhook, by rw [← hempty]; rfl, by rw [← hempty]; rfl⟩

/-- Of all messages that arrive, `rx_cb` is given each, and `on_message` each that
    it hears. -/
theorem follows_receptions (hfresh : (client d).Fresh) (hrx : (client d).rx_cb = true)
    (hhook : hooked (client d).hooks (·.on_message) = true)
    (h : system.Follows Any (initial client) ls cfg)
    (hwire : system.observe (receipts d) (initial client) ls = rs.flatMap Reception.receipts)
    (hrs : ∀ r ∈ rs, r.WellFormed Chunk.last) :
    deliveries (cfg.shared.trace d) = (rs.flatMap fun r => r.messages).map Prod.fst ∧
      on_messages (cfg.shared.trace d) =
        ((rs.flatMap fun r => r.messages).filter heard).map Prod.fst := by
  obtain ⟨_, _, hdelivered, hhooked⟩ := follows_heard hfresh hrx hhook h
  rw [hwire] at hdelivered hhooked
  have hout := answer_receptions (fun r => r.messages.map Prod.fst)
    (fun r hr s => Assembler.take_receives.fold_connection (hrs r hr) s) ⟨[], []⟩
  have hhook_out := answer_receptions (fun r => (r.messages.filter heard).map Prod.fst)
    (fun r hr s => take_hook_connection (hrs r hr) s) ⟨[], []⟩
  rw [hdelivered] at hout
  rw [hhooked] at hhook_out
  rw [List.filter_flatMap, List.map_flatMap, List.map_flatMap]
  exact ⟨by simpa using hout, by simpa using hhook_out⟩

/-- For a client that has both set, `on_message` is given the same messages as
    `rx_cb`, which are the messages that arrive, however each is split, if and only
    if no empty message arrives in more than one chunk. -/
theorem on_message_matches_rx_cb_iff (hfresh : (client d).Fresh) (hrx : (client d).rx_cb = true)
    (hhook : hooked (client d).hooks (·.on_message) = true)
    (h : system.Follows Any (initial client) ls cfg)
    (hwire : system.observe (receipts d) (initial client) ls = rs.flatMap Reception.receipts)
    (hrs : ∀ r ∈ rs, r.WellFormed Chunk.last) :
    (on_messages (cfg.shared.trace d) = deliveries (cfg.shared.trace d) ∧
        on_messages (cfg.shared.trace d) = completed (rs.map Reception.toConnection)) ↔
      ∀ r ∈ rs, ∀ m ∈ r.messages, m.1.1 = [] → m.2.length = 1 := by
  obtain ⟨hdelivered, hhooked⟩ := follows_receptions hfresh hrx hhook h hwire hrs
  have hcompleted : completed (rs.map Reception.toConnection) =
      (rs.flatMap fun r => r.messages).map Prod.fst := by
    rw [completed, List.flatMap_map, List.map_flatMap]
  rw [hcompleted, hdelivered, and_self, hhooked]
  -- The hook misses a message exactly when it is given fewer.
  have hall : ((rs.flatMap fun r => r.messages).filter heard).map Prod.fst =
      (rs.flatMap fun r => r.messages).map Prod.fst ↔
        ∀ m ∈ rs.flatMap fun r => r.messages, heard m = true := by
    refine ⟨fun heq => ?_, fun hevery => by rw [List.filter_eq_self.mpr hevery]⟩
    have hlength := congrArg List.length heq
    rw [List.length_map, List.length_map] at hlength
    exact List.length_filter_eq_length_iff.mp hlength
  rw [hall]
  simp only [List.mem_flatMap, forall_exists_index, and_imp, heard, decide_eq_true_eq]
  exact ⟨fun hm r hr m hmem => hm m r hr hmem, fun hm m r hr hmem => hm r hr m hmem⟩

/-- Clients with `rx_cb` and `on_message` set. -/
def both_set (_ : ClientId) : wsp_client :=
  wsp_set_event_hooks (wsp_client_create "localhost" 9000 none true)
    (some { on_connected := false, on_disconnected := false, on_error := false, on_message := true
            on_heartbeat_tick := false, on_reconnect_decision := false, on_handshake_header := false })

theorem both_set_fresh (c : ClientId) : (both_set c).Fresh := by constructor <;> rfl

/-- An empty text message in one chunk, and the same in two. -/
def empty_whole : Message × List Chunk := (([], false), [text_chunk ⟨[], Nat.zero_le _⟩ true true])

def empty_parts : Message × List Chunk :=
  (([], false), [text_chunk ⟨[], Nat.zero_le _⟩ true false, text_chunk ⟨[], Nat.zero_le _⟩ false true])

/-- `cd` in two chunks. -/
def text_parts : Message × List Chunk := (([99, 100], false), two_chunks)

/-- Client 0 connects and receives the messages on its first connection. -/
def receive_run (ms : List (Message × List Chunk)) : List Label :=
  connected_run ++ (ms.flatMap Prod.snd).map fun k => .event (.callback 0 0 (.CLIENT_RECEIVE k) {})

def reception (ms : List (Message × List Chunk)) : Reception :=
  { messages := ms, cut := [], refused := none }

theorem empty_whole_split : Split Chunk.last empty_whole.1 empty_whole.2 :=
  @Split.whole Chunk.last (text_chunk ⟨[], Nat.zero_le _⟩ true true) rfl rfl

theorem empty_parts_split : Split Chunk.last empty_parts.1 empty_parts.2 :=
  @Split.pair Chunk.last (text_chunk ⟨[], Nat.zero_le _⟩ true false)
    (text_chunk ⟨[], Nat.zero_le _⟩ false true) ⟨rfl, rfl⟩ ⟨rfl, rfl⟩ rfl

theorem text_parts_split : Split Chunk.last text_parts.1 text_parts.2 :=
  @Split.pair Chunk.last (text_chunk ⟨[99], one_byte⟩ true false)
    (text_chunk ⟨[100], one_byte⟩ false true) ⟨rfl, rfl⟩ ⟨rfl, rfl⟩ rfl

theorem reception_pair {m m' : Message × List Chunk} (h : Split Chunk.last m.1 m.2)
    (h' : Split Chunk.last m'.1 m'.2) : (reception [m, m']).WellFormed Chunk.last := by
  refine ⟨fun n hn => ?_, .between⟩
  simp only [reception, List.mem_cons, List.not_mem_nil, or_false] at hn
  rcases hn with rfl | rfl
  · exact h
  · exact h'

/-- `cd` in two chunks and an empty message in one reach both. -/
theorem on_message_matches_rx_cb_iff_parts : ∃ cfg : Config,
    system.Follows Any (initial both_set) (receive_run [text_parts, empty_whole]) cfg ∧
      on_messages (cfg.shared.trace 0) = deliveries (cfg.shared.trace 0) ∧
      on_messages (cfg.shared.trace 0) =
        completed [(reception [text_parts, empty_whole]).toConnection] := by
  obtain ⟨cfg, hfollows, _⟩ : ∃ cfg,
      system.Follows Any (initial both_set) (receive_run [text_parts, empty_whole]) cfg ∧ True :=
    System.exists_follows_of_run (by decide)
  have hwire : system.observe (receipts 0) (initial both_set) (receive_run [text_parts, empty_whole]) =
      [reception [text_parts, empty_whole]].flatMap Reception.receipts := rfl
  refine ⟨cfg, hfollows, (on_message_matches_rx_cb_iff (both_set_fresh 0) rfl rfl hfollows hwire
    fun r hr => ?_).mpr (by decide)⟩
  obtain rfl := List.mem_singleton.mp hr
  exact reception_pair text_parts_split empty_whole_split

/-- An empty message in two chunks reaches `rx_cb` only; in one it reaches both. -/
theorem empty_parts_unheard : ∃ cfg : Config,
    system.Follows Any (initial both_set) (receive_run [empty_parts, empty_whole]) cfg ∧
      system.observe (receipts 0) (initial both_set) (receive_run [empty_parts, empty_whole]) =
        (reception [empty_parts, empty_whole]).receipts ∧
      (reception [empty_parts, empty_whole]).WellFormed Chunk.last ∧
      deliveries (cfg.shared.trace 0) = [([], false), ([], false)] ∧
      on_messages (cfg.shared.trace 0) = [([], false)] := by
  obtain ⟨cfg, hfollows, hcalls⟩ : ∃ cfg,
      system.Follows Any (initial both_set) (receive_run [empty_parts, empty_whole]) cfg ∧
        deliveries (cfg.shared.trace 0) = [([], false), ([], false)] ∧
        on_messages (cfg.shared.trace 0) = [([], false)] :=
    System.exists_follows_of_run (by decide)
  exact ⟨cfg, hfollows, rfl, reception_pair empty_parts_split empty_whole_split, hcalls⟩

end lws_client.ws_pool
