import Mathlib.Data.List.TakeWhile
import LwsClientDemo.XfyunTts.Message

namespace lws_client.xfyun_tts

/-- What a message does, dropped ones included. -/
def handled (ssl : openssl) (ctx : tts_ctx_t) (m : Answers × Data) : tts_ctx_t :=
  if m.1.json then received ssl m.1 (text_of_message m.2.bytes) ctx else ctx

/-- A message that is read and reports no error. -/
def Succeeds (m : Answers × Data) : Prop :=
  m.1.json = true ∧ raw_int (text_of_message m.2.bytes) (literal "code") = some 0

/-- A message that reports an error, or the end of the samples. -/
def Ends (m : Answers × Data) : Prop :=
  m.1.json = true ∧ (raw_int (text_of_message m.2.bytes) (literal "code") ≠ some 0 ∨
    raw_int (text_of_message m.2.bytes) (literal "status") = some STATUS_LAST_FRAME)

instance (m : Answers × Data) : Decidable (Succeeds m) := by
  unfold Succeeds
  infer_instance

instance (m : Answers × Data) : Decidable (Ends m) := by
  unfold Ends
  infer_instance

/-- The code of an error that a message reports, -1 where it has none. -/
def failure (m : Answers × Data) : Option Int :=
  if m.1.json = true ∧ raw_int (text_of_message m.2.bytes) (literal "code") ≠ some 0 then
    some ((raw_int (text_of_message m.2.bytes) (literal "code")).getD (-1))
  else none

/-- The samples that are decoded from a message. -/
def heard (ssl : openssl) (m : Answers × Data) : List UInt8 :=
  if Succeeds m then samples ssl m.1 (text_of_message m.2.bytes) else []

variable {ssl : openssl} {ctx ctx' : tts_ctx_t} {m : Answers × Data}
  {messages : List (Answers × Data)} {n : Int}

theorem store_pcm_file (pcm : List UInt8) (fwrite : Nat) :
    (ctx.store pcm fwrite).pcm_file = ctx.pcm_file ++ pcm.take fwrite := by
  rw [tts_ctx_t.store]
  split
  · next hnil => simp [hnil]
  · rfl

theorem store_total_bytes (hn : ctx.total_bytes = n.bmod (2 ^ 64)) (pcm : List UInt8)
    (fwrite : Nat) :
    (ctx.store pcm fwrite).total_bytes = (n + pcm.length).bmod (2 ^ 64) := by
  rw [tts_ctx_t.store]
  split
  · next hnil => simp [hnil, hn]
  · simp only [hn, Int.bmod_add_bmod]

theorem store_api_code (pcm : List UInt8) (fwrite : Nat) :
    (ctx.store pcm fwrite).api_code = ctx.api_code := by
  rw [tts_ctx_t.store]
  split <;> rfl

theorem store_done (pcm : List UInt8) (fwrite : Nat) : (ctx.store pcm fwrite).done = ctx.done := by
  rw [tts_ctx_t.store]
  split <;> rfl

theorem last_frame_iff {status : Option Int} :
    status.getD 0 = STATUS_LAST_FRAME ↔ status = some STATUS_LAST_FRAME := by
  cases status with
  | none => simp [STATUS_LAST_FRAME]
  | some status => simp

/-- What a message does to the file, the count and the flag that `main` waits for. -/
theorem handled_spec (hn : ctx.total_bytes = n.bmod (2 ^ 64)) :
    (handled ssl ctx m).pcm_file = ctx.pcm_file ++ (heard ssl m).take m.1.fwrite ∧
      (handled ssl ctx m).total_bytes = (n + (heard ssl m).length).bmod (2 ^ 64) ∧
      ((handled ssl ctx m).done = true ↔ ctx.done = true ∨ Ends m) := by
  rw [handled, heard]
  by_cases hread : m.1.json = true
  · by_cases hcode : raw_int (text_of_message m.2.bytes) (literal "code") = some 0
    · have hok : Succeeds m := ⟨hread, hcode⟩
      simp only [if_pos hread, if_pos hok, received, if_pos hcode]
      split
      · next hlast =>
        have hends : Ends m := ⟨hread, .inr (last_frame_iff.mp hlast)⟩
        refine ⟨store_pcm_file _ _, store_total_bytes ?_ _ _, by simp [hends]⟩
        exact hn
      · next hlast =>
        have hends : ¬ Ends m := fun h => h.2.elim (fun hne => hne hcode) fun hstatus =>
          hlast (last_frame_iff.mpr hstatus)
        refine ⟨store_pcm_file _ _, store_total_bytes ?_ _ _, by simp [hends, store_done]⟩
        exact hn
    · have hok : ¬ Succeeds m := fun h => hcode h.2
      have hends : Ends m := ⟨hread, .inl hcode⟩
      simp only [if_pos hread, if_neg hok, received, if_neg hcode]
      exact ⟨by simp, by simp [hn], by simp [hends]⟩
  · have hok : ¬ Succeeds m := fun h => hread h.1
    have hends : ¬ Ends m := fun h => hread h.1
    simp only [if_neg hread, if_neg hok]
    exact ⟨by simp, by simp [hn], by simp [hends]⟩

theorem handled_api_code : (handled ssl ctx m).api_code = (failure m).getD ctx.api_code := by
  rw [handled, failure]
  by_cases hread : m.1.json = true
  · by_cases hcode : raw_int (text_of_message m.2.bytes) (literal "code") = some 0
    · have hnot : ¬ (m.1.json = true ∧
          raw_int (text_of_message m.2.bytes) (literal "code") ≠ some 0) := fun h => h.2 hcode
      simp only [if_pos hread, received, if_pos hcode, if_neg hnot, Option.getD_none]
      split <;> exact store_api_code _ _
    · simp only [if_pos hread, received, if_neg hcode, if_pos (And.intro hread hcode),
        Option.getD_some]
  · have hnot : ¬ (m.1.json = true ∧
        raw_int (text_of_message m.2.bytes) (literal "code") ≠ some 0) := fun h => hread h.1
    rw [if_neg hread, if_neg hnot, Option.getD_none]

theorem handled_printable (h : ctx.Printable) : (handled ssl ctx m).Printable := by
  obtain ⟨hlength, hzero⟩ := h
  have hsid (text : List UInt8) : (copied ctx.sid 64 (raw_str text (literal "sid"))).1.length = 64 ∧
      0 ∈ (copied ctx.sid 64 (raw_str text (literal "sid"))).1 :=
    ⟨(copied_length (by decide) hlength.ge).trans hlength, copied_zero_mem hzero⟩
  rw [handled]
  split
  · simp only [received]
    split
    · split <;> simpa only [tts_ctx_t.Printable, store_sid] using hsid _
    · exact hsid _
  · exact ⟨hlength, hzero⟩

/-- A message that any machine can hold: neither its size nor that of its samples wraps. -/
def Holds (m : Answers × Data) : Prop := 3 * (m.2.bytes.length + 4) < 2 ^ 64

instance (m : Answers × Data) : Decidable (Holds m) := by
  unfold Holds
  infer_instance

/-- A run of messages is handled inside the buffers, one message after the other. -/
theorem on_tts_messages_spec (hssl : ssl.Documented) (hfits : ∀ m ∈ messages, Holds m)
    (hctx : ctx.Printable) (hn : ctx.total_bytes = n.bmod (2 ^ 64)) :
    ∃ ctx', on_tts_messages ssl messages ctx = some ctx' ∧ ctx'.Printable ∧
      ctx'.pcm_file = ctx.pcm_file ++
        (messages.map fun m => (heard ssl m).take m.1.fwrite).flatten ∧
      ctx'.total_bytes =
        (n + (messages.map fun m => (heard ssl m).length).sum).bmod (2 ^ 64) ∧
      (ctx'.done = true ↔ ctx.done = true ∨ ∃ m ∈ messages, Ends m) ∧
      ctx'.api_code = ((messages.filterMap failure).getLast?).getD ctx.api_code := by
  induction messages generalizing ctx n with
  | nil => exact ⟨ctx, rfl, hctx, by simp, by simpa using hn, by simp, rfl⟩
  | cons m messages ih =>
    obtain ⟨hm, hfits⟩ := List.forall_mem_cons.mp hfits
    obtain ⟨hfile, htotal, hdone⟩ := handled_spec (m := m) hn
    obtain ⟨ctx', hrun, hprintable, hfile', htotal', hdone', hcode'⟩ :=
      ih hfits (handled_printable (m := m) hctx) htotal
    refine ⟨ctx', ?_, hprintable, ?_, ?_, ?_, ?_⟩
    · rw [on_tts_messages, on_tts_message_spec hssl hm hctx]
      exact hrun
    · rw [hfile', hfile]
      simp
    · rw [htotal', List.map_cons, List.sum_cons, Nat.cast_add, Int.add_assoc]
    · rw [hdone', hdone]
      simp [or_assoc]
    · rw [hcode', handled_api_code, List.filterMap_cons]
      cases failure m with
      | none => rfl
      | some code => rw [List.getLast?_cons, Option.getD_some, Option.getD_some]

theorem fresh_printable : tts_ctx_t.fresh.Printable :=
  ⟨buffer_length, List.mem_replicate.mpr ⟨by decide, rfl⟩⟩

/-- Whatever the messages of a session hold and whatever the allocator answers, no buffer is
    overrun, the file holds the samples of the answers that succeed in their order, the count is
    that of the samples, `main` stops waiting exactly after an error or the last frame, and the
    code it finds then is that of the last error. -/
theorem session_safe (hssl : ssl.Documented) (hfits : ∀ m ∈ messages, Holds m) :
    ∃ ctx', on_tts_messages ssl messages .fresh = some ctx' ∧ ctx'.Printable ∧
      ctx'.pcm_file = (messages.map fun m => (heard ssl m).take m.1.fwrite).flatten ∧
      ctx'.total_bytes =
        Int.bmod (messages.map fun m => (heard ssl m).length).sum (2 ^ 64) ∧
      (ctx'.done = true ↔ ∃ m ∈ messages, Ends m) ∧
      ctx'.api_code = ((messages.filterMap failure).getLast?).getD 0 := by
  obtain ⟨ctx', hrun, hprintable, hfile, htotal, hdone, hcode⟩ :=
    on_tts_messages_spec (n := 0) hssl hfits fresh_printable (by decide)
  refine ⟨ctx', hrun, hprintable, by simpa [tts_ctx_t.fresh] using hfile, ?_,
    by simpa [tts_ctx_t.fresh] using hdone, hcode⟩
  rw [htotal, Int.zero_add]

/-- The answer with its samples, one that breaks off after the name of its first
    field, and one for which no memory is left. -/
def session : List (Answers × Data) :=
  [(⟨true, true, true, 2⟩, ⟨nested_doc.print [], by decide +kernel⟩),
    (⟨true, true, true, 0⟩, ⟨literal "\x7b\"code\":", by decide⟩),
    (⟨false, true, true, 2⟩, ⟨nested_doc.print [], by decide +kernel⟩)]

/-- The samples of the first message are kept, and the second one is the error. -/
theorem session_safe_broken :
    ∃ ctx', on_tts_messages (.reference (buffer 32)) session .fresh = some ctx' ∧ ctx'.Printable ∧
      ctx'.pcm_file = [104, 105] ∧ ctx'.total_bytes = 2 ∧ ctx'.done = true ∧ ctx'.api_code = -1 := by
  have hssl : (openssl.reference (buffer 32)).Documented := openssl.reference_documented (by decide)
  have hfits : ∀ m ∈ session, Holds m := by decide +kernel
  obtain ⟨ctx', hrun, hprintable, hfile, htotal, hdone, hcode⟩ := session_safe hssl hfits
  refine ⟨ctx', hrun, hprintable, hfile.trans ?_, htotal.trans ?_, hdone.mpr ?_, hcode.trans ?_⟩
  all_goals decide +kernel

/-- An answer of the service: a document with samples in base64 and without an error. -/
structure Reply where
  doc : json.Value
  chunk : List UInt8
  code : int_field doc (literal "code") = some 0
  audio : str_field [] doc (literal "audio") = some (base64.encode chunk)
  size : ((base64.encode chunk).length : Int) ≤ INT_MAX
  fits : 3 * ((doc.print []).length + 4) < 2 ^ 64

theorem Reply.length_le (r : Reply) : (r.doc.print []).length ≤ PTRDIFF_MAX := by
  have := r.fits
  rw [PTRDIFF_MAX]
  omega

/-- The message with the answer, on a machine with memory and disk to spare. -/
def Reply.message (r : Reply) : Answers × Data :=
  (⟨true, true, true, r.chunk.length⟩, ⟨r.doc.print [], r.length_le⟩)

theorem text_of_print (doc : json.Value) : text_of_message (doc.print []) = doc.print [] := by
  have hplain := print_plain doc (List.forall_mem_nil fun c => c = 32)
  have hne : ∀ c ∈ doc.print [], c ≠ 0 := fun c hc => ne_of_mem_of_not_mem hc hplain
  exact List.takeWhile_eq_self_iff.mpr (by simpa using hne)

/-- The fields that say what an answer brings. -/
def reply_keys : List (List UInt8) := [literal "code", literal "status", literal "audio"]

theorem reply_names : ∀ key ∈ reply_keys, json.Name key := by decide

theorem Reply.raw_int_eq (r : Reply) {key : List UInt8} (hkey : key ∈ reply_keys) :
    raw_int (text_of_message r.message.2.bytes) key = int_field r.doc key := by
  have hname := reply_names key hkey
  rw [message, text_of_print, raw_int_print hname (List.forall_mem_nil _)]

theorem Reply.succeeds (r : Reply) : Succeeds r.message :=
  ⟨rfl, (r.raw_int_eq (by simp [reply_keys])).trans r.code⟩

theorem Reply.heard_eq (r : Reply) (hssl : ssl.Documented) : heard ssl r.message = r.chunk := by
  have hraw : raw_str (text_of_message r.message.2.bytes) (literal "audio") =
      some (base64.encode r.chunk) := by
    rw [message, text_of_print, raw_str_print (reply_names _ (by simp [reply_keys]))
      (List.forall_mem_nil _)]
    exact r.audio
  have hdecoded : decoded ssl (base64.encode r.chunk) = r.chunk := by
    by_cases hempty : r.chunk = []
    · rw [hempty]
      exact decoded_nil hssl
    · exact decoded_encode hssl hempty r.size
  rw [heard, if_pos r.succeeds, samples, hraw, Option.map_some, Option.getD_some, hdecoded]
  rfl

theorem Reply.ends_iff (r : Reply) :
    Ends r.message ↔ int_field r.doc (literal "status") = some STATUS_LAST_FRAME := by
  have hcode := (r.raw_int_eq (show literal "code" ∈ reply_keys by simp [reply_keys])).trans r.code
  have hstatus := r.raw_int_eq (show literal "status" ∈ reply_keys by simp [reply_keys])
  rw [Ends, hcode, hstatus]
  simp [message]

/-- The samples of a session arrive in the file whole and in order, and `main` has reason to
    report success exactly when the last frame is among the answers. -/
theorem session_samples (hssl : ssl.Documented) (replies : List Reply) :
    ∃ ctx', on_tts_messages ssl (replies.map Reply.message) .fresh = some ctx' ∧
      ctx'.pcm_file = (replies.map Reply.chunk).flatten ∧
      ctx'.total_bytes = Int.bmod (replies.map Reply.chunk).flatten.length (2 ^ 64) ∧
      ctx'.api_code = 0 ∧
      (ctx'.done = true ↔
        ∃ r ∈ replies, int_field r.doc (literal "status") = some STATUS_LAST_FRAME) := by
  have hfits : ∀ m ∈ replies.map Reply.message, Holds m := by
    intro m hm
    obtain ⟨r, _, rfl⟩ := List.mem_map.mp hm
    exact r.fits
  have hfailure : (replies.map Reply.message).filterMap failure = [] := by
    rw [List.filterMap_eq_nil_iff]
    intro m hm
    obtain ⟨r, _, rfl⟩ := List.mem_map.mp hm
    exact if_neg fun h => h.2 r.succeeds.2
  obtain ⟨ctx', hrun, _, hfile, htotal, hdone, hcode⟩ :=
    on_tts_messages_spec (n := 0) hssl hfits fresh_printable (by decide)
  have htake (r : Reply) : (heard ssl r.message).take r.message.1.fwrite = r.chunk := by
    rw [r.heard_eq hssl]
    exact List.take_length
  refine ⟨ctx', hrun, ?_, ?_, ?_, ?_⟩
  · rw [hfile, List.map_map]
    simp only [Function.comp_def, htake]
    rfl
  · rw [htotal, List.map_map, Int.zero_add]
    simp only [Function.comp_def, Reply.heard_eq _ hssl, List.length_flatten, List.map_map]
  · rw [hcode, hfailure]
    rfl
  · rw [hdone]
    simp [tts_ctx_t.fresh, Reply.ends_iff]

/-- An answer with two bytes of samples. -/
def first_reply : Reply where
  doc := .obj
    (.cons code_name (.num 0)
    (.cons data_name (.obj
      (.cons audio_name (.str (plain "bG8=" (by decide)))
      (.cons status_name (.num 1) .nil))) .nil))
  chunk := [108, 111]
  code := rfl
  audio := by decide +kernel
  size := by decide +kernel
  fits := by decide +kernel

/-- The last answer, with two more. -/
def last_reply : Reply where
  doc := nested_doc
  chunk := [104, 105]
  code := rfl
  audio := by decide +kernel
  size := by decide +kernel
  fits := by decide +kernel

theorem session_samples_last :
    ∃ ctx', on_tts_messages (.reference (buffer 32)) ([first_reply, last_reply].map Reply.message)
        .fresh = some ctx' ∧
      ctx'.pcm_file = [108, 111, 104, 105] ∧ ctx'.total_bytes = 4 ∧ ctx'.api_code = 0 ∧
      ctx'.done = true := by
  have hssl : (openssl.reference (buffer 32)).Documented := openssl.reference_documented (by decide)
  obtain ⟨ctx', hrun, hfile, htotal, hcode, hdone⟩ := session_samples hssl [first_reply, last_reply]
  exact ⟨ctx', hrun, hfile, htotal.trans (by decide), hcode, hdone.mpr ⟨last_reply, by simp, rfl⟩⟩

end lws_client.xfyun_tts
