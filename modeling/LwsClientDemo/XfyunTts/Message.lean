import LwsClientDemo.XfyunTts.Openssl

namespace lws_client.xfyun_tts

structure tts_ctx_t where
  pcm_file : List UInt8
  done : Bool
  api_code : Int
  sid : List UInt8
  total_bytes : Int
  deriving DecidableEq

/-- The context as `main` sets it up. -/
def tts_ctx_t.fresh : tts_ctx_t where
  pcm_file := []
  done := false
  api_code := 0
  sid := buffer 64
  total_bytes := 0

/-- What the allocator answers to the three calls of `malloc`, and how much `fwrite` takes. -/
structure Answers where
  json : Bool
  audio_b64 : Bool
  pcm : Bool
  fwrite : Nat

/-- The branch for an answer whose code is not 0. -/
def api_error (json : List UInt8) (code : Int) (ctx : tts_ctx_t) : Option tts_ctx_t := do
  let msg := literal "(unknown error)" ++ buffer 241
  let (msg, _) ← json_get_str json (literal "message") msg 256
  let (sid, _) ← json_get_str json (literal "sid") ctx.sid 64
  -- both are printed
  let _ ← c_str sid
  let _ ← c_str msg
  return { ctx with sid, api_code := code, done := true }

/-- Decoding `data.audio` and writing it to the file. -/
def receive_audio (ssl : openssl) (answers : Answers) (json : List UInt8) (len : Nat)
    (ctx : tts_ctx_t) : Option tts_ctx_t := do
  let some audio_b64 := malloc answers.audio_b64 (size_add len 4) | return ctx
  let (audio_b64, found) ← json_get_str json (literal "audio") audio_b64.bytes (size_add len 4)
  if !found then return ctx
  let audio ← c_str audio_b64
  if audio.length = 0 then return ctx
  let pcm_max := size_add (audio.length * 3 % 2 ^ 64 / 4) 4
  let some pcm := malloc answers.pcm pcm_max | return ctx
  let (pcm, pcm_len) ← b64_decode ssl audio pcm.bytes pcm_max
  if pcm_len = 0 then return ctx
  return { ctx with
    pcm_file := ctx.pcm_file ++ (pcm.take pcm_len).take answers.fwrite
    total_bytes := (ctx.total_bytes + pcm_len).bmod (2 ^ 64) }

def on_tts_message (ssl : openssl) (answers : Answers) (data : List UInt8) (ctx : tts_ctx_t) :
    Option tts_ctx_t := do
  let some json := malloc answers.json (size_add data.length 1) | return ctx
  let json ← store json.bytes 0 data
  let json ← store json data.length [0]
  let code ← json_get_int json (literal "code")
  if code ≠ some 0 then api_error json (code.getD (-1)) ctx
  else
    let (sid, _) ← json_get_str json (literal "sid") ctx.sid 64
    let ctx ← receive_audio ssl answers json data.length { ctx with sid }
    let status ← json_get_int json (literal "status")
    -- printed
    let _ ← c_str ctx.sid
    return if status.getD 0 = STATUS_LAST_FRAME then { ctx with done := true } else ctx

/-- The answers of a session, one after the other. -/
def on_tts_messages (ssl : openssl) : List (Answers × Data) → tts_ctx_t → Option tts_ctx_t
  | [], ctx => some ctx
  | (answers, data) :: messages, ctx => do
    let ctx ← on_tts_message ssl answers data.bytes ctx
    on_tts_messages ssl messages ctx

/-- The samples an answer brings. -/
def samples (ssl : openssl) (answers : Answers) (text : List UInt8) : List UInt8 :=
  if answers.audio_b64 && answers.pcm then
    ((raw_str text (literal "audio")).map (decoded ssl)).getD []
  else []

/-- The context with samples written to the file. -/
def tts_ctx_t.store (ctx : tts_ctx_t) (pcm : List UInt8) (fwrite : Nat) : tts_ctx_t :=
  if pcm = [] then ctx
  else { ctx with
    pcm_file := ctx.pcm_file ++ pcm.take fwrite
    total_bytes := (ctx.total_bytes + pcm.length).bmod (2 ^ 64) }

/-- What an answer whose text is `text` does to the context. -/
def received (ssl : openssl) (answers : Answers) (text : List UInt8) (ctx : tts_ctx_t) :
    tts_ctx_t :=
  let sid := (copied ctx.sid 64 (raw_str text (literal "sid"))).1
  if raw_int text (literal "code") = some 0 then
    let ctx := { ctx with sid }.store (samples ssl answers text) answers.fwrite
    if (raw_int text (literal "status")).getD 0 = STATUS_LAST_FRAME then { ctx with done := true }
    else ctx
  else
    { ctx with sid, api_code := (raw_int text (literal "code")).getD (-1), done := true }

/-- `sid` is an array of 64 bytes with a string in it. -/
def tts_ctx_t.Printable (ctx : tts_ctx_t) : Prop :=
  ctx.sid.length = 64 ∧ 0 ∈ ctx.sid

variable {ssl : openssl} {answers : Answers} {data text object : List UInt8} {ctx ctx' : tts_ctx_t}
  {len : Nat}

theorem c_str_of_mem {object : List UInt8} (h : 0 ∈ object) : ∃ s, c_str object = some s :=
  ⟨_, if_pos h⟩

theorem decoded_nil (hssl : ssl.Documented) : decoded ssl [] = [] := by
  have hlength := hssl.decode_length (passed [])
  have hnil : (ssl.decode_block (passed [])).1 = [] :=
    List.eq_nil_of_length_eq_zero (Nat.le_zero.mp (by simpa [passed] using hlength))
  rw [decoded, hnil]
  split <;> simp

theorem store_nil (ctx : tts_ctx_t) (fwrite : Nat) : ctx.store [] fwrite = ctx := if_pos rfl

@[simp] theorem store_sid (ctx : tts_ctx_t) (pcm : List UInt8) (fwrite : Nat) :
    (ctx.store pcm fwrite).sid = ctx.sid := by
  rw [tts_ctx_t.store]
  split <;> rfl

theorem malloc_true {n : Nat} (h : n ≤ PTRDIFF_MAX) : malloc true n = some ⟨buffer n, true⟩ := by
  rw [malloc, Bool.true_and, if_pos (by simpa using h), buffer]

theorem audio_key : 0 ∉ literal "audio" ∧ (literal "audio").length ≤ 59 := by decide

/-- The buffer for the samples is large enough. -/
theorem write_samples {s : List UInt8} (hssl : ssl.Documented) (hempty : ¬ s.length = 0)
    (hmax : s.length * 3 / 4 + 4 ≤ PTRDIFF_MAX) (ctx : tts_ctx_t) :
    (match malloc answers.pcm (s.length * 3 / 4 + 4) with
    | some pcm =>
      (b64_decode ssl s pcm.bytes (s.length * 3 / 4 + 4)).bind fun p =>
        if p.2 = 0 then some ctx
        else
          some { ctx with
            pcm_file := ctx.pcm_file ++ (p.1.take p.2).take answers.fwrite
            total_bytes := (ctx.total_bytes + p.2).bmod (2 ^ 64) }
    | _ => some ctx) =
      some (ctx.store (if answers.pcm = true then decoded ssl s else []) answers.fwrite) := by
  cases answers.pcm with
  | false => exact congrArg some (store_nil ctx _).symm
  | true =>
    have hne : s ≠ [] := fun h => hempty (by rw [h]; rfl)
    have hlength : (buffer (s.length * 3 / 4 + 4)).length = s.length * 3 / 4 + 4 := buffer_length
    have hroom : s.length / 4 * 3 ≤ (buffer (s.length * 3 / 4 + 4)).length := by
      rw [hlength]
      omega
    obtain ⟨rest, hdecode⟩ := b64_decode_spec hssl hne hroom
    rw [hlength] at hdecode
    simp only [malloc_true hmax, hdecode, Option.bind_some, if_true, tts_ctx_t.store,
      List.length_eq_zero_iff, List.take_left' rfl]
    split <;> rfl

/-- The samples of an answer are decoded inside their buffers and written to the file. -/
theorem receive_audio_spec (hssl : ssl.Documented) (hobject : c_str object = some text)
    (htext : text.length ≤ len) (hlen : 3 * (len + 4) < 2 ^ 64) (ctx : tts_ctx_t) :
    receive_audio ssl answers object len ctx =
      some (ctx.store (samples ssl answers text) answers.fwrite) := by
  have hplain : 0 ∉ text := (c_str_eq_some hobject).1
  have hadd : size_add len 4 = len + 4 := size_add_of_lt (by omega)
  have hmax : len + 4 ≤ PTRDIFF_MAX := by
    rw [PTRDIFF_MAX]
    omega
  have hbuffer : len + 4 ≤ (buffer (len + 4)).length := by rw [buffer_length]
  rw [receive_audio, samples, hadd]
  cases answers.audio_b64 with
  | false => exact congrArg some (store_nil ctx _).symm
  | true =>
    rw [malloc_true hmax]
    simp only [json_get_str_spec hobject audio_key.1 audio_key.2 (Nat.succ_pos _) hbuffer hmax,
      Option.bind_eq_bind, Option.bind_some]
    cases hraw : raw_str text (literal "audio") with
    | none => exact congrArg some (by rw [Bool.true_and]; split <;> exact (store_nil ctx _).symm)
    | some s =>
      have hsub := raw_str_sublist hraw
      have hle : s.length ≤ len := hsub.length_le.trans htext
      have hs : s.length < len + 4 := by omega
      obtain ⟨rest, hcopied⟩ := copied_whole (buffer (len + 4)) hs
      have hstr : c_str (s ++ 0 :: rest) = some s :=
        c_str_append (fun hc => hplain (hsub.mem hc)) rest
      simp only [hcopied, hstr, Bool.not_true, Bool.false_eq_true, if_false, Option.bind_some,
        Bool.true_and, Option.map_some, Option.getD_some]
      by_cases hempty : s.length = 0
      · obtain rfl := List.eq_nil_of_length_eq_zero hempty
        rw [decoded_nil hssl, ite_self, store_nil, if_pos hempty]
        rfl
      · have hpcm : size_add (s.length * 3 % 2 ^ 64 / 4) 4 = s.length * 3 / 4 + 4 := by
          rw [Nat.mod_eq_of_lt (by omega), size_add_of_lt (by omega)]
        rw [if_neg hempty, hpcm]
        exact write_samples hssl hempty (by omega) ctx

/-- The object with the message and its NUL. -/
theorem json_object (data : List UInt8) :
    ∃ first, store (buffer (data.length + 1)) 0 data = some first ∧
      store first data.length [0] = some (data ++ [0]) := by
  have hroom : 0 + data.length ≤ (buffer (data.length + 1)).length := by
    rw [buffer_length]
    omega
  have hlast : [0].length ≤ ((buffer (data.length + 1)).drop (0 + data.length)).length := by
    rw [List.length_drop, buffer_length, List.length_singleton]
    omega
  refine ⟨_, store_eq hroom, ?_⟩
  rw [List.take_zero, List.nil_append, store_append rfl hlast]
  simp [buffer]

/-- The text of a message: what stands before its first NUL. -/
def text_of_message (data : List UInt8) : List UInt8 := data.takeWhile (· ≠ 0)

theorem c_str_message (data : List UInt8) : c_str (data ++ [0]) = some (text_of_message data) := by
  rw [c_str, if_pos (by simp), text_of_message, List.takeWhile_append]
  split
  · next hwhole =>
    rw [(List.takeWhile_prefix _).eq_of_length hwhole]
    simp
  · rfl

/-- The fields that are read besides the samples. -/
def keys : List (List UInt8) :=
  [literal "code", literal "status", literal "sid", literal "message"]

theorem keys_ok : ∀ key ∈ keys, 0 ∉ key ∧ key.length ≤ 59 := by decide

theorem get_int {key : List UInt8} (hobject : c_str object = some text) (hkey : key ∈ keys) :
    json_get_int object key = some (raw_int text key) := by
  obtain ⟨hplain, hlen⟩ := keys_ok key hkey
  exact json_get_int_spec hobject hplain (by omega)

/-- A text field is copied into a string, with the string printed afterwards. -/
theorem copy_field {key out : List UInt8} {outlen : Nat} (hobject : c_str object = some text)
    (hkey : key ∈ keys)
    (hout : out.length = outlen) (hmax : outlen ≤ 256) (hzero : 0 ∈ out) :
    json_get_str object key out outlen = some (copied out outlen (raw_str text key)) ∧
      (copied out outlen (raw_str text key)).1.length = outlen ∧
      ∃ s, c_str (copied out outlen (raw_str text key)).1 = some s := by
  have hpos : 0 < outlen := by
    rw [← hout]
    exact List.length_pos_of_mem hzero
  have hobj : outlen ≤ PTRDIFF_MAX := hmax.trans (by decide)
  obtain ⟨hplain, hlen⟩ := keys_ok key hkey
  refine ⟨json_get_str_spec hobject hplain hlen hpos hout.ge hobj, ?_,
    c_str_of_mem (copied_zero_mem hzero)⟩
  rw [copied_length hpos hout.ge, hout]

theorem api_error_spec (hobject : c_str object = some text) (hctx : ctx.Printable) (code : Int) :
    api_error object code ctx = some { ctx with
      sid := (copied ctx.sid 64 (raw_str text (literal "sid"))).1
      api_code := code
      done := true } := by
  have hlength : (literal "(unknown error)" ++ buffer 241).length = 256 := by
    rw [List.length_append, buffer_length]
    rfl
  have hzero : 0 ∈ literal "(unknown error)" ++ buffer 241 :=
    List.mem_append_right _ (List.mem_replicate.mpr ⟨by decide, rfl⟩)
  obtain ⟨hmsg, _, msg, hmsg_str⟩ :=
    copy_field hobject (show literal "message" ∈ keys by simp [keys]) hlength (Nat.le_refl _) hzero
  obtain ⟨hsid, _, sid, hsid_str⟩ :=
    copy_field hobject (show literal "sid" ∈ keys by simp [keys]) hctx.1 (by decide) hctx.2
  simp only [api_error, hmsg, hsid, Option.bind_eq_bind, Option.bind_some, hmsg_str, hsid_str]
  rfl

/-- Whatever a message holds, it is handled inside the buffers. -/
theorem on_tts_message_spec (hssl : ssl.Documented) (hlen : 3 * (data.length + 4) < 2 ^ 64)
    (hctx : ctx.Printable) :
    on_tts_message ssl answers data ctx =
      some (if answers.json then received ssl answers (text_of_message data) ctx else ctx) := by
  have hobject := c_str_message data
  have htext : (text_of_message data).length ≤ data.length := (List.takeWhile_sublist _).length_le
  have hadd : size_add data.length 1 = data.length + 1 := size_add_of_lt (by omega)
  have hmax : data.length + 1 ≤ PTRDIFF_MAX := by
    rw [PTRDIFF_MAX]
    omega
  rw [on_tts_message, hadd]
  cases answers.json with
  | false => rfl
  | true =>
    obtain ⟨first, hfirst, hsecond⟩ := json_object data
    obtain ⟨hsid, hsid_length, sid, hsid_str⟩ :=
      copy_field hobject (show literal "sid" ∈ keys by simp [keys]) hctx.1 (by decide) hctx.2
    have hcode := get_int hobject (show literal "code" ∈ keys by simp [keys])
    have hstatus := get_int hobject (show literal "status" ∈ keys by simp [keys])
    simp only [malloc_true hmax, hfirst, hsecond, hcode, Option.bind_eq_bind, Option.bind_some,
      if_true, received]
    by_cases hok : raw_int (text_of_message data) (literal "code") = some 0
    · rw [if_neg (not_not.mpr hok), if_pos hok, hsid, Option.bind_some,
        receive_audio_spec hssl hobject htext hlen, Option.bind_some, hstatus, Option.bind_some,
        store_sid, hsid_str]
      rfl
    · rw [if_pos hok, if_neg hok]
      exact api_error_spec hobject hctx _

end lws_client.xfyun_tts
