import LwsClientDemo.XfyunTts.Openssl

namespace lws_client.xfyun_tts

open percent_encoding

/-- The text that is encoded for the parameter `authorization`: what fits into its buffer. -/
def authorization (api_key digest : List UInt8) : List UInt8 :=
  (auth_origin_text api_key (base64.encode digest)).take 383

/-- The path with its parameters as they are encoded. -/
def path_text (auth_enc date_enc host_enc : List UInt8) : List UInt8 :=
  TTS_PATH ++ literal "?authorization=" ++ auth_enc ++ literal "&date=" ++ date_enc ++
    literal "&host=" ++ host_enc

variable {ssl : openssl} {date api_key api_secret digest out : List UInt8} {outlen : Nat}

theorem hmac_sha256_b64_eq (hssl : ssl.Documented) {key data : List UInt8}
    (hhmac : ssl.hmac_sha256 (passed key) (passed data) = some digest) :
    ∃ rest, hmac_sha256_b64 ssl key data (buffer 64) 64 =
      some (base64.encode digest ++ 0 :: rest, 0) := by
  have hlength := hssl.digest_length (passed key) (passed data) digest hhmac
  have hint : (digest.length : Int) ≤ INT_MAX := by
    rw [hlength]
    decide
  have hpassed := passed_eq hint
  have hletters : (base64.encode digest).length = 44 := by rw [base64.encode_length, hlength]
  have hmax : ((64 : Nat) : Int) ≤ INT_MAX := by decide
  have hroom : (base64.encode (passed digest)).length < 64 := by
    rw [hpassed, hletters]
    decide
  obtain ⟨rest, hencode⟩ := b64_encode_fits hssl buffer_length hmax hroom
  have hfits : 0 + digest.length ≤ (buffer 32).length := by
    rw [buffer_length, hlength]
  rw [hpassed, hletters] at hencode
  refine ⟨rest, ?_⟩
  rw [passed, passed] at hhmac
  simp only [hmac_sha256_b64, hhmac, store_eq hfits, List.take_zero, List.nil_append,
    List.take_left' rfl, Option.bind_eq_bind, Option.bind_some, hencode]
  rfl

theorem sig_origin_length : (sig_origin_text date).length = 49 + date.length := by
  have hfixed : (sig_origin_text []).length = 49 := by decide
  simp only [sig_origin_text, List.length_append, List.length_nil] at hfixed ⊢
  omega

theorem auth_origin_length (api_key : List UInt8) (hdigest : digest.length = 32) :
    (auth_origin_text api_key (base64.encode digest)).length = 127 + api_key.length := by
  have hletters : (base64.encode digest).length = 44 := by rw [base64.encode_length, hdigest]
  have hfixed : (auth_origin_text [] []).length = 83 := by decide
  simp only [auth_origin_text, List.length_append, List.length_nil] at hfixed ⊢
  omega

theorem path_text_length (auth_enc date_enc host_enc : List UInt8) :
    (path_text auth_enc date_enc host_enc).length =
      34 + auth_enc.length + date_enc.length + host_enc.length := by
  have hfixed : (path_text [] [] []).length = 34 := by decide
  simp only [path_text, List.length_append, List.length_nil] at hfixed ⊢
  omega

theorem sig_origin_plain (hdate : 0 ∉ date) : 0 ∉ sig_origin_text date := by
  simp only [sig_origin_text, List.mem_append, not_or]
  exact ⟨⟨⟨⟨⟨⟨by decide, by decide⟩, by decide⟩, hdate⟩, by decide⟩, by decide⟩, by decide⟩

theorem auth_origin_plain (hkey : 0 ∉ api_key) :
    0 ∉ auth_origin_text api_key (base64.encode digest) := by
  simp only [auth_origin_text, List.mem_append, not_or]
  exact ⟨⟨⟨⟨⟨by decide, hkey⟩, by decide⟩, by decide⟩, (base64.encode_plain _).1⟩, by decide⟩

theorem path_text_plain {auth_enc date_enc host_enc : List UInt8} (hauth : 0 ∉ auth_enc)
    (hdate : 0 ∉ date_enc) (hhost : 0 ∉ host_enc) : 0 ∉ path_text auth_enc date_enc host_enc := by
  simp only [path_text, List.mem_append, not_or]
  exact ⟨⟨⟨⟨⟨⟨by decide, by decide⟩, hauth⟩, by decide⟩, hdate⟩, by decide⟩, hhost⟩

/-- What `build_tts_path` does once the authorization is encoded. -/
def encode_parameters (date auth_b64 out : List UInt8) (outlen : Nat) :
    Option (List UInt8 × Int) := do
  let auth_enc ← url_encode auth_b64 (buffer 768) 768
  let date_enc ← url_encode (date ++ [0]) (buffer 128) 128
  let host_enc ← url_encode (TTS_SIG_HOST ++ [0]) (buffer 64) 64
  let (out, n) ← snprintf out outlen
    (path_text (← c_str auth_enc) (← c_str date_enc) (← c_str host_enc))
  return (out, if 0 < n ∧ n < outlen then 0 else -1)

/-- Up to there every buffer is large enough, as long as the key is not too long. -/
theorem build_tts_path_eq (hssl : ssl.Documented)
    (hhmac : ssl.hmac_sha256 (passed api_secret) (sig_origin_text date) = some digest)
    (hdate : 0 ∉ date) (hlen : date.length < 64) (hkey : 0 ∉ api_key) :
    build_tts_path ssl date api_key api_secret out outlen =
      (b64_encode ssl (authorization api_key digest) (buffer 512) 512).bind fun p =>
        encode_parameters date p.1 out outlen := by
  have hroom : (sig_origin_text date).length < 512 := by
    rw [sig_origin_length]
    omega
  obtain ⟨z, n, horigin⟩ := snprintf_buffer hroom
  have hint : ((sig_origin_text date).length : Int) ≤ INT_MAX := by
    have hmax : (512 : Int) ≤ INT_MAX := by decide
    omega
  rw [← passed_eq hint] at hhmac
  obtain ⟨rest, hsig⟩ := hmac_sha256_b64_eq hssl hhmac
  have hletters_plain : 0 ∉ base64.encode digest := (base64.encode_plain digest).1
  have hauth_plain : 0 ∉ authorization api_key digest :=
    fun hc => auth_origin_plain hkey (List.mem_of_mem_take hc)
  obtain ⟨z', n', hauth⟩ : ∃ z n, snprintf (buffer 384) 384
      (auth_origin_text api_key (base64.encode digest)) =
        some (authorization api_key digest ++ 0 :: z, n) :=
    ⟨_, _, snprintf_eq (by decide) buffer_length.ge⟩
  simp only [build_tts_path, horigin, Option.bind_eq_bind, Option.bind_some, hsig, hauth,
    c_str_append (sig_origin_plain hdate), c_str_append hletters_plain, c_str_append hauth_plain]
  exact if_neg (not_not.mpr rfl)

/-- A string that is short for its buffer is encoded whole. -/
theorem url_encode_whole {s : List UInt8} {n : Nat} (hs : 0 ∉ s)
    (hroom : (encode unreserved s).length + 4 < n) (hmax : n ≤ PTRDIFF_MAX) :
    ∃ rest, url_encode (s ++ [0]) (buffer n) n = some (encode unreserved s ++ 0 :: rest) := by
  have hinp : c_str (s ++ [0]) = some s := c_str_append hs []
  obtain ⟨k, hk, rest, hrun, _, hstop, _⟩ := url_encode_buffer hinp (by omega) hmax
  have hwhole : k = s.length := by
    by_contra hne
    have := hstop (by omega)
    have hle : (encode unreserved (s.take k)).length ≤ (encode unreserved s).length :=
      encode_length_prefix k
    omega
  rw [hwhole, List.take_length] at hrun
  exact ⟨rest, hrun⟩

theorem host_plain : 0 ∉ TTS_SIG_HOST := by decide

theorem host_encoded : encode unreserved TTS_SIG_HOST = TTS_SIG_HOST := by decide

theorem parameter_plain {bytes : List UInt8} : 0 ∉ encode unreserved bytes :=
  zero_notMem_encode (by decide)

/-- The three parameters are encoded, the authorization as far as its buffer goes. -/
theorem encode_parameters_spec {auth_b64 letters : List UInt8}
    (hauth : c_str auth_b64 = some letters) (hdate : 0 ∉ date) (hlen : date.length ≤ 41)
    (houtlen : 992 ≤ outlen) (hout : outlen ≤ out.length) :
    ∃ k ≤ letters.length, ∃ rest, encode_parameters date auth_b64 out outlen =
        some (path_text (encode unreserved (letters.take k)) (encode unreserved date)
          TTS_SIG_HOST ++ 0 :: rest, 0) ∧
      (k = letters.length ↔
        letters = [] ∨ (encode unreserved letters.dropLast).length + 4 < 768) := by
  obtain ⟨k, hk, rest, hauth_enc, hauth_len, hstop, hbefore⟩ :=
    url_encode_buffer (n := 768) hauth (by decide) (by decide)
  have hdate_len : (encode unreserved date).length ≤ 3 * date.length := encode_length_le
  obtain ⟨rest_date, hdate_enc⟩ := url_encode_whole (n := 128) hdate (by omega) (by decide)
  have hhost_len : (encode unreserved TTS_SIG_HOST).length + 4 < 64 := by decide
  obtain ⟨rest_host, hhost_enc⟩ := url_encode_whole host_plain hhost_len (by decide)
  rw [host_encoded] at hhost_enc
  have hhost : TTS_SIG_HOST.length = 15 := by decide
  have hpath_len :=
    path_text_length (encode unreserved (letters.take k)) (encode unreserved date) TTS_SIG_HOST
  have hmax : (992 : Int) ≤ INT_MAX := by decide
  refine ⟨k, hk, ?_⟩
  simp only [encode_parameters, hauth_enc, hdate_enc, hhost_enc, Option.bind_eq_bind,
    Option.bind_some, c_str_append parameter_plain, c_str_append host_plain]
  generalize path_text (encode unreserved (letters.take k)) (encode unreserved date) TTS_SIG_HOST =
    path at hpath_len
  rw [snprintf_eq (by omega) hout, Option.bind_some, List.take_of_length_le (by omega),
    if_pos (by omega)]
  refine ⟨_, congrArg (fun n => some (_, n)) (if_pos ?_), whole_iff hk hstop hbefore⟩
  omega

theorem authorization_length (api_key : List UInt8) (hdigest : digest.length = 32) :
    (authorization api_key digest).length = min 383 (127 + api_key.length) := by
  rw [authorization, List.length_take, auth_origin_length api_key hdigest]

theorem authorization_passed (api_key : List UInt8) (hdigest : digest.length = 32) :
    passed (authorization api_key digest) = authorization api_key digest := by
  have hlength := authorization_length api_key hdigest
  have hmax : (383 : Int) ≤ INT_MAX := by decide
  exact passed_eq (by omega)

/-- The buffer of the base64 form has no room for the letters of 382 bytes. -/
theorem authorization_overruns (hssl : ssl.Documented) (hdigest : digest.length = 32)
    (hlong : 255 ≤ api_key.length) :
    b64_encode ssl (authorization api_key digest) (buffer 512) 512 = none := by
  have hlength := authorization_length api_key hdigest
  refine b64_encode_overruns hssl ?_
  rw [authorization_passed api_key hdigest, base64.encode_length, buffer_length]
  omega

/-- With a shorter key the whole authorization is encoded. -/
theorem authorization_encoded (hssl : ssl.Documented) (hdigest : digest.length = 32)
    (hshort : api_key.length < 255) :
    ∃ rest n, b64_encode ssl (authorization api_key digest) (buffer 512) 512 =
      some (base64.encode (auth_origin_text api_key (base64.encode digest)) ++ 0 :: rest, n) := by
  have hlength := auth_origin_length api_key hdigest
  have hwhole : authorization api_key digest = auth_origin_text api_key (base64.encode digest) :=
    List.take_of_length_le (by omega)
  have hpassed := authorization_passed api_key hdigest
  rw [hwhole] at hpassed ⊢
  have hmax : ((512 : Nat) : Int) ≤ INT_MAX := by decide
  have hroom : (base64.encode (passed (auth_origin_text api_key (base64.encode digest)))).length <
      512 := by
    rw [hpassed, base64.encode_length]
    omega
  obtain ⟨rest, hencode⟩ := b64_encode_fits hssl buffer_length hmax hroom
  rw [hpassed] at hencode
  exact ⟨rest, _, hencode⟩

/-- The text of the authorization overruns the buffer of its base64 form exactly for a key of 255
    bytes or more. For a shorter key there is a path to connect to, whose parameters decode to the
    date and to the authorization, or to the part of it for which there was room. -/
theorem build_tts_path_outcome (hssl : ssl.Documented)
    (hhmac : ssl.hmac_sha256 (passed api_secret) (sig_origin_text date) = some digest)
    (hdate : 0 ∉ date) (hlen : date.length ≤ 41) (hkey : 0 ∉ api_key)
    (houtlen : 992 ≤ outlen) (hout : outlen ≤ out.length) :
    (build_tts_path ssl date api_key api_secret out outlen = none ↔ 255 ≤ api_key.length) ∧
    (api_key.length < 255 → ∃ k out' auth_enc date_enc,
      build_tts_path ssl date api_key api_secret out outlen = some (out', 0) ∧
      c_str out' = some (path_text auth_enc date_enc TTS_SIG_HOST) ∧
      decode date_enc = some date ∧
      decode auth_enc =
        some ((base64.encode (auth_origin_text api_key (base64.encode digest))).take k) ∧
      (k = (base64.encode (auth_origin_text api_key (base64.encode digest))).length ↔
        (encode unreserved
          (base64.encode (auth_origin_text api_key (base64.encode digest))).dropLast).length + 4 <
            768)) := by
  have hdigest := hssl.digest_length _ _ digest hhmac
  rw [build_tts_path_eq hssl hhmac hdate (by omega) hkey]
  by_cases hlong : 255 ≤ api_key.length
  · rw [authorization_overruns hssl hdigest hlong]
    exact ⟨by simpa using hlong, fun h => absurd hlong (Nat.not_le.mpr h)⟩
  · obtain ⟨rest, n, hencode⟩ := authorization_encoded hssl hdigest (Nat.not_le.mp hlong)
    have hstr := c_str_append
      (base64.encode_plain (auth_origin_text api_key (base64.encode digest))).1 rest
    obtain ⟨k, _, rest', hrun, hiff⟩ := encode_parameters_spec hstr hdate hlen houtlen hout
    rw [hencode, Option.bind_some, hrun]
    refine ⟨by simpa using hlong, fun _ => ⟨k, _, _, _, rfl, ?_, decode_unreserved _,
      decode_unreserved _, ?_⟩⟩
    · exact c_str_append (path_text_plain parameter_plain parameter_plain host_plain) _
    · rw [hiff]
      refine or_iff_right fun hnil => ?_
      have hletters := base64.encode_length (auth_origin_text api_key (base64.encode digest))
      rw [hnil, auth_origin_length api_key hdigest, List.length_nil] at hletters
      omega

/-- The digest of the text that is signed on that day, under the key `sec`. -/
def digest_sec : List UInt8 :=
  [46, 167, 250, 201, 117, 49, 204, 252, 17, 151, 179, 4, 228, 204, 218, 237, 245, 82, 229, 168,
    208, 102, 175, 230, 149, 41, 224, 4, 171, 225, 38, 86]

theorem build_tts_path_outcome_sec :
    (build_tts_path (.reference digest_sec) (literal "Fri, 20 Nov 2026 09:10:11 GMT")
      (literal "key") (literal "sec") (buffer 2048) 2048 = none ↔ 255 ≤ (literal "key").length) ∧
    ((literal "key").length < 255 → ∃ k out' auth_enc date_enc,
      build_tts_path (.reference digest_sec) (literal "Fri, 20 Nov 2026 09:10:11 GMT")
        (literal "key") (literal "sec") (buffer 2048) 2048 = some (out', 0) ∧
      c_str out' = some (path_text auth_enc date_enc TTS_SIG_HOST) ∧
      decode date_enc = some (literal "Fri, 20 Nov 2026 09:10:11 GMT") ∧
      decode auth_enc =
        some ((base64.encode
          (auth_origin_text (literal "key") (base64.encode digest_sec))).take k) ∧
      (k = (base64.encode (auth_origin_text (literal "key") (base64.encode digest_sec))).length ↔
        (encode unreserved
          (base64.encode (auth_origin_text (literal "key")
            (base64.encode digest_sec))).dropLast).length + 4 < 768)) :=
  build_tts_path_outcome (openssl.reference_documented (by decide)) rfl (by decide) (by decide)
    (by decide) (by decide) buffer_length.ge

end lws_client.xfyun_tts
