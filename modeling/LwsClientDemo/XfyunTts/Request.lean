import LwsClientDemo.XfyunTts.Openssl

namespace lws_client.xfyun_tts

open json

/-- The document that is sent. -/
def request_doc (appid text_b64 : Text) : Value :=
  .obj
    (.cons (plain "common" (by decide)) (.obj
      (.cons (plain "app_id" (by decide)) (.str appid) .nil))
    (.cons (plain "business" (by decide)) (.obj
      (.cons (plain "aue" (by decide)) (.str ⟨TTS_AUE, by decide⟩)
      (.cons (plain "auf" (by decide)) (.str ⟨TTS_AUF, by decide⟩)
      (.cons (plain "vcn" (by decide)) (.str ⟨TTS_VCN, by decide⟩)
      (.cons (plain "tte" (by decide)) (.str ⟨TTS_TTE, by decide⟩) .nil)))))
    (.cons data_name (.obj
      (.cons status_name (.num STATUS_LAST_FRAME)
      (.cons (plain "text" (by decide)) (.str text_b64) .nil))) .nil)))

theorem request_text_eq (appid text_b64 : Text) :
    request_text appid.bytes text_b64.bytes = (request_doc appid text_b64).print [] := by
  simp only [request_text, request_doc, Value.print, Members.print, Members.printTail, quoted,
    List.append_assoc, List.cons_append, List.nil_append, List.append_nil, plain, data_name,
    status_name]
  rfl

variable {ssl : openssl} {out out' text appid : List UInt8} {outlen : Nat}

/-- The letters of a text, which can stand in a document. -/
def letters (text : List UInt8) : Text :=
  ⟨base64.encode text, base64.encode_plain text⟩

theorem letters_bytes : (letters text).bytes = base64.encode text := rfl

/-- The request for a text. -/
def sent (appid text : List UInt8) : List UInt8 := request_text appid (base64.encode (passed text))

theorem sent_length_pos (appid text : List UInt8) : 0 < (sent appid text).length := by
  have hopen : 0 < (literal "\x7b").length := by decide
  rw [sent, request_text, List.append_assoc, List.length_append]
  exact Nat.add_pos_left hopen _

/-- The text is encoded into the buffer of `build_request_json` if it is not too long for it. -/
theorem text_b64_fits (hssl : ssl.Documented) (hlen : (passed text).length ≤ 3069) :
    ∃ rest, b64_encode ssl text (buffer 4096) 4096 =
      some (base64.encode (passed text) ++ 0 :: rest, (base64.encode (passed text)).length) := by
  have hmax : ((4096 : Nat) : Int) ≤ INT_MAX := by decide
  have hroom : (base64.encode (passed text)).length < 4096 := by
    rw [base64.encode_length]
    omega
  exact b64_encode_fits hssl buffer_length hmax hroom

theorem text_b64_overruns (hssl : ssl.Documented) (hlen : 3069 < (passed text).length) :
    b64_encode ssl text (buffer 4096) 4096 = none := by
  refine b64_encode_overruns hssl ?_
  rw [base64.encode_length, buffer_length]
  omega

theorem build_request_json_empty (hssl : ssl.Documented) (hnil : passed text = []) :
    build_request_json ssl appid text out outlen = some (out, -1) := by
  have hlen : (passed text).length ≤ 3069 := by simp [hnil]
  obtain ⟨rest, hencode⟩ := text_b64_fits hssl hlen
  rw [build_request_json, hencode, hnil]
  rfl

/-- What becomes of a text that is encoded. -/
theorem build_request_json_eq (hssl : ssl.Documented) (hpos : 0 < outlen)
    (hout : outlen ≤ out.length) (hmax : (outlen : Int) ≤ INT_MAX)
    (hlen : (passed text).length ≤ 3069) (hne : passed text ≠ []) :
    build_request_json ssl appid text out outlen =
      some ((sent appid text).take (outlen - 1) ++
        0 :: out.drop (((sent appid text).take (outlen - 1)).length + 1),
          if (sent appid text).length < outlen then (0 : Int) else -1) := by
  obtain ⟨rest, hencode⟩ := text_b64_fits hssl hlen
  have hstr : c_str (base64.encode (passed text) ++ 0 :: rest) =
      some (base64.encode (passed text)) :=
    c_str_append (base64.encode_plain (passed text)).1 rest
  have hletters : (base64.encode (passed text)).length ≠ 0 := by
    have := List.length_pos_iff.mpr hne
    rw [base64.encode_length]
    omega
  have hsent := sent_length_pos appid text
  rw [build_request_json, hencode, Option.bind_eq_bind, Option.bind_some]
  refine (if_neg hletters).trans ?_
  rw [hstr, Option.bind_eq_bind, Option.bind_some, ← sent, snprintf_eq hpos hout,
    Option.bind_eq_bind, Option.bind_some]
  refine congrArg (fun n => some (_, n)) ?_
  generalize (sent appid text).length = n at hsent
  split <;> split <;> split <;> omega

theorem build_request_json_none_iff (hssl : ssl.Documented) (hpos : 0 < outlen)
    (hout : outlen ≤ out.length) (hmax : (outlen : Int) ≤ INT_MAX) :
    build_request_json ssl appid text out outlen = none ↔ 3069 < (passed text).length := by
  refine ⟨fun hnone => ?_, fun hlong => ?_⟩
  · by_contra hlen
    by_cases hnil : passed text = []
    · rw [build_request_json_empty hssl hnil] at hnone
      cases hnone
    · rw [build_request_json_eq hssl hpos hout hmax (Nat.not_lt.mp hlen) hnil] at hnone
      cases hnone
  · rw [build_request_json, text_b64_overruns hssl hlong]
    rfl

theorem build_request_json_ok_iff (hssl : ssl.Documented) (hpos : 0 < outlen)
    (hout : outlen ≤ out.length) (hmax : (outlen : Int) ≤ INT_MAX) :
    (∃ out', build_request_json ssl appid text out outlen = some (out', 0)) ↔
      0 < (passed text).length ∧ (passed text).length ≤ 3069 ∧
        (sent appid text).length < outlen := by
  by_cases hlong : 3069 < (passed text).length
  · have hnone : build_request_json ssl appid text out outlen = none :=
      (build_request_json_none_iff hssl hpos hout hmax).mpr hlong
    rw [hnone]
    exact ⟨by simp, fun h => absurd h.2.1 (Nat.not_le.mpr hlong)⟩
  · have hlen : (passed text).length ≤ 3069 := Nat.not_lt.mp hlong
    by_cases hnil : passed text = []
    · rw [build_request_json_empty hssl hnil]
      simp [hnil]
    · have hne : 0 < (passed text).length := List.length_pos_iff.mpr hnil
      rw [build_request_json_eq hssl hpos hout hmax hlen hnil]
      generalize (sent appid text).length = n
      refine ⟨?_, ?_⟩
      · rintro ⟨out', hrun⟩
        have hresult := (Prod.mk.inj (Option.some.inj hrun)).2
        split at hresult
        · next hfits => exact ⟨hne, hlen, hfits⟩
        · cases hresult
      · rintro ⟨_, _, hfits⟩
        exact ⟨_, by rw [if_pos hfits]⟩

/-- `build_request_json` overruns its buffer exactly for a text of more than 3069 bytes, and has
    a request to send exactly for a text that is not empty if the whole request fits. -/
theorem build_request_json_outcome (hssl : ssl.Documented) (hpos : 0 < outlen)
    (hout : outlen ≤ out.length) (hmax : (outlen : Int) ≤ INT_MAX) :
    (build_request_json ssl appid text out outlen = none ↔
      3069 < (int_of_size text.length).toNat) ∧
    ((∃ out', build_request_json ssl appid text out outlen = some (out', 0)) ↔
      0 < (int_of_size text.length).toNat ∧ (int_of_size text.length).toNat ≤ 3069 ∧
        (sent appid text).length < outlen) := by
  rw [← passed_length]
  exact ⟨build_request_json_none_iff hssl hpos hout hmax,
    build_request_json_ok_iff hssl hpos hout hmax⟩

/-- A text of two bytes is sent if the whole request fits. -/
theorem build_request_json_outcome_hi :
    (build_request_json (.reference (buffer 32)) (literal "app1") (literal "hi") (buffer 200) 200 =
      none ↔ 3069 < (int_of_size (literal "hi").length).toNat) ∧
    ((∃ out', build_request_json (.reference (buffer 32)) (literal "app1") (literal "hi")
      (buffer 200) 200 = some (out', 0)) ↔
        0 < (int_of_size (literal "hi").length).toNat ∧
          (int_of_size (literal "hi").length).toNat ≤ 3069 ∧
            (sent (literal "app1") (literal "hi")).length < 200) :=
  build_request_json_outcome (openssl.reference_documented (by decide)) (by decide)
    (by rw [buffer_length]) (by decide)

/-- What the fields of the request hold, as `json_get_int` and `json_get_str` read them. -/
theorem request_fields (appid text_b64 : Text) :
    int_field (request_doc appid text_b64) (literal "status") = some STATUS_LAST_FRAME ∧
      str_field [] (request_doc appid text_b64) (literal "app_id") = some appid.bytes ∧
      str_field [] (request_doc appid text_b64) (literal "text") = some text_b64.bytes :=
  ⟨rfl, rfl, rfl⟩

theorem names_ok : ∀ key ∈ [literal "status", literal "app_id", literal "text"],
    Name key ∧ 0 ∉ key ∧ key.length ≤ 59 := by
  decide

theorem sent_eq_print (appid : Text) :
    sent appid.bytes text = (request_doc appid (letters (passed text))).print [] := by
  rw [← request_text_eq, letters_bytes]
  rfl

/-- The letters of a text that was not too long are decoded to that text. -/
theorem text_decoded (hssl : ssl.Documented) (hempty : 0 < (passed text).length)
    (hlong : (passed text).length ≤ 3069) {pcm : List UInt8} (hpcm : 3072 ≤ pcm.length) :
    ∃ rest, b64_decode ssl (base64.encode (passed text)) pcm pcm.length =
      some (passed text ++ rest, (passed text).length) := by
  have hletters := base64.encode_length (passed text)
  have hsome : base64.encode (passed text) ≠ [] := by
    intro hnil
    rw [hnil, List.length_nil] at hletters
    omega
  have hint : ((base64.encode (passed text)).length : Int) ≤ INT_MAX := by
    have hmax : (4092 : Int) ≤ INT_MAX := by decide
    omega
  have hroom : (base64.encode (passed text)).length / 4 * 3 ≤ pcm.length := by omega
  obtain ⟨rest, hdecode⟩ := b64_decode_spec hssl hsome hroom
  rw [decoded_encode hssl (List.length_pos_iff.mp hempty) hint] at hdecode
  exact ⟨rest, hdecode⟩

/-- The request that is sent holds the application, the status and the text, as the functions
    that read the answers would read them. -/
theorem request_read_back (hssl : ssl.Documented) (hpos : 0 < outlen) (hout : outlen ≤ out.length)
    (hmax : (outlen : Int) ≤ INT_MAX) (appid : Text)
    (hrun : build_request_json ssl appid.bytes text out outlen = some (out', 0)) :
    json_get_int out' (literal "status") = some (some STATUS_LAST_FRAME) ∧
    (∀ buf, appid.bytes.length < buf.length → buf.length ≤ PTRDIFF_MAX →
      ∃ rest, json_get_str out' (literal "app_id") buf buf.length =
        some (appid.bytes ++ 0 :: rest, true)) ∧
    ∀ buf, 4096 ≤ buf.length → buf.length ≤ PTRDIFF_MAX →
      ∃ text_b64 rest, json_get_str out' (literal "text") buf buf.length =
        some (text_b64 ++ 0 :: rest, true) ∧
      ∀ pcm, 3072 ≤ pcm.length → ∃ rest', b64_decode ssl text_b64 pcm pcm.length =
        some (text.take (int_of_size text.length).toNat ++ rest',
          (int_of_size text.length).toNat) := by
  obtain ⟨hempty, hlong, hfits⟩ :=
    (build_request_json_ok_iff hssl hpos hout hmax).mp ⟨out', hrun⟩
  have hne : passed text ≠ [] := List.length_pos_iff.mp hempty
  rw [build_request_json_eq hssl hpos hout hmax hlong hne,
    List.take_of_length_le (by omega)] at hrun
  obtain rfl := (Prod.mk.inj (Option.some.inj hrun)).1
  have hgap : ∀ c ∈ ([] : List UInt8), c = 32 := List.forall_mem_nil _
  obtain ⟨hstatus, happid, htext⟩ := request_fields appid (letters (passed text))
  obtain ⟨hn_status, hk_status, hl_status⟩ := names_ok (literal "status") (by simp)
  obtain ⟨hn_appid, hk_appid, hl_appid⟩ := names_ok (literal "app_id") (by simp)
  obtain ⟨hn_text, hk_text, hl_text⟩ := names_ok (literal "text") (by simp)
  rw [letters_bytes] at htext
  rw [sent_eq_print]
  have hobject := c_str_append (print_plain (request_doc appid (letters (passed text))) hgap)
    (out.drop (((request_doc appid (letters (passed text))).print []).length + 1))
  refine ⟨?_, fun buf hroom hbuf => ?_, fun buf hroom hbuf => ?_⟩
  · rw [json_get_int_spec hobject hk_status (by omega), raw_int_print hn_status hgap, hstatus]
  · obtain ⟨rest, hcopied⟩ := copied_whole buf hroom
    refine ⟨rest, ?_⟩
    rw [json_get_str_spec hobject hk_appid hl_appid (by omega) (Nat.le_refl _) hbuf,
      raw_str_print hn_appid hgap, happid, hcopied]
  · have hletters : (base64.encode (passed text)).length ≤ 4092 := by
      rw [base64.encode_length]
      omega
    have hwhole : (base64.encode (passed text)).length < buf.length := by omega
    obtain ⟨rest, hcopied⟩ := copied_whole buf hwhole
    refine ⟨base64.encode (passed text), rest, ?_, fun pcm hpcm => ?_⟩
    · rw [json_get_str_spec hobject hk_text hl_text (by omega) (Nat.le_refl _) hbuf,
        raw_str_print hn_text hgap, htext, hcopied]
    · obtain ⟨rest', hdecode⟩ := text_decoded hssl hempty hlong hpcm
      rw [passed_length] at hdecode
      exact ⟨rest', hdecode⟩

theorem request_read_back_hi :
    ∃ out', build_request_json (.reference (buffer 32)) (literal "app1") (literal "hi")
      (buffer 200) 200 = some (out', 0) ∧
    json_get_int out' (literal "status") = some (some STATUS_LAST_FRAME) ∧
    (∀ buf, (literal "app1").length < buf.length → buf.length ≤ PTRDIFF_MAX →
      ∃ rest, json_get_str out' (literal "app_id") buf buf.length =
        some (literal "app1" ++ 0 :: rest, true)) ∧
    ∀ buf, 4096 ≤ buf.length → buf.length ≤ PTRDIFF_MAX →
      ∃ text_b64 rest, json_get_str out' (literal "text") buf buf.length =
        some (text_b64 ++ 0 :: rest, true) ∧
      ∀ pcm, 3072 ≤ pcm.length → ∃ rest',
        b64_decode (.reference (buffer 32)) text_b64 pcm pcm.length =
          some ((literal "hi").take (int_of_size (literal "hi").length).toNat ++ rest',
            (int_of_size (literal "hi").length).toNat) := by
  have hssl : (openssl.reference (buffer 32)).Documented := openssl.reference_documented (by decide)
  have hout : 200 ≤ (buffer 200).length := by rw [buffer_length]
  have hfits : 0 < (passed (literal "hi")).length ∧ (passed (literal "hi")).length ≤ 3069 ∧
      (sent (literal "app1") (literal "hi")).length < 200 := by
    decide +kernel
  obtain ⟨out', hrun⟩ := (build_request_json_ok_iff hssl (by decide) hout (by decide)).mpr hfits
  exact ⟨out', hrun, request_read_back hssl (by decide) hout (by decide)
    (plain "app1" (by decide)) hrun⟩

end lws_client.xfyun_tts
