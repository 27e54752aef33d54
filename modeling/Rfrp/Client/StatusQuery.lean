import Rfrp.Client.Status
import Rfrp.Common.Utf8
import Rfrp.Server.RequestBody

/-!
# The status of a client, asked for and read

The command `client status` prints what the endpoint has answered after its head.  However the request
and the response are divided into reads, this is the text of the state, and the state is read back from
it; a request that the rate limiter has refused is reported as such (`client_status_query`).
-/

namespace Rfrp

namespace Status

open Http (Read RequestHead Parsed readRequestHead writeResponse crlfCrlf maxRequestHead reason)
open Dashboard (IsHead readRequestHead_of_chunks)

/-! ## The head of the request -/

/-- The bytes of a character that is not ASCII are not ASCII. -/
lemma le_of_mem_utf8EncodeChar {c : Char} {b : UInt8} (h : 128 ≤ c.toNat)
    (hb : b ∈ String.utf8EncodeChar c) : 128 ≤ b.toNat := by
  have hlarge : ¬c.val.toNat ≤ 127 := by
    rw [Nat.not_le]
    exact h
  unfold String.utf8EncodeChar at hb
  dsimp only at hb
  rw [if_neg hlarge] at hb
  split at hb
  · simp only [List.mem_cons, List.not_mem_nil, or_false] at hb
    rcases hb with rfl | rfl <;> (rw [toNat_byte (by omega)]; omega)
  split at hb
  · simp only [List.mem_cons, List.not_mem_nil, or_false] at hb
    rcases hb with rfl | rfl | rfl <;> (rw [toNat_byte (by omega)]; omega)
  · simp only [List.mem_cons, List.not_mem_nil, or_false] at hb
    rcases hb with rfl | rfl | rfl | rfl <;> (rw [toNat_byte (by omega)]; omega)

/-- A text without carriage returns has none in its bytes. -/
lemma return_notMem_bytes {s : String} (h : '\r' ∉ s.toList) : (13 : UInt8) ∉ bytes s := by
  intro hmem
  rw [bytes_eq] at hmem
  obtain ⟨c, hc, hb⟩ := List.mem_flatMap.mp hmem
  rcases Nat.lt_or_ge c.toNat 128 with hascii | hlarge
  · rw [utf8EncodeChar_ascii hascii, List.mem_singleton] at hb
    have hcode : c.toNat = 13 := by
      have := congrArg UInt8.toNat hb
      rw [toNat_byte (by omega)] at this
      exact this.symm
    exact h (by rwa [← show c = '\r' from Char.ofNat_toNat c ▸ hcode ▸ rfl])
  · exact absurd (le_of_mem_utf8EncodeChar hlarge hb) (by decide)

/-- An empty line does not begin within a line. -/
lemma infix_of_line {x y : List UInt8} (hx : (13 : UInt8) ∉ x) (h : crlfCrlf <:+: x ++ 13 :: 10 :: y) :
    [13, 10] <+: y ∨ crlfCrlf <:+: y := by
  induction x with
  | nil =>
    rcases List.infix_cons_iff.mp h with hpre | hinfix
    · exact .inl ((List.prefix_cons_inj 10).mp ((List.prefix_cons_inj 13).mp hpre))
    rcases List.infix_cons_iff.mp hinfix with hpre | hinfix
    · exact absurd (List.cons_prefix_cons.mp hpre).1 (by decide)
    · exact .inr hinfix
  | cons b x ih =>
    rw [List.mem_cons, not_or] at hx
    rcases List.infix_cons_iff.mp h with hpre | hinfix
    · exact absurd (List.cons_prefix_cons.mp hpre).1 hx.1
    · exact ih hx.2 hinfix

/-- The bytes of two texts are those of the first and then those of the second. -/
lemma bytes_append (s t : String) : bytes (s ++ t) = bytes s ++ bytes t := by
  rw [bytes_eq, bytes_eq, bytes_eq, String.toList_append, List.flatMap_append]

/-- Lines with something in them leave no room for an empty one. -/
lemma no_emptyLine {lines : List (List UInt8)} (h : ∀ l ∈ lines, l ≠ [] ∧ (13 : UInt8) ∉ l) :
    ¬crlfCrlf <:+: lines.flatMap (· ++ [13, 10]) ++ [13] := by
  induction lines with
  | nil => decide
  | cons l lines ih =>
    rw [List.forall_mem_cons] at h
    intro hline
    rw [List.flatMap_cons, List.append_assoc, List.append_assoc] at hline
    rcases infix_of_line h.1.2 hline with hpre | hinfix
    · cases lines with
      | nil => exact absurd hpre (by decide)
      | cons l' lines =>
        obtain ⟨hne, hreturn⟩ := h.2 l' List.mem_cons_self
        obtain ⟨b, l', rfl⟩ := List.exists_cons_of_ne_nil hne
        exact hreturn (List.mem_cons.mpr (.inl (List.cons_prefix_cons.mp hpre).1))
    · exact ih h.2 hinfix

/-- Lines and an empty line after them are a head. -/
lemma isHead_of_lines {lines : List (List UInt8)} (hne : lines ≠ [])
    (h : ∀ l ∈ lines, l ≠ [] ∧ (13 : UInt8) ∉ l) :
    IsHead (lines.flatMap (· ++ [13, 10]) ++ [13, 10]) := by
  refine ⟨?_, fun hline => no_emptyLine h ?_⟩
  · obtain ⟨before, last, rfl⟩ := (List.eq_nil_or_concat lines).resolve_left hne
    refine ⟨before.flatMap (· ++ [13, 10]) ++ last, ?_⟩
    simp [crlfCrlf]
  · rwa [List.dropLast_append_of_ne_nil (by decide)] at hline

/-- The lines of the request. -/
def requestLines (addr : String) : List (List UInt8) :=
  [bytes "GET /api/status HTTP/1.1", bytes ("Host: " ++ addr), bytes "Connection: close"]

/-- The request is its lines, with an empty one at the end. -/
lemma bytes_statusRequest (addr : String) :
    bytes (statusRequest addr) = (requestLines addr).flatMap (· ++ [13, 10]) ++ [13, 10] := by
  have hfirst : bytes "GET /api/status HTTP/1.1\r\nHost: " =
      bytes "GET /api/status HTTP/1.1" ++ [13, 10] ++ bytes "Host: " := by decide +kernel
  have hlast : bytes "\r\nConnection: close\r\n\r\n" =
      [13, 10] ++ bytes "Connection: close" ++ [13, 10] ++ [13, 10] := by decide +kernel
  have hhost : bytes ("Host: " ++ addr) = bytes "Host: " ++ bytes addr := bytes_append _ _
  have hparts : bytes (statusRequest addr) =
      bytes "GET /api/status HTTP/1.1\r\nHost: " ++ bytes addr ++ bytes "\r\nConnection: close\r\n\r\n" :=
    (bytes_append _ _).trans (congrArg (· ++ _) (bytes_append _ _))
  rw [hparts, hfirst, hlast, requestLines, List.flatMap_cons, List.flatMap_cons, List.flatMap_cons, hhost]
  simp only [List.flatMap_nil, List.append_assoc, List.append_nil]

/-- The request is a head and nothing else. -/
lemma isHead_statusRequest {addr : String} (haddr : '\r' ∉ addr.toList) :
    IsHead (bytes (statusRequest addr)) := by
  have hhost : bytes ("Host: " ++ addr) ≠ [] ∧ (13 : UInt8) ∉ bytes ("Host: " ++ addr) := by
    refine ⟨?_, return_notMem_bytes ?_⟩
    · have hparts : bytes ("Host: " ++ addr) = bytes "Host: " ++ bytes addr := bytes_append _ _
      rw [hparts]
      exact List.append_ne_nil_of_left_ne_nil (by decide +kernel) _
    · rw [String.toList_append, List.mem_append, not_or]
      exact ⟨by decide, haddr⟩
  rw [bytes_statusRequest]
  refine isHead_of_lines (by simp [requestLines]) fun l hl => ?_
  simp only [requestLines, List.mem_cons, List.not_mem_nil, or_false] at hl
  rcases hl with rfl | rfl | rfl
  · decide +kernel
  · exact hhost
  · decide +kernel

/-! ## The lines of the response -/

/-- The characters of a line. -/
def IsLine (l : List Char) : Prop := l ≠ [] ∧ '\r' ∉ l

/-- Lines with the line breaks between them. -/
def joinLines : List (List Char) → List Char
  | [] => []
  | [l] => l
  | l :: lines => l ++ '\r' :: '\n' :: joinLines lines

/-- The separator of `fetch_status` does not begin within a line. -/
lemma splitOnceAt_append {l : List Char} (hl : '\r' ∉ l) (rest : List Char) :
    splitOnceAt ['\r', '\n', '\r', '\n'] (l ++ rest) =
      (splitOnceAt ['\r', '\n', '\r', '\n'] rest).map fun p => (l ++ p.1, p.2) := by
  induction l with
  | nil => exact (congrFun Option.map_id _).symm
  | cons c l ih =>
    rw [List.mem_cons, not_or] at hl
    have hpre : ['\r', '\n', '\r', '\n'].isPrefixOf (c :: (l ++ rest)) = false := by
      simp [List.isPrefixOf, hl.1]
    rw [List.cons_append, splitOnceAt, hpre, if_neg Bool.false_ne_true, ih hl.2, Option.map_map]
    rfl

/-- Nor at the break between two lines. -/
lemma splitOnceAt_break {c : Char} (hc : c ≠ '\r') (rest : List Char) :
    splitOnceAt ['\r', '\n', '\r', '\n'] ('\r' :: '\n' :: c :: rest) =
      (splitOnceAt ['\r', '\n', '\r', '\n'] (c :: rest)).map fun p => ('\r' :: '\n' :: p.1, p.2) := by
  have hfirst : ['\r', '\n', '\r', '\n'].isPrefixOf ('\r' :: '\n' :: c :: rest) = false := by
    simp [List.isPrefixOf, Ne.symm hc]
  have hsecond : ['\r', '\n', '\r', '\n'].isPrefixOf ('\n' :: c :: rest) = false := by
    simp [List.isPrefixOf]
  rw [splitOnceAt, hfirst, if_neg Bool.false_ne_true, splitOnceAt, hsecond, if_neg Bool.false_ne_true,
    Option.map_map]
  rfl

/-- The response is divided at its first empty line. -/
lemma splitOnceAt_lines {l : List Char} {lines : List (List Char)} (h : ∀ x ∈ l :: lines, IsLine x)
    (body : List Char) :
    splitOnceAt ['\r', '\n', '\r', '\n'] ((l :: lines).flatMap (· ++ ['\r', '\n']) ++ '\r' :: '\n' :: body) =
      some (joinLines (l :: lines), body) := by
  induction lines generalizing l with
  | nil =>
    have hend : splitOnceAt ['\r', '\n', '\r', '\n'] ('\r' :: '\n' :: '\r' :: '\n' :: body) =
        some ([], body) := by
      simp [splitOnceAt, List.isPrefixOf]
    rw [List.flatMap_singleton, List.append_assoc, splitOnceAt_append (h l List.mem_cons_self).2]
    simp only [List.cons_append, List.nil_append]
    rw [hend, Option.map_some, List.append_nil, joinLines]
  | cons l' lines ih =>
    rw [List.forall_mem_cons] at h
    obtain ⟨hne, hreturn⟩ := h.2 l' List.mem_cons_self
    have hrest := ih h.2
    obtain ⟨c, l', rfl⟩ := List.exists_cons_of_ne_nil hne
    rw [List.mem_cons, not_or] at hreturn
    rw [List.flatMap_cons, List.append_assoc, List.append_assoc, splitOnceAt_append h.1.2]
    have hbreak := splitOnceAt_break (Ne.symm hreturn.1)
      (l' ++ ['\r', '\n'] ++ lines.flatMap (· ++ ['\r', '\n']) ++ '\r' :: '\n' :: body)
    simp only [List.flatMap_cons, List.cons_append, List.nil_append, List.append_assoc] at hrest hbreak ⊢
    rw [hbreak, hrest]
    rfl

open AllowPorts (splitOnce_eq_some)

/-- The first line is found again. -/
lemma firstLine_joinLines {l l' : List Char} (hl : '\n' ∉ l) (lines : List (List Char)) :
    firstLine (joinLines (l :: l' :: lines)) = l := by
  have hsplit : splitOnce '\n' (joinLines (l :: l' :: lines)) =
      some (l ++ ['\r'], joinLines (l' :: lines)) := by
    refine splitOnce_eq_some.mpr ⟨?_, ?_⟩
    · rw [joinLines, List.append_assoc]
      · rfl
      · exact List.cons_ne_nil _ _
    · rw [List.mem_append, not_or]
      exact ⟨hl, by decide⟩
  rw [firstLine, hsplit]
  simp

/-- The first line of a response. -/
def statusLine (status : ℕ) : List Char :=
  "HTTP/1.1 ".toList ++ (toString status).toList ++ " ".toList ++ (reason status).toList

/-- The lines of the head of a response. -/
def responseLines (status : ℕ) (contentType body : String) : List (List Char) :=
  [statusLine status, "Content-Type: ".toList ++ contentType.toList,
    "Content-Length: ".toList ++ (toString body.utf8ByteSize).toList, "Connection: close".toList]

/-- The head of a response is its lines. -/
lemma toList_head (code phrase contentType length body : String) :
    ("HTTP/1.1 " ++ code ++ " " ++ phrase ++ "\r\nContent-Type: " ++ contentType ++ "\r\n" ++
      ("Content-Length: " ++ length ++ "\r\n") ++ "Connection: close\r\n\r\n" ++ body).toList =
      "HTTP/1.1 ".toList ++ code.toList ++ " ".toList ++ phrase.toList ++ '\r' :: '\n' ::
        ("Content-Type: ".toList ++ contentType.toList ++ '\r' :: '\n' ::
          ("Content-Length: ".toList ++ length.toList ++ '\r' :: '\n' ::
            ("Connection: close".toList ++ '\r' :: '\n' :: '\r' :: '\n' :: body.toList))) := by
  have htype : "\r\nContent-Type: ".toList = '\r' :: '\n' :: "Content-Type: ".toList := by decide +kernel
  have hend : "Connection: close\r\n\r\n".toList =
      "Connection: close".toList ++ ['\r', '\n', '\r', '\n'] := by decide +kernel
  have hbreak : "\r\n".toList = ['\r', '\n'] := by decide +kernel
  simp only [String.toList_append, htype, hend, hbreak, List.append_assoc, List.cons_append,
    List.nil_append]

/-- Lines with their ends, and the body behind an empty line. -/
lemma flatMap_lines (a b c d body : List Char) :
    [a, b, c, d].flatMap (· ++ ['\r', '\n']) ++ '\r' :: '\n' :: body =
      a ++ '\r' :: '\n' :: (b ++ '\r' :: '\n' ::
        (c ++ '\r' :: '\n' :: (d ++ '\r' :: '\n' :: '\r' :: '\n' :: body))) := by
  simp

/-- A response is the lines of its head, an empty line and its body. -/
lemma toList_writeResponse (status : ℕ) (contentType body : String) :
    (writeResponse status contentType body none).toList =
      (responseLines status contentType body).flatMap (· ++ ['\r', '\n']) ++
        '\r' :: '\n' :: body.toList := by
  have htext : writeResponse status contentType body none =
      "HTTP/1.1 " ++ toString status ++ " " ++ reason status ++ "\r\nContent-Type: " ++ contentType ++
        "\r\n" ++ ("Content-Length: " ++ toString body.utf8ByteSize ++ "\r\n") ++
          "Connection: close\r\n\r\n" ++ body := rfl
  have hhead := toList_head (toString status) (reason status) contentType (toString body.utf8ByteSize) body
  exact (congrArg String.toList htext).trans
    (hhead.trans (flatMap_lines (statusLine status) _ _ _ body.toList).symm)

/-- A number has no line end in it. -/
lemma return_notMem_digits (n : ℕ) : '\r' ∉ (toString n).toList := by
  intro hmem
  rw [toList_toString_nat] at hmem
  exact absurd (isDigit_of_mem_toDigits _ hmem) (by decide)

/-- What `fetch_status` makes of a response, however it is divided into reads. -/
lemma fetchStatus_writeResponse {status : ℕ} {contentType body : String} {chunks : List (List UInt8)}
    (htype : '\r' ∉ contentType.toList) (hstatus : '\r' ∉ statusLine status ∧ '\n' ∉ statusLine status)
    (hne : ∀ c ∈ chunks, c ≠ [])
    (hchunks : chunks.flatten = bytes (writeResponse status contentType body none)) :
    fetchStatus (chunks.map .bytes) =
      if " 200 ".toList <:+: statusLine status then
        .ok body
      else
        .error ⟨.invalidData, s!"unexpected response: {String.ofList (statusLine status)}"⟩ := by
  have hread (buf : List UInt8) : readToEnd buf (chunks.map .bytes) = .ok (buf ++ chunks.flatten) := by
    clear hchunks
    induction chunks generalizing buf with
    | nil => rw [List.flatten_nil, List.append_nil]; rfl
    | cons c chunks ih =>
      rw [List.forall_mem_cons] at hne
      rw [List.map_cons, readToEnd, if_neg (by rw [List.isEmpty_iff]; exact hne.1), ih hne.2,
        List.flatten_cons, List.append_assoc]
  have hlines : ∀ x ∈ responseLines status contentType body, IsLine x := by
    intro x hx
    simp only [responseLines, List.mem_cons, List.not_mem_nil, or_false] at hx
    rcases hx with rfl | rfl | rfl | rfl
    · refine ⟨?_, hstatus.1⟩
      exact List.append_ne_nil_of_left_ne_nil (List.append_ne_nil_of_left_ne_nil
        (List.append_ne_nil_of_left_ne_nil (by decide) _) _) _
    · refine ⟨List.append_ne_nil_of_left_ne_nil (by decide) _, ?_⟩
      rw [List.mem_append, not_or]
      exact ⟨by decide, htype⟩
    · refine ⟨List.append_ne_nil_of_left_ne_nil (by decide) _, ?_⟩
      rw [List.mem_append, not_or]
      exact ⟨by decide, return_notMem_digits _⟩
    · exact ⟨by decide, by decide⟩
  have hsplit := splitOnceAt_lines hlines body.toList
  rw [← responseLines, ← toList_writeResponse] at hsplit
  have hfirst : firstLine (joinLines (responseLines status contentType body)) = statusLine status :=
    firstLine_joinLines hstatus.2 _
  have hseparator : "\r\n\r\n".toList = ['\r', '\n', '\r', '\n'] := by decide +kernel
  rw [fetchStatus, hread, List.nil_append, hchunks]
  simp only [fromUtf8Lossy_bytes, hseparator, hsplit, Option.getD_some, hfirst, String.ofList_toList]

/-- The fields of a request do not change its path. -/
lemma path_foldl_withHeader (headers : List (String × List UInt8)) (out : RequestHead) :
    (headers.foldl RequestHead.withHeader out).path = out.path := by
  induction headers generalizing out with
  | nil => rfl
  | cons header headers ih =>
    rw [List.foldl_cons, ih, RequestHead.withHeader]
    split_ifs <;> rfl

/-- **The status is what the endpoint knows**: for any division of the request and of the response into
reads, `client status` prints the text from which the state of the client is read back; or it reports the
refusal of the rate limiter. -/
theorem client_status_query (lib : Lib) (cfg : ClientConfig) (m : MonitoredClient) (limiter : RateLimiter)
    (peer : IpAddr) (addr : String) (request : List (List UInt8)) (haddr : '\r' ∉ addr.toList)
    (hsize : (bytes (statusRequest addr)).length ≤ maxRequestHead)
    (hparse : lib.httparse (bytes (statusRequest addr)) = some
      ⟨some "GET", some "/api/status", [("Host", bytes addr), ("Connection", bytes "close")]⟩)
    (hne : ∀ c ∈ request, c ≠ []) (hrequest : request.flatten = bytes (statusRequest addr)) :
    ∃ response, (handleRequest lib cfg m limiter peer (request.map .bytes)).2 = some response ∧
      (∀ chunks : List (List UInt8), (∀ c ∈ chunks, c ≠ []) → chunks.flatten = bytes response →
        fetchStatus (chunks.map .bytes) =
          if (limiter.allow peer m.now).2 then
            .ok (statusJson lib cfg m).toStringPretty
          else
            .error ⟨.invalidData, "unexpected response: HTTP/1.1 429 Too Many Requests"⟩) ∧
      Json.inOrder.read (statusJson lib cfg m).toStringPretty.toList = some (statusJson lib cfg m).sorted := by
  have hempty : ¬crlfCrlf <:+: [] := by decide
  have hall : ([] : List UInt8) ++ request.flatten = bytes (statusRequest addr) ++ [] := by
    rw [List.nil_append, List.append_nil, hrequest]
  obtain ⟨read, unread, hchunks, hhead, hrun⟩ :=
    readRequestHead_of_chunks [] (isHead_statusRequest haddr) hsize hne hempty hall
  have hread : read.flatten = bytes (statusRequest addr) := by
    refine (hhead.eq_of_length_le ?_).symm
    rw [← hrequest, hchunks, List.flatten_append]
    simp
  have hpath : (RequestHead.parse lib.httparse (bytes (statusRequest addr))).path = "/api/status" := by
    rw [RequestHead.parse, hparse]
    exact path_foldl_withHeader _ _
  rw [List.append_nil, List.nil_append, hread] at hrun
  rw [handleRequest, hrun]
  cases hallow : limiter.allow peer m.now with
  | mk limiter' allowed =>
    cases allowed with
    | true =>
      refine ⟨_, rfl, fun chunks hne hchunks => ?_, Json.read_toStringPretty _⟩
      rw [hpath] at hchunks
      exact (fetchStatus_writeResponse (by decide) (by decide +kernel) hne hchunks).trans
        (if_pos (by decide +kernel))
    | false =>
      refine ⟨_, rfl, fun chunks hne hchunks => ?_, Json.read_toStringPretty _⟩
      exact (fetchStatus_writeResponse (by decide) (by decide +kernel) hne hchunks).trans
        (if_neg (by decide +kernel))

/-- The endpoint of a client on the same machine. -/
def sampleAddr : String := "127.0.0.1:7400"

/-- A parser that knows the one request. -/
def sampleLib : Lib where
  httparse head :=
    if head = bytes (statusRequest sampleAddr) then
      some ⟨some "GET", some "/api/status", [("Host", bytes sampleAddr), ("Connection", bytes "close")]⟩
    else
      none
  version := "0.2.0"

/-- A connected client. -/
def sampleClient : MonitoredClient where
  connected := true
  reconnectsTotal := 1
  proxyRegisterFailuresTotal := 0
  started := 0
  now := 90000
  rttMs := 12
  workConnsTotal := 4
  workConnFailuresTotal := 0
  proxyRegisterRetrySuccessTotal := 0

/-- The first request of an address is answered. -/
theorem client_status_query_sample :
    ∃ response, (handleRequest sampleLib Client.sampleConfig sampleClient (.new 100 60000)
        (.v4 0x7f000001) [.bytes (bytes (statusRequest sampleAddr))]).2 = some response ∧
      ∀ chunks : List (List UInt8), (∀ c ∈ chunks, c ≠ []) → chunks.flatten = bytes response →
        fetchStatus (chunks.map .bytes) =
          .ok (statusJson sampleLib Client.sampleConfig sampleClient).toStringPretty := by
  obtain ⟨response, hresponse, hfetch, -⟩ := client_status_query sampleLib Client.sampleConfig sampleClient
    (.new 100 60000) (.v4 0x7f000001) sampleAddr [bytes (statusRequest sampleAddr)] (by decide)
    (by decide +kernel) (by simp [sampleLib]) (by decide +kernel) List.flatten_singleton
  refine ⟨response, hresponse, fun chunks hne hchunks => ?_⟩
  rw [hfetch chunks hne hchunks]
  rfl

end Status

end Rfrp
