import Mathlib.Data.List.Infix
import Rfrp.Common.Config
import Rfrp.Common.UdpFrame

/-!
# Requests and responses of the status pages

`crates/rfrp-common/src/util/http.rs`: the head of a request is read up to an empty line or a limit and
parsed with `httparse`, and a response is one text that is written before the connection is closed.

The parser is a parameter: a function that returns the request line and the header fields of a complete
head.  Texts that come from the network are bytes; `fromUtf8` and `fromUtf8Lossy` read them as the
standard library does, with U+FFFD in place of every ill-formed part.
-/

namespace Rfrp

/-! ## Bytes as text -/

/-- A continuation byte of UTF-8. -/
def isContinuation (b : UInt8) : Bool := 0x80 ≤ b && b ≤ 0xBF

/-- The lead bytes of three bytes, with the second bytes that may follow. -/
def isThreeByteFront (b₀ b₁ : UInt8) : Bool :=
  if b₀ == 0xE0 then 0xA0 ≤ b₁ && b₁ ≤ 0xBF
  else if b₀ == 0xED then 0x80 ≤ b₁ && b₁ ≤ 0x9F
  else isContinuation b₁

/-- The lead bytes of four bytes, with the second bytes that may follow. -/
def isFourByteFront (b₀ b₁ : UInt8) : Bool :=
  if b₀ == 0xF0 then 0x90 ≤ b₁ && b₁ ≤ 0xBF
  else if b₀ == 0xF4 then 0x80 ≤ b₁ && b₁ ≤ 0x8F
  else isContinuation b₁

/-- The character of a lead byte with the given number of low bits, and of continuation bytes. -/
def utf8Char (lead : ℕ) (rest : List UInt8) : Char :=
  Char.ofNat (rest.foldl (fun n b => 64 * n + b.toNat % 64) lead)

/-- The character at the front of a UTF-8 text, or `none` at an ill-formed part, and the number of
bytes after the first that belong to it. -/
def utf8Front (b₀ : UInt8) (rest : List UInt8) : Option Char × ℕ :=
  if b₀ < 0x80 then (some (utf8Char b₀.toNat []), 0)
  else if 0xC2 ≤ b₀ && b₀ ≤ 0xDF then
    match rest with
    | b₁ :: _ => if isContinuation b₁ then (some (utf8Char (b₀.toNat % 32) [b₁]), 1) else (none, 0)
    | _ => (none, 0)
  else if 0xE0 ≤ b₀ && b₀ ≤ 0xEF then
    match rest with
    | b₁ :: b₂ :: _ =>
      if !isThreeByteFront b₀ b₁ then (none, 0)
      else if isContinuation b₂ then (some (utf8Char (b₀.toNat % 16) [b₁, b₂]), 2)
      else (none, 1)
    | [b₁] => (none, if isThreeByteFront b₀ b₁ then 1 else 0)
    | _ => (none, 0)
  else if 0xF0 ≤ b₀ && b₀ ≤ 0xF4 then
    match rest with
    | b₁ :: b₂ :: b₃ :: _ =>
      if !isFourByteFront b₀ b₁ then (none, 0)
      else if !isContinuation b₂ then (none, 1)
      else if isContinuation b₃ then (some (utf8Char (b₀.toNat % 8) [b₁, b₂, b₃]), 3)
      else (none, 2)
    | [b₁, b₂] =>
      (none, if !isFourByteFront b₀ b₁ then 0 else if isContinuation b₂ then 2 else 1)
    | [b₁] => (none, if isFourByteFront b₀ b₁ then 1 else 0)
    | _ => (none, 0)
  else (none, 0)

/-- The characters and the ill-formed parts of a text; the first argument is the number of bytes that
the part before has taken already. -/
def utf8Parts : ℕ → List UInt8 → List (Option Char)
  | _, [] => []
  | skip + 1, _ :: rest => utf8Parts skip rest
  | 0, b :: rest => (utf8Front b rest).1 :: utf8Parts (utf8Front b rest).2 rest

/-- `std::str::from_utf8` and `String::from_utf8`, where the error does not matter. -/
def fromUtf8 (bs : List UInt8) : Option String := ((utf8Parts 0 bs).mapM id).map String.ofList

/-- `String::from_utf8_lossy`. -/
def fromUtf8Lossy (bs : List UInt8) : String :=
  String.ofList ((utf8Parts 0 bs).map fun c => c.getD '\uFFFD')

example : fromUtf8 [0x72, 0xC3, 0xA9, 0xE2, 0x82, 0xAC] = some "ré€" := by decide

/-- `str::parse::<usize>`: an optional plus sign and digits, within 64 bits. -/
def parseUsize (s : List Char) : Option ℕ :=
  let digits := match s with
    | '+' :: cs => cs
    | cs => cs
  match parseDigits digits with
  | none => none
  | some n => if n < 2 ^ 64 then some n else none

/-- `str::to_ascii_lowercase`. -/
def toAsciiLowercase (s : List Char) : List Char := s.map Char.toLower

/-- `html_escape`. -/
def htmlEscape (value : String) : String :=
  String.ofList (value.toList.flatMap fun c =>
    if c = '&' then "&amp;".toList
    else if c = '<' then "&lt;".toList
    else if c = '>' then "&gt;".toList
    else if c = '"' then "&quot;".toList
    else if c = '\'' then "&#39;".toList
    else [c])

namespace Http

open UdpFrame (IoError)

/-! ## Reading a request -/

/-- `MAX_REQUEST_HEAD`, in bytes. -/
def maxRequestHead : ℕ := 8192

/-- The empty line at the end of a head. -/
def crlfCrlf : List UInt8 := [13, 10, 13, 10]

/-- A read of a connection that has yielded something: bytes, of which none mean its end, or an
error. -/
inductive Read where
  | bytes (bs : List UInt8)
  | failed (e : IoError)
  deriving DecidableEq

/-- `read_request_head`, on the reads that are to come; when they are used up, the deadline passes. -/
def readRequestHead (buf : List UInt8) :
    List Read → Except IoError (Option (List UInt8)) × List Read
  | [] => (.ok none, [])
  | .failed e :: reads => (.error e, reads)
  | .bytes bs :: reads =>
    if bs.isEmpty then
      (.ok none, reads)
    else
      let buf := buf ++ bs
      if crlfCrlf <:+: buf then (.ok (some buf), reads)
      else if buf.length > maxRequestHead then (.ok (some buf), reads)
      else readRequestHead buf reads

/-- A complete request head as `httparse` returns it. -/
structure Parsed where
  method : Option String
  path : Option String
  headers : List (String × List UInt8)

/-- `RequestHead`. -/
structure RequestHead where
  method : String
  path : String
  contentLength : ℕ
  acceptHtml : Bool
  authorization : Option String
  cookie : Option String

/-- The header fields that `RequestHead::parse` takes notice of. -/
def RequestHead.withHeader (out : RequestHead) (header : String × List UInt8) : RequestHead :=
  let name := toAsciiLowercase header.1.toList
  let value := trim ((fromUtf8 header.2).getD "").toList
  if name = "content-length".toList then
    { out with contentLength := (parseUsize value).getD 0 }
  else if name = "accept".toList then
    { out with acceptHtml := "text/html".toList <:+: toAsciiLowercase value }
  else if name = "authorization".toList then
    { out with authorization := some (String.ofList value) }
  else if name = "cookie".toList then
    { out with cookie := some (String.ofList value) }
  else
    out

/-- `RequestHead::parse`, with the parser for complete heads of at most 32 header fields. -/
def RequestHead.parse (httparse : List UInt8 → Option Parsed) (head : List UInt8) : RequestHead :=
  let out : RequestHead := ⟨"GET", "/", 0, false, none, none⟩
  match httparse head with
  | none => out
  | some req =>
    req.headers.foldl withHeader
      { out with method := req.method.getD out.method, path := req.path.getD out.path }

/-! ## Writing a response -/

/-- The reason phrase of a status. -/
def reason (status : ℕ) : String :=
  match status with
  | 200 => "OK"
  | 302 => "Found"
  | 400 => "Bad Request"
  | 401 => "Unauthorized"
  | 404 => "Not Found"
  | 429 => "Too Many Requests"
  | _ => "OK"

/-- `write_response`: the text that is written. -/
def writeResponse (status : ℕ) (contentType body : String) (extraHeader : Option String) : String :=
  let resp := s!"HTTP/1.1 {status} {reason status}\r\nContent-Type: {contentType}\r\n" ++
    s!"Content-Length: {body.utf8ByteSize}\r\n"
  let resp := match extraHeader with
    | some h => resp ++ h ++ "\r\n"
    | none => resp
  resp ++ "Connection: close\r\n\r\n" ++ body

end Http

end Rfrp
