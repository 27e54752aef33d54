import Rfrp.Client.Status
import Rfrp.Lib.Markup
import Rfrp.Server.MetricsText

/-!
# The status page of a client

What the page of the status endpoint shows: it is read as the tags of the template, with one row for each
proxy, and between them the values as they are, whatever characters they consist of.  No name and no
address can add a tag.
-/

namespace Rfrp

open Exposition (Sample)

namespace MonitoredClient

/-- What `render` says of the client. -/
def samples (m : MonitoredClient) : List (Sample ℤ) :=
  [⟨"rfrp_client_uptime_seconds", [], m.uptimeSecs⟩,
    ⟨"rfrp_client_rtt_ms", [], m.rttMs⟩,
    ⟨"rfrp_client_connected", [], m.connected.toNat⟩,
    ⟨"rfrp_client_reconnects_total", [], m.reconnectsTotal⟩,
    ⟨"rfrp_client_work_conns_total", [], m.workConnsTotal⟩,
    ⟨"rfrp_client_work_conn_failures_total", [], m.workConnFailuresTotal⟩,
    ⟨"rfrp_client_proxy_register_failures_total", [], m.proxyRegisterFailuresTotal⟩,
    ⟨"rfrp_client_proxy_register_retry_success_total", [], m.proxyRegisterRetrySuccessTotal⟩]

/-- The rendered metrics are read as their samples. -/
lemma reads_render (m : MonitoredClient) : ReadsText m.render m.samples := by
  unfold render
  exact ReadsText.comment (by decide +kernel)
    |>.and_comment (by decide +kernel)
    |>.and_nat "rfrp_client_uptime_seconds" (by decide +kernel) m.uptimeSecs
    |>.and_comment (by decide +kernel)
    |>.and_comment (by decide +kernel)
    |>.and_nat "rfrp_client_rtt_ms" (by decide +kernel) m.rttMs
    |>.and_comment (by decide +kernel)
    |>.and_comment (by decide +kernel)
    |>.and_nat "rfrp_client_connected" (by decide +kernel) m.connected.toNat
    |>.and_comment (by decide +kernel)
    |>.and_comment (by decide +kernel)
    |>.and_nat "rfrp_client_reconnects_total" (by decide +kernel) m.reconnectsTotal
    |>.and_comment (by decide +kernel)
    |>.and_comment (by decide +kernel)
    |>.and_nat "rfrp_client_work_conns_total" (by decide +kernel) m.workConnsTotal
    |>.and_comment (by decide +kernel)
    |>.and_comment (by decide +kernel)
    |>.and_nat "rfrp_client_work_conn_failures_total" (by decide +kernel) m.workConnFailuresTotal
    |>.and_comment (by decide +kernel)
    |>.and_comment (by decide +kernel)
    |>.and_nat "rfrp_client_proxy_register_failures_total" (by decide +kernel) m.proxyRegisterFailuresTotal
    |>.and_comment (by decide +kernel)
    |>.and_comment (by decide +kernel)
    |>.and_nat "rfrp_client_proxy_register_retry_success_total" (by decide +kernel)
      m.proxyRegisterRetrySuccessTotal

end MonitoredClient

namespace Status

open Markup (Token Writes chars tags)

/-! ## What the page should be -/

/-- The entities of `html_escape`. -/
def entity (name : List Char) : Option Char :=
  if name = "amp".toList then some '&'
  else if name = "lt".toList then some '<'
  else if name = "gt".toList then some '>'
  else if name = "quot".toList then some '"'
  else if name = "#39".toList then some '\''
  else none

/-- A text on the page. -/
def shown (s : String) : List Token := chars s.toList

/-- The tag that begins an element. -/
def opening (name : String) : Token := .tag name.toList

/-- The tag that ends an element. -/
def closing (name : String) : Token := .tag ('/' :: name.toList)

/-- An element, and what is in it. -/
def element (name : String) (content : List Token) : List Token :=
  opening name :: (content ++ [closing name])

/-- The row of a proxy. -/
def row (p : ClientProxy) : List Token :=
  element "tr" (
    element "td" (shown p.name) ++
    element "td" (shown p.type.debug) ++
    element "td" (shown p.localIp ++ shown ":" ++ shown (toString p.localPort)) ++
    element "td" (shown (debugPort p.remotePort)) ++
    element "td" (shown (toString p.poolSize)))

/-- The page. -/
def page (lib : Lib) (cfg : ClientConfig) (m : MonitoredClient) : List Token :=
  element "html" (
    element "head" (
      element "title" (shown "rfrp client status") ++
      [opening "meta http-equiv=\"refresh\" content=\"5\""]) ++
    element "body" (
      element "h1" (shown "rfrp client " ++ element "small" (shown "v" ++ shown lib.version)) ++
      element "p" (
        shown "server: " ++ shown cfg.serverAddr ++ shown ":" ++ shown (toString cfg.serverPort) ++
        shown " | connected: " ++ shown (toString m.connected) ++
        shown " | uptime: " ++ shown (toString m.uptimeSecs) ++ shown "s") ++
      element "pre" (shown m.render) ++
      element "h2" (shown "Proxies") ++
      opening "table border=1" :: (
        element "tr" (element "th" (shown "name") ++ element "th" (shown "type") ++
          element "th" (shown "local") ++ element "th" (shown "remote_port") ++
          element "th" (shown "pool")) ++
        cfg.proxies.flatMap row ++ [closing "table"])))

/-! ## What it is -/

/-- The tokens of a text. -/
def WritesText (s : String) (ts : List Token) : Prop := Writes entity s.toList ts

instance (s : String) (ts : List Token) : Decidable (WritesText s ts) :=
  inferInstanceAs (Decidable (Writes entity s.toList ts))

/-- No character of the text begins a tag or an entity. -/
def Plain (s : String) : Prop := ∀ c ∈ s.toList, c ≠ '<' ∧ c ≠ '&' ∧ c ≠ '>'

instance (s : String) : Decidable (Plain s) :=
  List.decidableBAll (fun c => c ≠ '<' ∧ c ≠ '&' ∧ c ≠ '>') s.toList

namespace WritesText

variable {s t : String} {ts us : List Token}

/-- Texts one after the other write what each of them writes. -/
lemma append (hs : WritesText s ts) (ht : WritesText t us) : WritesText (s ++ t) (ts ++ us) := by
  unfold WritesText
  rw [String.toList_append]
  exact Writes.append hs ht

/-- A plain text writes itself. -/
lemma plain (h : Plain s) : WritesText s (shown s) := Writes.plain h

/-- One plain text more. -/
lemma and_plain (hs : WritesText s ts) (h : Plain t) : WritesText (s ++ t) (ts ++ shown t) :=
  hs.append (plain h)

/-- One escaped text more. -/
lemma and_escaped (hs : WritesText s ts) (t : String) :
    WritesText (s ++ htmlEscape t) (ts ++ shown t) := by
  refine hs.append ?_
  unfold WritesText
  rw [htmlEscape, String.toList_ofList]
  refine Writes.escaped (fun c => ?_) t.toList
  by_cases hamp : c = '&'
  · subst hamp
    decide
  by_cases hlt : c = '<'
  · subst hlt
    decide
  by_cases hgt : c = '>'
  · subst hgt
    decide
  by_cases hquot : c = '"'
  · subst hquot
    decide
  by_cases happ : c = '\''
  · subst happ
    decide
  simp only [hamp, hlt, hgt, hquot, happ, if_false]
  exact Writes.plain (by simp [hamp, hlt, hgt])

end WritesText

/-- A number is a plain text. -/
lemma plain_nat (n : ℕ) : Plain (toString n) := by
  intro c hc
  rw [toList_toString_nat] at hc
  have hdigit := isDigit_of_mem_toDigits c hc
  refine ⟨?_, ?_, ?_⟩ <;> (rintro rfl; exact absurd hdigit (by decide))

/-- A port as `Debug` writes it is a plain text. -/
lemma plain_debugPort (port : Option UInt16) : Plain (debugPort port) := by
  cases port with
  | none => decide
  | some port =>
    intro c hc
    have htext : debugPort (some port) = "Some(" ++ toString port.toNat ++ ")" := rfl
    rw [htext, String.toList_append, String.toList_append, List.mem_append, List.mem_append] at hc
    rcases hc with (hc | hc) | hc
    · exact (by decide : Plain "Some(") c hc
    · exact plain_nat port.toNat c hc
    · exact (by decide : Plain ")") c hc

/-- The row of a proxy is what it should be. -/
lemma writes_proxyRow (p : ClientProxy) : WritesText (proxyRow p) (row p) := by
  have hlocalPort : Plain (toString p.localPort) := plain_nat p.localPort.toNat
  have hpoolSize : Plain (toString p.poolSize) := plain_nat p.poolSize.toNat
  have htype : Plain p.type.debug := by cases p.type <;> decide
  have hfirst : WritesText "<tr><td>" [opening "tr", opening "td"] := by decide +kernel
  have hnext : WritesText "</td><td>" [closing "td", opening "td"] := by decide +kernel
  have hcolon : Plain ":" := by decide
  have hlast : WritesText "</td></tr>" [closing "td", closing "tr"] := by decide +kernel
  have hrow := hfirst
    |>.and_escaped p.name
    |>.append hnext
    |>.and_plain htype
    |>.append hnext
    |>.and_escaped p.localIp
    |>.and_plain hcolon
    |>.and_plain hlocalPort
    |>.append hnext
    |>.and_plain (plain_debugPort p.remotePort)
    |>.append hnext
    |>.and_plain hpoolSize
    |>.append hlast
  simp only [List.append_assoc, List.cons_append, List.nil_append] at hrow
  simp only [row, element, List.append_assoc, List.cons_append, List.nil_append]
  exact hrow

/-- The rows of all proxies. -/
lemma writes_proxyRows (proxies : List ClientProxy) :
    WritesText (String.join (proxies.map proxyRow)) (proxies.flatMap row) := by
  unfold WritesText
  rw [String.toList_join, List.flatMap_map]
  exact Writes.flatMap fun p _ => writes_proxyRow p

/-- The page is what it should be. -/
lemma writes_renderHtml (lib : Lib) (cfg : ClientConfig) (m : MonitoredClient) (hversion : Plain lib.version) :
    WritesText (renderHtml lib cfg m) (page lib cfg m) := by
  have hserverPort : Plain (toString cfg.serverPort) := plain_nat cfg.serverPort.toNat
  have hconnected : Plain (toString m.connected) := by cases m.connected <;> decide
  have htitle : WritesText "<html><head><title>rfrp client status</title>"
      ([opening "html", opening "head", opening "title"] ++ shown "rfrp client status" ++ [closing "title"]) := by
    decide +kernel
  have hmeta : WritesText "<meta http-equiv=\"refresh\" content=\"5\"></head><body>"
      [opening "meta http-equiv=\"refresh\" content=\"5\"", closing "head", opening "body"] := by
    decide +kernel
  have hheading : WritesText "<h1>rfrp client <small>v"
      (opening "h1" :: shown "rfrp client " ++ opening "small" :: shown "v") := by decide +kernel
  have hheadingEnd : WritesText "</small></h1>" [closing "small", closing "h1"] := by decide +kernel
  have hserver : WritesText "<p>server: " (opening "p" :: shown "server: ") := by decide +kernel
  have hstate : WritesText "s</p>" (shown "s" ++ [closing "p"]) := by decide +kernel
  have hpre : WritesText "<pre>" [opening "pre"] := by decide +kernel
  have hpreEnd : WritesText "</pre>" [closing "pre"] := by decide +kernel
  have hproxies : WritesText "<h2>Proxies</h2>" (element "h2" (shown "Proxies")) := by decide +kernel
  have htable : WritesText
      "<table border=1><tr><th>name</th><th>type</th><th>local</th><th>remote_port</th><th>pool</th></tr>"
      (opening "table border=1" :: element "tr" (element "th" (shown "name") ++ element "th" (shown "type") ++
        element "th" (shown "local") ++ element "th" (shown "remote_port") ++ element "th" (shown "pool"))) := by
    decide +kernel
  have htableEnd : WritesText "</table>" [closing "table"] := by decide +kernel
  have hend : WritesText "</body></html>" [closing "body", closing "html"] := by decide +kernel
  have hpage := htitle
    |>.append hmeta
    |>.append hheading
    |>.and_plain hversion
    |>.append hheadingEnd
    |>.append hserver
    |>.and_escaped cfg.serverAddr
    |>.and_plain (t := ":") (by decide)
    |>.and_plain hserverPort
    |>.and_plain (t := " | connected: ") (by decide)
    |>.and_plain hconnected
    |>.and_plain (t := " | uptime: ") (by decide)
    |>.and_plain (plain_nat m.uptimeSecs)
    |>.append hstate
    |>.append hpre
    |>.and_escaped m.render
    |>.append hpreEnd
    |>.append hproxies
    |>.append htable
    |>.append (writes_proxyRows cfg.proxies)
    |>.append htableEnd
    |>.append hend
  simp only [element, List.append_assoc, List.cons_append, List.nil_append] at hpage
  simp only [page, element, List.append_assoc, List.cons_append, List.nil_append]
  exact hpage

/-! ## Tags -/

/-- The empty page has no tags. -/
@[simp] lemma tags_nil : tags [] = [] := rfl

/-- A shown text has no tags. -/
@[simp] lemma tags_shown (s : String) : tags (shown s) = [] := Markup.tags_chars s.toList

/-- An element has its own two tags around those of its content. -/
@[simp] lemma tags_element (name : String) (content : List Token) :
    tags (element name content) = name.toList :: (tags content ++ ['/' :: name.toList]) := by
  rw [element, opening, Markup.tags_tag, Markup.tags_append]
  rfl

/-- The tags of a row. -/
def rowTags : List (List Char) :=
  "tr".toList :: ((List.replicate 5 ["td".toList, '/' :: "td".toList]).flatten ++ ['/' :: "tr".toList])

/-- The tags of a row do not depend on its proxy. -/
lemma tags_row (p : ClientProxy) : tags (row p) = rowTags := by
  simp only [row, tags_element, Markup.tags_append, tags_shown, List.append_nil, List.nil_append,
    List.cons_append]
  rfl

/-- Every row has the same tags. -/
lemma tags_rows (proxies : List ClientProxy) :
    tags (proxies.flatMap row) = (List.replicate proxies.length rowTags).flatten := by
  induction proxies with
  | nil => rfl
  | cons p proxies ih =>
    rw [List.flatMap_cons, Markup.tags_append, tags_row, ih, List.length_cons, List.replicate_succ,
      List.flatten_cons]

/-- The tags of the page are those of the template. -/
lemma tags_page (lib lib' : Lib) (cfg cfg' : ClientConfig) (m m' : MonitoredClient)
    (h : cfg'.proxies.length = cfg.proxies.length) :
    tags (page lib' cfg' m') = tags (page lib cfg m) := by
  simp only [page, opening, tags_element, Markup.tags_append, Markup.tags_tag, tags_shown, tags_rows, h]

/-- **The page shows what is there**: whatever characters the names, the addresses and the counters
consist of, the page is read as the tags of the template, one row for each proxy, with the values between
them as they are; the tags depend on the number of proxies only; and the counters on it are read back. -/
theorem status_page_faithful (lib : Lib) (cfg : ClientConfig) (m : MonitoredClient)
    (hversion : Plain lib.version) :
    Markup.read entity (renderHtml lib cfg m).toList = some (page lib cfg m) ∧
      (∀ (lib' : Lib) (cfg' : ClientConfig) (m' : MonitoredClient),
        cfg'.proxies.length = cfg.proxies.length → tags (page lib' cfg' m') = tags (page lib cfg m)) ∧
      Exposition.read parseInteger m.render.toList = some m.samples :=
  ⟨Writes.read (writes_renderHtml lib cfg m hversion), fun lib' cfg' m' => tags_page lib lib' cfg cfg' m m',
    m.reads_render.read_eq⟩

/-- A proxy whose name looks like the end of its row. -/
def hostileConfig : ClientConfig :=
  { Client.sampleConfig with
    proxies := [⟨"</td></tr><script>", .tcp, "&lt;host>", 22, some 6000, none, 1⟩] }

/-- The metrics of a client that has just been started. -/
def startedClient : MonitoredClient where
  connected := false
  reconnectsTotal := 0
  proxyRegisterFailuresTotal := 0
  started := 0
  now := 0
  rttMs := 0
  workConnsTotal := 0
  workConnFailuresTotal := 0
  proxyRegisterRetrySuccessTotal := 0

/-- It stays a name. -/
theorem status_page_faithful_hostile :
    Markup.read entity (renderHtml ⟨fun _ => none, "0.2.0"⟩ hostileConfig startedClient).toList =
      some (page ⟨fun _ => none, "0.2.0"⟩ hostileConfig startedClient) :=
  (status_page_faithful ⟨fun _ => none, "0.2.0"⟩ hostileConfig startedClient (by decide)).1

end Status

end Rfrp
