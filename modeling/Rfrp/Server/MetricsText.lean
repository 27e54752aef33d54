import Rfrp.Common.Decimal
import Rfrp.Lib.Exposition
import Rfrp.Server.Metrics

/-!
# The metrics as they are scraped

What `render_prometheus` writes is read back in the text format of Prometheus: every line as the sample
it stands for, whatever the names of the proxies are (`Monitored.reads_renderPrometheus`).  The names are
labels, and `escape_label` escapes them with one replacement after the other, which comes to the same as
to go through the text once (`toList_escapeLabel`).
-/

namespace Rfrp

open Exposition (Sample Reads QuotesEscaped escape escapeChar unescape unescape_escape
  escape_injective feed_notMem_escape quotesEscaped_escape isMetricName isMetricName_chars isLabelName
  readLine_plain readLine_labelled reads_line reads_comment)

/-! ## Labels -/

/-- The replacements do to a character what the escape of the format does. -/
lemma replaceChar_special (s : List Char) :
    replaceChar '\n' "\\n" (replaceChar '"' "\\\"" (replaceChar '\\' "\\\\" s)) = escape s := by
  unfold replaceChar escape
  rw [List.flatMap_assoc, List.flatMap_assoc]
  refine List.flatMap_congr fun c _ => ?_
  unfold escapeChar
  by_cases hbackslash : c = '\\'
  · subst hbackslash
    decide
  by_cases hquote : c = '"'
  · subst hquote
    decide
  by_cases hfeed : c = '\n'
  · subst hfeed
    decide
  · simp [hbackslash, hquote, hfeed]

/-- A text without the three characters is its own label. -/
lemma escape_eq_self {s : List Char} (h : ∀ c ∈ s, c ≠ '\\' ∧ c ≠ '"' ∧ c ≠ '\n') : escape s = s := by
  induction s with
  | nil => rfl
  | cons c s ih =>
    obtain ⟨hbackslash, hquote, hfeed⟩ := h c List.mem_cons_self
    have hchar : escapeChar c = [c] := by
      simp [escapeChar, hbackslash, hquote, hfeed]
    rw [escape, List.flatMap_cons, ← escape, hchar, ih fun d hd => h d (List.mem_cons_of_mem c hd)]
    rfl

/-- `escape_label` works character by character. -/
theorem toList_escapeLabel (v : String) : (escapeLabel v).toList = escape v.toList := by
  unfold escapeLabel
  split
  · rw [String.toList_ofList, replaceChar_special]
  · next h =>
    refine (escape_eq_self fun c hc => ?_).symm
    rw [List.any_eq_true] at h
    refine ⟨?_, ?_, ?_⟩ <;>
      (intro heq
       exact h ⟨c, hc, by simp [heq]⟩)

/-- Different names are different labels. -/
theorem escapeLabel_injective : escapeLabel.Injective := by
  intro v w h
  have hlabels := congrArg String.toList h
  rw [toList_escapeLabel, toList_escapeLabel] at hlabels
  exact String.toList_inj.mp (escape_injective hlabels)

/-! ## Lines -/

/-- The samples that are read from a text. -/
def ReadsText (s : String) (samples : List (Sample ℤ)) : Prop := Reads parseInteger s.toList samples

/-- A line feed ends the text, and there is none before. -/
def isLine : List Char → Bool
  | [] => false
  | c :: s => if c = '\n' then s.isEmpty else isLine s

/-- A line that is a comment. -/
def isComment (s : List Char) : Bool :=
  match s with
  | '#' :: s => isLine s
  | _ => false

/-- A line is a text without line feeds, and a line feed. -/
lemma exists_of_isLine {s : List Char} (h : isLine s = true) : ∃ line, s = line ++ ['\n'] ∧ '\n' ∉ line := by
  induction s with
  | nil => cases h
  | cons c s ih =>
    rw [isLine] at h
    split at h
    · next hc => exact ⟨[], by rw [hc, List.isEmpty_iff.mp h]; rfl, List.not_mem_nil⟩
    · next hc =>
      obtain ⟨line, rfl, hfeed⟩ := ih h
      exact ⟨c :: line, rfl, List.not_mem_cons_of_ne_of_not_mem (Ne.symm hc) hfeed⟩

/-- A comment is a line that starts with `#`. -/
lemma exists_of_isComment {s : List Char} (h : isComment s = true) :
    ∃ line, s = line ++ ['\n'] ∧ '\n' ∉ line ∧ line.head? = some '#' := by
  unfold isComment at h
  split at h
  · obtain ⟨line, rfl, hfeed⟩ := exists_of_isLine h
    exact ⟨'#' :: line, rfl, List.not_mem_cons_of_ne_of_not_mem (by decide +kernel) hfeed, rfl⟩
  · cases h

namespace ReadsText

/-- Two texts that are read back give the samples of both. -/
lemma append {s t : String} {xs ys : List (Sample ℤ)} (hs : ReadsText s xs) (ht : ReadsText t ys) :
    ReadsText (s ++ t) (xs ++ ys) := by
  unfold ReadsText
  rw [String.toList_append]
  exact Reads.append hs ht

/-- A comment. -/
lemma comment {s : String} (h : isComment s.toList = true) : ReadsText s [] := by
  unfold ReadsText
  obtain ⟨line, hline, hfeed, hhash⟩ := exists_of_isComment h
  rw [hline]
  exact reads_comment hfeed hhash

/-- The text of a number has no line feed. -/
lemma feed_notMem_toString (n : ℤ) : '\n' ∉ (toString n).toList := by
  intro h
  rcases mem_toString_int h with h | h <;> exact absurd h (by decide +kernel)

/-- A metric without labels. -/
lemma int {lead : String} (name : String)
    (h : lead.toList = name.toList ++ [' '] ∧ isMetricName name.toList = true)
    (n : ℤ) : ReadsText (lead ++ toString n ++ "\n") [⟨name, [], n⟩] := by
  obtain ⟨hlead, hname⟩ := h
  have htext : (lead ++ toString n ++ "\n").toList =
      (name.toList ++ ' ' :: (toString n).toList) ++ ['\n'] := by
    rw [String.toList_append, String.toList_append, hlead]
    simp
  have hread := readLine_plain hname (parseInteger_toString n)
  rw [String.ofList_toList] at hread
  unfold ReadsText
  rw [htext]
  refine reads_line ?_ hread
  rw [List.mem_append, List.mem_cons, not_or, not_or]
  exact ⟨fun hmem => (isMetricName_chars hname _ hmem).2.2.2 rfl, by decide, feed_notMem_toString n⟩

variable {s t : String} {xs : List (Sample ℤ)}

/-- One comment more. -/
lemma and_comment (hs : ReadsText s xs) (h : isComment t.toList = true) : ReadsText (s ++ t) xs := by
  have hall := hs.append (comment h)
  rwa [List.append_nil] at hall

/-- One metric more. -/
lemma and_int {lead : String} (hs : ReadsText s xs) (name : String)
    (h : lead.toList = name.toList ++ [' '] ∧ isMetricName name.toList = true)
    (n : ℤ) : ReadsText (s ++ (lead ++ toString n ++ "\n")) (xs ++ [⟨name, [], n⟩]) :=
  hs.append (int name h n)

/-- A line with a counter gives a sample of the counter. -/
lemma and_nat {lead : String} (hs : ReadsText s xs) (name : String)
    (h : lead.toList = name.toList ++ [' '] ∧ isMetricName name.toList = true)
    (n : ℕ) : ReadsText (s ++ (lead ++ toString n ++ "\n")) (xs ++ [⟨name, [], n⟩]) :=
  hs.and_int name h n

end ReadsText

namespace Monitored

variable (st : Monitored)

/-- The samples of `Metrics::render`. -/
def processSamples : List (Sample ℤ) :=
  [⟨"rfrp_connections_total", [], st.core.metrics.totalConnections⟩,
    ⟨"rfrp_active_connections", [], st.core.metrics.activeConnections⟩,
    ⟨"rfrp_bytes_up_total", [], st.bytesUp⟩,
    ⟨"rfrp_bytes_down_total", [], st.bytesDown⟩,
    ⟨"rfrp_rtt_ms", [], st.rttMs⟩,
    ⟨"rfrp_accepted_total", [], st.acceptedTotal⟩,
    ⟨"rfrp_accept_errors_total", [], st.acceptErrorsTotal⟩,
    ⟨"rfrp_udp_dropped_total", [], st.udpDroppedTotal⟩,
    ⟨"rfrp_accepting", [], st.accepting.toNat⟩]

/-- The counters of the process are read back from their text. -/
lemma reads_render : ReadsText st.render st.processSamples := by
  unfold render
  -- one comment goes on in a second piece
  rw [@String.append_assoc _
    "# HELP rfrp_udp_dropped_total UDP datagrams dropped (pending session limit or session "]
  exact ReadsText.comment (by decide +kernel)
    |>.and_comment (by decide +kernel)
    |>.and_nat "rfrp_connections_total" (by decide +kernel) st.core.metrics.totalConnections
    |>.and_comment (by decide +kernel)
    |>.and_int "rfrp_active_connections" (by decide +kernel) st.core.metrics.activeConnections
    |>.and_comment (by decide +kernel)
    |>.and_nat "rfrp_bytes_up_total" (by decide +kernel) st.bytesUp
    |>.and_comment (by decide +kernel)
    |>.and_nat "rfrp_bytes_down_total" (by decide +kernel) st.bytesDown
    |>.and_comment (by decide +kernel)
    |>.and_comment (by decide +kernel)
    |>.and_nat "rfrp_rtt_ms" (by decide +kernel) st.rttMs
    |>.and_comment (by decide +kernel)
    |>.and_comment (by decide +kernel)
    |>.and_nat "rfrp_accepted_total" (by decide +kernel) st.acceptedTotal
    |>.and_comment (by decide +kernel)
    |>.and_comment (by decide +kernel)
    |>.and_nat "rfrp_accept_errors_total" (by decide +kernel) st.acceptErrorsTotal
    |>.and_comment (by decide +kernel)
    |>.and_comment (by decide +kernel)
    |>.and_nat "rfrp_udp_dropped_total" (by decide +kernel) st.udpDroppedTotal
    |>.and_comment (by decide +kernel)
    |>.and_comment (by decide +kernel)
    |>.and_nat "rfrp_accepting" (by decide +kernel) st.accepting.toNat

/-- The samples of the gauges. -/
def gaugeSamples : List (Sample ℤ) :=
  [⟨"rfrp_uptime_seconds", [], st.uptimeSecs⟩,
    ⟨"rfrp_sessions", [], st.core.gauges.sessions⟩,
    ⟨"rfrp_proxies", [], st.core.gauges.proxies⟩,
    ⟨"rfrp_pending_work", [], st.core.gauges.pendingWork⟩,
    ⟨"rfrp_udp_sessions", [], st.core.gauges.udpSessions⟩,
    ⟨"rfrp_pooled_work_conns", [], st.core.gauges.pooledWorkConns⟩]

/-- The samples of one metric for every proxy. -/
def proxySamples (metric : String) (value : ProxyName × ProxyStats → ℤ) : List (Sample ℤ) :=
  st.sortedStats.map fun e => ⟨metric, [("proxy", e.1)], value e⟩

/-- What `render_prometheus` says of the server. -/
def samples : List (Sample ℤ) :=
  st.processSamples ++ st.gaugeSamples ++
    (st.proxySamples "rfrp_proxy_bytes_up_total" (fun e => (st.proxyTraffic e.1).bytesUp) ++
      st.proxySamples "rfrp_proxy_bytes_down_total" (fun e => (st.proxyTraffic e.1).bytesDown) ++
      st.proxySamples "rfrp_proxy_connections_total" (fun e => e.2.connectionsTotal) ++
      st.proxySamples "rfrp_proxy_active_connections" fun e => (st.proxyTraffic e.1).activeConnections)

/-- The line of a proxy. -/
lemma reads_proxyLine {metric : String} (hmetric : isMetricName metric.toList = true) (name : ProxyName)
    (n : ℤ) : ReadsText (metric ++ "\x7bproxy=\"" ++ escapeLabel name ++ "\"\x7d " ++ toString n ++ "\n")
      [⟨metric, [("proxy", name)], n⟩] := by
  have htext : (metric ++ "\x7bproxy=\"" ++ escapeLabel name ++ "\"\x7d " ++ toString n ++ "\n").toList =
      metric.toList ++ '\x7b' :: ("proxy".toList ++ '=' :: '"' ::
        (escape name.toList ++ '"' :: '\x7d' :: ' ' :: (toString n).toList)) ++ ['\n'] := by
    have hopen : "\x7bproxy=\"".toList = '\x7b' :: ("proxy".toList ++ ['=', '"']) := rfl
    have hclose : "\"\x7d ".toList = ['"', '\x7d', ' '] := rfl
    have hfeed : "\n".toList = ['\n'] := rfl
    simp only [String.toList_append, toList_escapeLabel, hopen, hclose, hfeed, List.append_assoc,
      List.cons_append, List.nil_append]
  have hread := readLine_labelled hmetric (show isLabelName "proxy".toList = true from rfl)
    (parseInteger_toString n) name.toList
  rw [String.ofList_toList, String.ofList_toList, String.ofList_toList] at hread
  unfold ReadsText
  rw [htext]
  refine reads_line ?_ hread
  have hlabel : '\n' ∉ "proxy".toList := by decide
  simp only [List.mem_append, List.mem_cons, not_or]
  exact ⟨fun hmem => (isMetricName_chars hmetric _ hmem).2.2.2 rfl, by decide, hlabel, by decide,
    by decide, feed_notMem_escape _, by decide, by decide, by decide,
    ReadsText.feed_notMem_toString n⟩

/-- The two comments and the lines of one metric. -/
lemma reads_proxyMetric {metric kind help : String} (hmetric : isMetricName metric.toList = true)
    (hkind : '\n' ∉ kind.toList) (hhelp : '\n' ∉ help.toList) (stats : List (ProxyName × ProxyStats))
    (text : ProxyName × ProxyStats → String) (value : ProxyName × ProxyStats → ℤ)
    (htext : ∀ e, text e = toString (value e)) :
    ReadsText (proxyMetric metric kind help stats text)
      (stats.map fun e => ⟨metric, [("proxy", e.1)], value e⟩) := by
  have hname : '\n' ∉ metric.toList := fun hmem => (isMetricName_chars hmetric _ hmem).2.2.2 rfl
  have hcomments : ReadsText s!"# HELP {metric} {help}\n# TYPE {metric} {kind}\n" [] := by
    have hlines : s!"# HELP {metric} {help}\n# TYPE {metric} {kind}\n".toList =
        ("# HELP ".toList ++ metric.toList ++ ' ' :: help.toList ++ ['\n']) ++
          ("# TYPE ".toList ++ metric.toList ++ ' ' :: kind.toList ++ ['\n']) := by
      simp only [String.toList_append, List.append_assoc]
      rfl
    have hfirst : Reads parseInteger ("# HELP ".toList ++ metric.toList ++ ' ' :: help.toList ++ ['\n']) [] :=
      reads_comment (by simp [hname, hhelp]) rfl
    have hsecond : Reads parseInteger ("# TYPE ".toList ++ metric.toList ++ ' ' :: kind.toList ++ ['\n']) [] :=
      reads_comment (by simp [hname, hkind]) rfl
    unfold ReadsText
    rw [hlines]
    exact hfirst.append hsecond
  have hlines : ReadsText (String.join (stats.map fun e =>
      metric ++ "\x7bproxy=\"" ++ escapeLabel e.1 ++ "\"\x7d " ++ text e ++ "\n"))
      (stats.map fun e => ⟨metric, [("proxy", e.1)], value e⟩) := by
    have hsamples : (stats.map fun e => (⟨metric, [("proxy", e.1)], value e⟩ : Sample ℤ)) =
        stats.flatMap fun e => [⟨metric, [("proxy", e.1)], value e⟩] := List.map_eq_flatMap
    unfold ReadsText
    rw [String.toList_join, List.flatMap_map, hsamples]
    refine Reads.flatMap fun e _ => ?_
    have hline := reads_proxyLine hmetric e.1 (value e)
    rwa [← htext e] at hline
  exact hcomments.append hlines

/-- The four counters of every proxy are read back from theirs. -/
lemma reads_renderProxies : ReadsText (st.renderProxies st.sortedStats)
    (st.proxySamples "rfrp_proxy_bytes_up_total" (fun e => (st.proxyTraffic e.1).bytesUp) ++
      st.proxySamples "rfrp_proxy_bytes_down_total" (fun e => (st.proxyTraffic e.1).bytesDown) ++
      st.proxySamples "rfrp_proxy_connections_total" (fun e => e.2.connectionsTotal) ++
      st.proxySamples "rfrp_proxy_active_connections"
        fun e => (st.proxyTraffic e.1).activeConnections) := by
  unfold renderProxies
  refine .append (.append (.append ?_ ?_) ?_) ?_
  · exact reads_proxyMetric (by decide +kernel) (by decide) (by decide +kernel) _ _ _ fun e => rfl
  · exact reads_proxyMetric (by decide +kernel) (by decide) (by decide +kernel) _ _ _ fun e => rfl
  · exact reads_proxyMetric (by decide +kernel) (by decide) (by decide +kernel) _ _ _ fun e => rfl
  · exact reads_proxyMetric (by decide +kernel) (by decide) (by decide +kernel) _ _ _ fun e => rfl

/-- Every line is read as the sample it stands for. -/
theorem reads_renderPrometheus : ReadsText st.renderPrometheus st.samples := by
  unfold renderPrometheus
  extract_lets g out
  have hout : ReadsText out (st.processSamples ++ st.gaugeSamples) := by
    exact reads_render st
      |>.and_comment (by decide +kernel)
      |>.and_comment (by decide +kernel)
      |>.and_nat "rfrp_uptime_seconds" (by decide +kernel) st.uptimeSecs
      |>.and_comment (by decide +kernel)
      |>.and_comment (by decide +kernel)
      |>.and_nat "rfrp_sessions" (by decide +kernel) st.core.gauges.sessions
      |>.and_comment (by decide +kernel)
      |>.and_comment (by decide +kernel)
      |>.and_nat "rfrp_proxies" (by decide +kernel) st.core.gauges.proxies
      |>.and_comment (by decide +kernel)
      |>.and_comment (by decide +kernel)
      |>.and_nat "rfrp_pending_work" (by decide +kernel) st.core.gauges.pendingWork
      |>.and_comment (by decide +kernel)
      |>.and_comment (by decide +kernel)
      |>.and_nat "rfrp_udp_sessions" (by decide +kernel) st.core.gauges.udpSessions
      |>.and_comment (by decide +kernel)
      |>.and_comment (by decide +kernel)
      |>.and_nat "rfrp_pooled_work_conns" (by decide +kernel) st.core.gauges.pooledWorkConns
  split
  · next hempty =>
    have hsamples : st.samples = st.processSamples ++ st.gaugeSamples := by
      simp [samples, proxySamples, List.isEmpty_iff.mp hempty]
    rwa [hsamples]
  · exact hout.append (reads_renderProxies st)

end Monitored

/-- **Labels are safe**: the replacements escape a name character by character, the name is read back from
its label, no line feed and no quote of it is left to end the label, and what `render_prometheus` says
about any set of proxies is read as the names and the values that are meant. -/
theorem escapeLabel_safe :
    escapeLabel.Injective ∧
      (∀ v : String, (escapeLabel v).toList = v.toList.flatMap escapeChar ∧
        unescape (escapeLabel v).toList = some v.toList ∧
        '\n' ∉ (escapeLabel v).toList ∧ QuotesEscaped (escapeLabel v).toList) ∧
      ∀ st : Monitored, Exposition.read parseInteger st.renderPrometheus.toList = some st.samples ∧
        st.sortedStats.Perm st.core.proxyStats.toList := by
  refine ⟨escapeLabel_injective, fun v => ?_, fun st => ⟨?_, ?_⟩⟩
  · rw [toList_escapeLabel]
    exact ⟨rfl, unescape_escape _, feed_notMem_escape _, quotesEscaped_escape _⟩
  · exact st.reads_renderPrometheus.read_eq
  · exact List.mergeSort_perm _ _

end Rfrp
