import Rfrp.Server.Dashboard
import Rfrp.Server.Page

/-!
# The state in the page

`render_html` puts the state of the server as a text in JSON into an element of the page, after it has
replaced the characters of markup by their escapes.  The replacement is done on the whole text and not on
the strings in it, and still the text is read as the same value, free of markup, and stands in the
page at the place of the only placeholder, whatever the names in it are (`renderHtml_embeds`).
-/

namespace Rfrp

namespace Dashboard

open JsonText (ContentOnly Respells steps_unicode read_respelled respells_self)

/-! ## The embedded text -/

/-- A replacement of one character that keeps what a text is read as. -/
lemma read_replaceChar {α : Type*} (A : JsonText.Reader α) {c : Char} {new : String}
    (hnew : Respells c new.toList) {text : List Char} {v : α} (h : A.read text = some v) :
    A.read (replaceChar c new text) = some v := by
  apply read_respelled A _ h
  intro d
  split
  · next heq => exact heq ▸ hnew
  · exact respells_self d

/-- What a replacement brings in is the new text, and what it takes away is the character. -/
lemma mem_replaceChar {c d : Char} {new : String} {text : List Char}
    (h : d ∈ replaceChar c new text) : d ∈ new.toList ∨ d ∈ text ∧ d ≠ c := by
  obtain ⟨e, he, hd⟩ := List.mem_flatMap.mp h
  split at hd
  · exact .inl hd
  · next hne =>
    obtain rfl := List.mem_singleton.mp hd
    exact .inr ⟨he, hne⟩

/-- No markup is left. -/
lemma bootstrap_no_markup (lib : Lib) (st : Monitored) {c : Char} (hc : c ∈ bootstrap lib st) :
    c ≠ '<' ∧ c ≠ '>' ∧ c ≠ '&' := by
  have hnew : ∀ new ∈ ["\\u0026", "\\u003e", "\\u003c"],
      (new.toList.all fun c => decide (c ≠ '<' ∧ c ≠ '>' ∧ c ≠ '&')) = true := by
    decide
  rcases mem_replaceChar hc with hc | ⟨hc, hamp⟩
  · exact forall_mem_of_all (hnew _ (by decide)) c hc
  rcases mem_replaceChar hc with hc | ⟨hc, hgt⟩
  · exact forall_mem_of_all (hnew _ (by decide)) c hc
  rcases mem_replaceChar hc with hc | ⟨-, hlt⟩
  · exact forall_mem_of_all (hnew _ (by decide)) c hc
  · exact ⟨hlt, hgt, hamp⟩

/-- The characters of markup have no part in the syntax of JSON, and their escapes stand for them. -/
lemma respells_markup : Respells '<' "\\u003c".toList ∧ Respells '>' "\\u003e".toList ∧
    Respells '&' "\\u0026".toList := by
  have hcontent : ∀ c ∈ ['<', '>', '&'], ContentOnly c := by
    intro c hc
    constructor <;> (revert c; exact forall_mem_of_all (by decide))
  refine ⟨(hcontent '<' (by decide)).respells ?_, (hcontent '>' (by decide)).respells ?_,
    (hcontent '&' (by decide)).respells ?_⟩
  · exact steps_unicode 0 0 3 12 rfl rfl rfl rfl rfl (by decide)
  · exact steps_unicode 0 0 3 14 rfl rfl rfl rfl rfl (by decide)
  · exact steps_unicode 0 0 2 6 rfl rfl rfl rfl rfl (by decide)

/-- The embedded text is read as what the text of the library is read as. -/
lemma read_bootstrap {α : Type*} (A : JsonText.Reader α) {lib : Lib} {st : Monitored} {v : α}
    (h : A.read (lib.toStringCompact (statusJson lib st)).toList = some v) :
    A.read (bootstrap lib st) = some v := by
  obtain ⟨hlt, hgt, hamp⟩ := respells_markup
  exact read_replaceChar A hamp (read_replaceChar A hgt (read_replaceChar A hlt h))

/-! ## The placeholders -/

/-- Every underscore has another character after it. -/
def isolated : List Char → Bool
  | [] => true
  | c :: cs => (c != '_' || cs.head?.any (· != '_')) && isolated cs

/-- Two texts without a double underscore make one, as each ends in another character. -/
lemma isolated_append {a b : List Char} (ha : isolated a = true) (hb : isolated b = true) :
    isolated (a ++ b) = true := by
  induction a with
  | nil => exact hb
  | cons c a ih =>
    rw [isolated, Bool.and_eq_true] at ha
    rw [List.cons_append, isolated, Bool.and_eq_true]
    refine ⟨?_, ih ha.2⟩
    cases a with
    | nil =>
      simp only [List.head?_nil, Option.any_none, Bool.or_false] at ha
      simp [ha.1]
    | cons d a => exact ha.1

/-- A text without underscores has no double one. -/
lemma isolated_of_notMem {a : List Char} (h : '_' ∉ a) : isolated a = true := by
  induction a with
  | nil => rfl
  | cons c a ih =>
    rw [List.mem_cons, not_or] at h
    simp [isolated, ih h.2, Ne.symm h.1]

/-- A placeholder does not begin in a text in which the underscores are isolated. -/
lemma not_prefix_of_isolated {pattern : List Char} (hp : ['_', '_'] <+: pattern) {c : Char}
    {a t : List Char} (h : isolated (c :: a) = true) : ¬pattern <+: c :: (a ++ t) := by
  obtain ⟨rest, rfl⟩ := hp
  rintro ⟨u, hu⟩
  obtain ⟨rfl, hrest⟩ := List.cons.inj hu
  rw [isolated, Bool.and_eq_true] at h
  cases a with
  | nil => simp at h
  | cons d a =>
    obtain ⟨rfl, -⟩ := List.cons.inj hrest
    simp at h

/-- Nothing is replaced in such a text. -/
lemma replaceText_isolated {pattern a : List Char} (new : List Char) (hp : ['_', '_'] <+: pattern)
    (h : isolated a = true) (t : List Char) :
    replaceText pattern new 0 (a ++ t) = a ++ replaceText pattern new 0 t := by
  induction a with
  | nil => rfl
  | cons c a ih =>
    have hc := not_prefix_of_isolated (t := t) hp h
    rw [← List.isPrefixOf_iff_prefix] at hc
    rw [isolated, Bool.and_eq_true] at h
    rw [List.cons_append, replaceText, if_neg hc, ih h.2, List.cons_append]

/-- A text without a double underscore has no placeholder in it, and is left as it is. -/
lemma replaceText_of_isolated {pattern a : List Char} (new : List Char) (hp : ['_', '_'] <+: pattern)
    (h : isolated a = true) : replaceText pattern new 0 a = a := by
  have happ := replaceText_isolated new hp h []
  rwa [List.append_nil, replaceText, List.append_nil] at happ

/-- The characters of a placeholder that was replaced are skipped. -/
lemma replaceText_skip (pattern new taken t : List Char) :
    replaceText pattern new taken.length (taken ++ t) = replaceText pattern new 0 t := by
  induction taken with
  | nil => rfl
  | cons c taken ih => exact ih

/-- A placeholder is replaced, and the new text is not looked at again. -/
lemma replaceText_self {pattern : List Char} (hne : pattern ≠ []) (new t : List Char) :
    replaceText pattern new 0 (pattern ++ t) = new ++ replaceText pattern new 0 t := by
  obtain ⟨c, cs, rfl⟩ := List.exists_cons_of_ne_nil hne
  have hpre : (c :: cs).isPrefixOf (c :: (cs ++ t)) = true :=
    List.isPrefixOf_iff_prefix.mpr (List.prefix_append (c :: cs) t)
  rw [List.cons_append, replaceText, if_pos hpre, List.length_cons, Nat.add_sub_cancel,
    replaceText_skip]

/-- A placeholder that occurs does so after such a text. -/
lemma infix_of_isolated {pattern a t : List Char} (hp : ['_', '_'] <+: pattern)
    (h : isolated a = true) (hocc : pattern <:+: a ++ t) : pattern <:+: t := by
  induction a with
  | nil => exact hocc
  | cons c a ih =>
    rcases List.infix_cons_iff.mp hocc with hpre | hocc
    · exact absurd hpre (not_prefix_of_isolated hp h)
    · rw [isolated, Bool.and_eq_true] at h
      exact ih h.2 hocc

/-! ## The page -/

/-- The page around the state, with the version of the program in it. -/
def pageFront (version : String) : String := String.join pageTop ++ version ++ String.join pageMiddle

/-- The page after the state. -/
def pageBack : String := String.join pageBottom

/-- The placeholder stands once: between the two parts. -/
structure OnlyBetween (placeholder front back : List Char) : Prop where
  before : ¬placeholder <:+: front ++ placeholder.dropLast
  after : ¬placeholder <:+: placeholder.tail ++ back

/-- The characters of a literal. -/
lemma toList_literal {s : String} {l : List Char} (hs : s = String.ofList l) : s.toList = l := by
  rw [hs, String.toList_ofList]

/-- The characters of a text and of a literal behind it. -/
lemma toList_append_literal {s t : String} {l m : List Char} (hs : s.toList = l)
    (ht : t = String.ofList m) : (s ++ t).toList = l ++ m := by
  rw [String.toList_append, hs, toList_literal ht]

/-- A literal is checked on the list of its characters. -/
lemma isolated_literal {s : String} {l : List Char} (hs : s = String.ofList l) (hl : isolated l = true) :
    isolated s.toList = true := by
  rw [toList_literal hs, hl]

/-- Lines without a double underscore make a text without one. -/
lemma isolated_join {lines : List String} (h : ∀ line ∈ lines, isolated line.toList = true) :
    isolated (String.join lines).toList = true := by
  rw [String.toList_join]
  induction lines with
  | nil => rfl
  | cons line lines ih =>
    rw [List.forall_mem_cons] at h
    rw [List.flatMap_cons]
    exact isolated_append h.1 (ih h.2)

/-- There is no double underscore in front of the version. -/
lemma isolated_pageTop : isolated (String.join pageTop).toList = true := by
  apply isolated_join
  repeat refine List.forall_mem_cons.mpr ⟨isolated_literal rfl rfl, ?_⟩
  exact List.forall_mem_nil _

/-- There is no double underscore between the version and the state. -/
lemma isolated_pageMiddle : isolated (String.join pageMiddle).toList = true := by
  apply isolated_join
  repeat refine List.forall_mem_cons.mpr ⟨isolated_literal rfl rfl, ?_⟩
  exact List.forall_mem_nil _

/-- There is no double underscore behind the state. -/
lemma isolated_pageBack : isolated pageBack.toList = true := by
  apply isolated_join
  repeat refine List.forall_mem_cons.mpr ⟨isolated_literal rfl rfl, ?_⟩
  exact List.forall_mem_nil _

/-- There is none in front of the state if the version has no underscore. -/
lemma isolated_pageFront {version : String} (h : '_' ∉ version.toList) :
    isolated (pageFront version).toList = true := by
  unfold pageFront
  rw [String.toList_append, String.toList_append]
  exact isolated_append (isolated_append isolated_pageTop (isolated_of_notMem h)) isolated_pageMiddle

/-- The state stands in an element of its own: its tag comes before it. -/
lemma pageFront_suffix (version : String) :
    "<script id=\"rfrp-bootstrap\" type=\"application/json\">".toList <:+ (pageFront version).toList := by
  have hlast : pageMiddle = pageMiddle.dropLast ++
      ["<script id=\"rfrp-bootstrap\" type=\"application/json\">"] := rfl
  rw [pageFront, hlast, String.join_append, String.join_cons, String.join_nil, String.append_empty]
  simp only [String.toList_append, ← List.append_assoc]
  exact List.suffix_append ..

/-- And the end of the element comes after it. -/
lemma pageBack_prefix : "</script>\n".toList <+: pageBack.toList := by
  obtain ⟨rest, hrest⟩ : ∃ rest, pageBottom = "</script>\n" :: rest := ⟨_, rfl⟩
  rw [pageBack, hrest, String.join_cons, String.toList_append]
  exact List.prefix_append ..

/-- The version is put in, and the placeholder of the state is left as it is. -/
lemma replaceText_version (version : String) :
    replaceText "__VERSION__".toList version.toList 0 pageHtml.toList =
      (pageFront version).toList ++ "__BOOTSTRAP__".toList ++ pageBack.toList := by
  have hshape : pageHtml.toList = (String.join pageTop).toList ++ ("__VERSION__".toList ++
      ((String.join pageMiddle).toList ++ ("__BOOTSTRAP__".toList ++ pageBack.toList))) := by
    simp only [pageHtml, pageBack, String.toList_append, List.append_assoc]
  have hp : ['_', '_'] <+: "__VERSION__".toList := by decide
  have hskip : ∀ t, replaceText "__VERSION__".toList version.toList 0
      ("__BOOTSTRAP__".toList ++ '<' :: t) =
        "__BOOTSTRAP__".toList ++ replaceText "__VERSION__".toList version.toList 0 ('<' :: t) := by
    intro t
    simp [replaceText]
  obtain ⟨t, ht⟩ := pageBack_prefix
  have hback : pageBack.toList = '<' :: ("/script>\n".toList ++ t) := ht.symm
  have hrest := replaceText_of_isolated version.toList hp isolated_pageBack
  rw [hshape, replaceText_isolated _ hp isolated_pageTop, replaceText_self (by decide),
    replaceText_isolated _ hp isolated_pageMiddle]
  rw [hback, hskip, ← hback, hrest]
  simp only [pageFront, String.toList_append, List.append_assoc]

/-- The end of a placeholder and a text that begins with another tag have no placeholder in them. -/
lemma not_infix_underscores {back t : List Char} (hback : isolated back = true) (ht : back = '<' :: t) :
    ¬"__BOOTSTRAP__".toList <:+: '_' :: '_' :: back := by
  intro hocc
  rcases List.infix_cons_iff.mp hocc with ⟨u, hu⟩ | hocc
  · rw [ht] at hu
    simp at hu
  rcases List.infix_cons_iff.mp hocc with ⟨u, hu⟩ | hocc
  · rw [ht] at hu
    simp at hu
  rw [← List.append_nil back] at hocc
  exact absurd (List.infix_nil.mp (infix_of_isolated (by decide) hback hocc)) (by decide)

/-- There is one placeholder for the state. -/
lemma onlyBetween_bootstrap {front back t : List Char} (hfront : isolated front = true)
    (hback : isolated back = true) (ht : back = '<' :: t) :
    OnlyBetween "__BOOTSTRAP__".toList front back := by
  have hp : ['_', '_'] <+: "__BOOTSTRAP__".toList := by decide
  constructor
  · intro hocc
    have hlen := (infix_of_isolated hp hfront hocc).length_le
    revert hlen
    decide
  · intro hocc
    have hisolated : isolated ("_BOOTSTRAP".toList) = true := by decide
    have htail : "__BOOTSTRAP__".toList.tail = "_BOOTSTRAP".toList ++ ['_', '_'] := by decide
    rw [htail, List.append_assoc] at hocc
    exact not_infix_underscores hback ht (infix_of_isolated hp hisolated hocc)

/-- What is written for `/`: the state is embedded without markup, is read as the value that
`status_json` has made of it, and stands in the page where the only placeholder was, inside of the element
that is made for it. -/
theorem renderHtml_embeds (lib : Lib) (st : Monitored) (hpage : lib.page = pageHtml)
    (hversion : '_' ∉ lib.version.toList)
    (hjson : Json.reader.read (lib.toStringCompact (statusJson lib st)).toList =
      some (statusJson lib st).sorted) :
    (∀ c ∈ bootstrap lib st, c ≠ '<' ∧ c ≠ '>' ∧ c ≠ '&') ∧
      Json.reader.read (bootstrap lib st) = some (statusJson lib st).sorted ∧
      replaceText "__VERSION__".toList lib.version.toList 0 lib.page.toList =
        (pageFront lib.version).toList ++ "__BOOTSTRAP__".toList ++ pageBack.toList ∧
      OnlyBetween "__BOOTSTRAP__".toList (pageFront lib.version).toList pageBack.toList ∧
      (renderHtml lib st).toList =
        (pageFront lib.version).toList ++ bootstrap lib st ++ pageBack.toList ∧
      "<script id=\"rfrp-bootstrap\" type=\"application/json\">".toList <:+
        (pageFront lib.version).toList ∧
      "</script>\n".toList <+: pageBack.toList := by
  have hp : ['_', '_'] <+: "__BOOTSTRAP__".toList := by decide
  have hversion' := replaceText_version lib.version
  obtain ⟨t, ht⟩ : "</script>\n".toList <+: pageBack.toList := pageBack_prefix
  have hrest := replaceText_of_isolated (bootstrap lib st) hp isolated_pageBack
  have hrender : (renderHtml lib st).toList =
      (pageFront lib.version).toList ++ bootstrap lib st ++ pageBack.toList := by
    rw [renderHtml, String.toList_ofList, hpage, hversion', List.append_assoc,
      replaceText_isolated _ hp (isolated_pageFront hversion), replaceText_self (by decide), hrest,
      List.append_assoc]
  exact ⟨fun c hc => bootstrap_no_markup lib st hc, read_bootstrap _ hjson, hpage ▸ hversion',
    onlyBetween_bootstrap (isolated_pageFront hversion) isolated_pageBack ht.symm, hrender,
    pageFront_suffix _, pageBack_prefix⟩

/-- The text of the state of the next theorem, as `serde_json` writes it. -/
def hostileText : String :=
  "\x7b\"metrics\":\x7b\"accept_errors_total\":0,\"accepted_total\":0,\"accepting\":true," ++
  "\"active_connections\":0,\"bytes_down\":0,\"bytes_up\":0,\"total_connections\":0," ++
  "\"udp_dropped_total\":0\x7d,\"pending_work\":0,\"pooled_work_conns\":0,\"proxies\":0," ++
  "\"proxy_stats\":[\x7b\"active_connections\":0,\"bytes_down\":0,\"bytes_up\":0," ++
  "\"connections_total\":1,\"name\":\"</script>&__BOOTSTRAP__\"\x7d],\"rtt_ms\":0,\"sessions\":[]," ++
  "\"udp_sessions\":0,\"uptime_seconds\":0,\"version\":\"0.1.0\"\x7d"

/-- The libraries with that text, and the page of the program. -/
def hostileLib : Lib where
  httparse _ := none
  base64Encode _ := ""
  base64Decode _ := none
  toStringPretty _ := hostileText
  toStringCompact _ := hostileText
  version := "0.1.0"
  page := pageHtml

/-- A server that has counted a connection of a proxy whose name closes elements and has a placeholder in
it. -/
def hostileState : Monitored :=
  { Monitored.new .new with core := ServerState.new.countConnection "</script>&__BOOTSTRAP__" }

/-- Its page. -/
theorem renderHtml_embeds_hostile :
    Json.reader.read (bootstrap hostileLib hostileState) =
        some (statusJson hostileLib hostileState).sorted ∧
      (renderHtml hostileLib hostileState).toList =
        (pageFront "0.1.0").toList ++ bootstrap hostileLib hostileState ++ pageBack.toList := by
  have hstats : hostileState.sortedStats = [("</script>&__BOOTSTRAP__", ⟨1⟩)] := by
    have h : hostileState.core.proxyStats.toList = [("</script>&__BOOTSTRAP__", ⟨1⟩)] := rfl
    rw [Monitored.sortedStats, h, List.mergeSort_singleton]
  have hjson : Json.reader.read hostileText.toList =
      some (statusJson hostileLib hostileState).sorted := by
    have htext : hostileText.toList = _ :=
      toList_append_literal (toList_append_literal (toList_append_literal (toList_append_literal
        (toList_append_literal (toList_literal rfl) rfl) rfl) rfl) rfl) rfl
    unfold statusJson
    rw [hstats, htext]
    decide +kernel
  obtain ⟨-, hread, -, -, hrender, -⟩ :=
    renderHtml_embeds hostileLib hostileState rfl (by decide) hjson
  exact ⟨hread, hrender⟩

end Dashboard

end Rfrp
