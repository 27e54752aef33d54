import Mathlib.Init

/-!
# The text of the page

`crates/rfrps/src/dashboard/page.html`, line by line, in the three parts between which the version of the
program and the state of the server are put in.
-/

namespace Rfrp

namespace Dashboard

/-- The page up to the version. -/
def pageTop : List String := [
  "<!DOCTYPE html>\n",
  "<html lang=\"zh-CN\">\n",
  "<head>\n",
  "<meta charset=\"utf-8\">\n",
  "<meta name=\"viewport\" content=\"width=device-width,initial-scale=1\">\n",
  "<title>rfrp dashboard</title>\n",
  "<style>\n",
  ":root\x7b\n",
  "  --bg:#eef1f6; --card:#ffffff; --ink:#1f2937; --muted:#6b7280; --line:#e5e7eb;\n",
  "  --accent:#2563eb; --up:#2563eb; --down:#16a34a; --ok:#16a34a; --warn:#d97706; --err:#dc2626;\n",
  "  --shadow:0 1px 3px rgba(16,24,40,.06),0 1px 2px rgba(16,24,40,.04);\n",
  "\x7d\n",
  "*\x7bbox-sizing:border-box\x7d\n",
  "body\x7bmargin:0;background:var(--bg);color:var(--ink);\n",
  "  font-family:system-ui,-apple-system,\"Segoe UI\",Roboto,\"Helvetica Neue\",Arial,\"PingFang ",
  "SC\",\"Microsoft YaHei\",sans-serif;\n",
  "  font-size:14px;line-height:1.5\x7d\n",
  "\n",
  ".topbar\x7bposition:sticky;top:0;z-index:10;display:flex;flex-wrap:wrap;gap:.5rem 1rem;\n",
  "  align-items:center;justify-content:space-between;padding:.7rem 1.2rem;\n",
  "  background:#111827;color:#f9fafb;box-shadow:0 2px 8px rgba(0,0,0,.15)\x7d\n",
  ".brand\x7bfont-size:1.05rem;font-weight:600;letter-spacing:.2px\x7d\n",
  ".brand .ver\x7bfont-size:.75rem;font-weight:400;color:#9ca3af;margin-left:.4rem\x7d\n",
  ".topright\x7bdisplay:flex;flex-wrap:wrap;align-items:center;gap:.15rem .7rem;font-size:.85rem;",
  "color:#d1d5db\x7d\n",
  ".topright b\x7bcolor:#fff;font-weight:600\x7d\n",
  ".sep\x7bwidth:1px;height:14px;background:#374151\x7d\n",
  ".dot\x7bdisplay:inline-block;width:9px;height:9px;border-radius:50%;margin-right:.35rem;",
  "vertical-align:middle\x7d\n",
  ".dot.ok\x7bbackground:#22c55e;box-shadow:0 0 0 3px rgba(34,197,94,.2)\x7d\n",
  ".dot.bad\x7bbackground:#ef4444;box-shadow:0 0 0 3px rgba(239,68,68,.2)\x7d\n",
  ".logout\x7bcolor:#93c5fd;text-decoration:none;border:1px solid #374151;border-radius:6px;",
  "padding:.15rem .6rem\x7d\n",
  ".logout:hover\x7bbackground:#1f2937\x7d\n",
  "\n",
  "main\x7bmax-width:1180px;margin:1.2rem auto 3rem;padding:0 1.2rem;display:flex;",
  "flex-direction:column;gap:1.1rem\x7d\n",
  "\n",
  ".kpis\x7bdisplay:grid;grid-template-columns:repeat(auto-fit,minmax(150px,1fr));gap:.8rem\x7d\n",
  ".kpi\x7bbackground:var(--card);border:1px solid var(--line);border-radius:10px;padding:.75rem ",
  ".9rem;box-shadow:var(--shadow)\x7d\n",
  ".kpi .k-label\x7bfont-size:.78rem;color:var(--muted)\x7d\n",
  ".kpi .k-value\x7bfont-size:1.5rem;font-weight:650;margin-top:.15rem;",
  "font-variant-numeric:tabular-nums\x7d\n",
  ".kpis.small .kpi .k-value\x7bfont-size:1.15rem\x7d\n",
  "\n",
  ".panel\x7bbackground:var(--card);border:1px solid var(--line);border-radius:10px;padding:1rem ",
  "1.1rem;box-shadow:var(--shadow)\x7d\n",
  ".panel h2\x7bmargin:0 0 .8rem;font-size:.95rem;font-weight:600;display:flex;align-items:center;",
  "gap:.5rem\x7d\n",
  ".panel h2 .count\x7bfont-size:.78rem;font-weight:400;color:var(--muted)\x7d\n",
  "\n",
  ".traffic\x7bdisplay:grid;grid-template-columns:180px 1fr;gap:1rem;align-items:center\x7d\n",
  ".t-num\x7bfont-size:.85rem;color:var(--muted)\x7d\n",
  ".t-num b\x7bdisplay:block;font-size:1.35rem;color:var(--ink);",
  "font-variant-numeric:tabular-nums\x7d\n",
  ".t-num .up\x7bcolor:var(--up);font-weight:700\x7d\n",
  ".t-num .down\x7bcolor:var(--down);font-weight:700\x7d\n",
  ".t-num+.t-num\x7bmargin-top:.8rem\x7d\n",
  "#spark\x7bwidth:100%;height:120px;background:linear-gradient(#fafbfc,#f4f6f9);border:1px solid ",
  "var(--line);border-radius:8px\x7d\n",
  "#spark .line-up\x7bfill:none;stroke:var(--up);stroke-width:2;",
  "vector-effect:non-scaling-stroke\x7d\n",
  "#spark .line-down\x7bfill:none;stroke:var(--down);stroke-width:2;",
  "vector-effect:non-scaling-stroke\x7d\n",
  "\n",
  ".proxy-grid\x7bdisplay:grid;grid-template-columns:repeat(auto-fill,minmax(240px,1fr));",
  "gap:.8rem\x7d\n",
  ".proxy\x7bborder:1px solid var(--line);border-radius:9px;padding:.7rem .8rem;",
  "background:#fcfdff\x7d\n",
  ".proxy-head\x7bdisplay:flex;align-items:center;justify-content:space-between;gap:.5rem;",
  "margin-bottom:.55rem\x7d\n",
  ".proxy-name\x7bfont-weight:600;overflow:hidden;text-overflow:ellipsis;white-space:nowrap\x7d\n",
  ".badge\x7bfont-size:.72rem;text-transform:uppercase;letter-spacing:.4px;color:#1e40af;\n",
  "  background:#dbeafe;border-radius:999px;padding:.1rem .5rem;flex:0 0 auto\x7d\n",
  ".proxy-stats\x7bdisplay:grid;grid-template-columns:repeat(2,1fr);gap:.3rem .6rem;",
  "font-size:.82rem;color:var(--muted)\x7d\n",
  ".proxy-stats b\x7bcolor:var(--ink);font-weight:600;font-variant-numeric:tabular-nums\x7d\n",
  ".proxy-stats .full\x7bgrid-column:1/-1\x7d\n",
  ".proxy-meta\x7bmargin-top:.45rem;font-size:.78rem;color:var(--muted);overflow:hidden;\n",
  "  text-overflow:ellipsis;white-space:nowrap\x7d\n",
  "\n",
  "table\x7bwidth:100%;border-collapse:collapse;font-size:.85rem\x7d\n",
  "th,td\x7btext-align:left;padding:.45rem .5rem;border-bottom:1px solid var(--line)\x7d\n",
  "th\x7bcolor:var(--muted);font-weight:500;font-size:.78rem\x7d\n",
  "td.mono\x7bfont-family:ui-monospace,SFMono-Regular,Menlo,Consolas,monospace;font-size:.8rem\x7d",
  "\n",
  "tr:last-child td\x7bborder-bottom:0\x7d\n",
  "\n",
  ".empty\x7bcolor:var(--muted);font-size:.85rem;padding:.4rem 0\x7d\n",
  ".noscript\x7bmax-width:1180px;margin:1rem auto;padding:0 1.2rem;color:var(--err)\x7d\n",
  "\n",
  "@media (max-width:640px)\x7b\n",
  "  .traffic\x7bgrid-template-columns:1fr\x7d\n",
  "  .kpi .k-value\x7bfont-size:1.3rem\x7d\n",
  "\x7d\n",
  "</style>\n",
  "</head>\n",
  "<body>\n",
  "\n",
  "<header class=\"topbar\">\n",
  "  <div class=\"brand\">rfrp dashboard <span class=\"ver\">v"]

/-- The page between the version and the state. -/
def pageMiddle : List String := [
  "</span></div>\n",
  "  <div class=\"topright\">\n",
  "    <span><span id=\"health\" class=\"dot ok\"></span><span id=\"health-text\">正常</span>",
  "</span>\n",
  "    <span class=\"sep\"></span><span>RTT <b id=\"rtt\">-</b></span>\n",
  "    <span class=\"sep\"></span><span>运行 <b id=\"uptime\">-</b></span>\n",
  "    <span class=\"sep\"></span><span id=\"updated\">-</span>\n",
  "    <a class=\"logout\" href=\"/logout\">退出登录</a>\n",
  "  </div>\n",
  "</header>\n",
  "\n",
  "<main>\n",
  "  <section class=\"kpis\">\n",
  "    <div class=\"kpi\"><div class=\"k-label\">控制会话</div><div class=\"k-value\" ",
  "id=\"k-sessions\">-</div></div>\n",
  "    <div class=\"kpi\"><div class=\"k-label\">已注册代理</div><div class=\"k-value\" ",
  "id=\"k-proxies\">-</div></div>\n",
  "    <div class=\"kpi\"><div class=\"k-label\">活跃连接</div><div class=\"k-value\" ",
  "id=\"k-active\">-</div></div>\n",
  "    <div class=\"kpi\"><div class=\"k-label\">累计连接</div><div class=\"k-value\" ",
  "id=\"k-total\">-</div></div>\n",
  "    <div class=\"kpi\"><div class=\"k-label\">待配对连接</div><div class=\"k-value\" ",
  "id=\"k-pending\">-</div></div>\n",
  "    <div class=\"kpi\"><div class=\"k-label\">UDP 会话</div><div class=\"k-value\" id=\"k-udp\">",
  "-</div></div>\n",
  "    <div class=\"kpi\"><div class=\"k-label\">池中空闲</div><div class=\"k-value\" ",
  "id=\"k-pooled\">-</div></div>\n",
  "    <div class=\"kpi\"><div class=\"k-label\">控制链路 RTT</div><div class=\"k-value\" ",
  "id=\"k-rtt\">-</div></div>\n",
  "  </section>\n",
  "\n",
  "  <section class=\"panel\">\n",
  "    <h2>流量 <span class=\"count\">最近 60 个采样点的速率</span></h2>\n",
  "    <div class=\"traffic\">\n",
  "      <div>\n",
  "        <div class=\"t-num\"><span class=\"up\">↑ 累计上行</span><b id=\"bytes-up\">-</b></div>",
  "\n",
  "        <div class=\"t-num\"><span class=\"down\">↓ 累计下行</span><b id=\"bytes-down\">-</b>",
  "</div>\n",
  "      </div>\n",
  "      <svg id=\"spark\" viewBox=\"0 0 600 120\" preserveAspectRatio=\"none\"></svg>\n",
  "    </div>\n",
  "  </section>\n",
  "\n",
  "  <section class=\"panel\">\n",
  "    <h2>代理 <span class=\"count\" id=\"proxy-count\"></span></h2>\n",
  "    <div id=\"proxies\" class=\"proxy-grid\"></div>\n",
  "  </section>\n",
  "\n",
  "  <section class=\"panel\">\n",
  "    <h2>会话 <span class=\"count\" id=\"session-count\"></span></h2>\n",
  "    <table>\n",
  "      <thead><tr><th>run_id</th><th>session_id</th><th>代理</th></tr></thead>\n",
  "      <tbody id=\"sessions\"></tbody>\n",
  "    </table>\n",
  "  </section>\n",
  "\n",
  "  <section class=\"panel\">\n",
  "    <h2>运行指标</h2>\n",
  "    <div class=\"kpis small\">\n",
  "      <div class=\"kpi\"><div class=\"k-label\">控制端口累计接受</div><div class=\"k-value\" ",
  "id=\"ops-accepted\">-</div></div>\n",
  "      <div class=\"kpi\"><div class=\"k-label\">accept 错误</div><div class=\"k-value\" ",
  "id=\"ops-accept-err\">-</div></div>\n",
  "      <div class=\"kpi\"><div class=\"k-label\">UDP 丢包</div><div class=\"k-value\" ",
  "id=\"ops-udp-drop\">-</div></div>\n",
  "      <div class=\"kpi\"><div class=\"k-label\">accept 循环</div><div class=\"k-value\" ",
  "id=\"ops-accepting\">-</div></div>\n",
  "    </div>\n",
  "  </section>\n",
  "</main>\n",
  "\n",
  "<noscript><p class=\"noscript\">此看板需要启用 JavaScript 才能实时刷新。</p></noscript>\n",
  "\n",
  "<script id=\"rfrp-bootstrap\" type=\"application/json\">"]

/-- The page after the state. -/
def pageBottom : List String := [
  "</script>\n",
  "<script>\n",
  "(function () \x7b\n",
  "  \"use strict\";\n",
  "  var $ = function (id) \x7b return document.getElementById(id); \x7d;\n",
  "  var boot = JSON.parse($(\"rfrp-bootstrap\").textContent);\n",
  "  var UNITS = [\"B\", \"KiB\", \"MiB\", \"GiB\", \"TiB\", \"PiB\"];\n",
  "\n",
  "  function fmtBytes(n) \x7b\n",
  "    n = Number(n) || 0;\n",
  "    var i = 0;\n",
  "    while (n >= 1024 && i < UNITS.length - 1) \x7b n /= 1024; i++; \x7d\n",
  "    return (i === 0 ? Math.round(n) : n.toFixed(n < 10 ? 2 : 1)) + \" \" + UNITS[i];\n",
  "  \x7d\n",
  "  function fmtDur(sec) \x7b\n",
  "    sec = Math.max(0, Math.floor(Number(sec) || 0));\n",
  "    var d = Math.floor(sec / 86400), h = Math.floor(sec % 86400 / 3600),\n",
  "        m = Math.floor(sec % 3600 / 60), s = sec % 60;\n",
  "    if (d) return d + \"d \" + h + \"h\";\n",
  "    if (h) return h + \"h \" + m + \"m\";\n",
  "    if (m) return m + \"m \" + s + \"s\";\n",
  "    return s + \"s\";\n",
  "  \x7d\n",
  "  function text(id, v) \x7b var e = $(id); if (e) e.textContent = v; \x7d\n",
  "\n",
  "  // ---- 流量走势：轮询差分得到速率 ----\n",
  "  var prev = null, hist = [], MAXPTS = 60;\n",
  "  function pushHistory(up, down) \x7b\n",
  "    var now = Date.now();\n",
  "    if (prev) \x7b\n",
  "      var dt = Math.max(0.001, (now - prev.t) / 1000);\n",
  "      hist.push(\x7b\n",
  "        up: Math.max(0, up - prev.up) / dt,\n",
  "        down: Math.max(0, down - prev.down) / dt\n",
  "      \x7d);\n",
  "      if (hist.length > MAXPTS) hist.shift();\n",
  "    \x7d\n",
  "    prev = \x7b t: now, up: up, down: down \x7d;\n",
  "  \x7d\n",
  "  function drawSpark() \x7b\n",
  "    var svg = $(\"spark\");\n",
  "    while (svg.firstChild) svg.removeChild(svg.firstChild);\n",
  "    if (hist.length < 2) return;\n",
  "    var W = 600, H = 120, PAD = 4, max = 1;\n",
  "    hist.forEach(function (p) \x7b max = Math.max(max, p.up, p.down); \x7d);\n",
  "    function line(key, cls) \x7b\n",
  "      var pts = hist.map(function (p, i) \x7b\n",
  "        var x = PAD + (W - 2 * PAD) * i / (hist.length - 1);\n",
  "        var y = H - PAD - (H - 2 * PAD) * p[key] / max;\n",
  "        return x.toFixed(1) + \",\" + y.toFixed(1);\n",
  "      \x7d).join(\" \");\n",
  "      var el = document.createElementNS(\"http://www.w3.org/2000/svg\", \"polyline\");\n",
  "      el.setAttribute(\"points\", pts);\n",
  "      el.setAttribute(\"class\", cls);\n",
  "      svg.appendChild(el);\n",
  "    \x7d\n",
  "    line(\"up\", \"line-up\");\n",
  "    line(\"down\", \"line-down\");\n",
  "  \x7d\n",
  "\n",
  "  // ---- 代理：合并会话登记（含未产生流量的代理）与每代理统计 ----\n",
  "  function collectProxies(s) \x7b\n",
  "    var map = new Map();\n",
  "    (s.sessions || []).forEach(function (sess) \x7b\n",
  "      (sess.proxies || []).forEach(function (p) \x7b\n",
  "        if (!map.has(p.name)) \x7b\n",
  "          map.set(p.name, \x7b\n",
  "            name: p.name, kind: p.kind,\n",
  "            remote_port: p.remote_port, domains: p.domains,\n",
  "            bytes_up: 0, bytes_down: 0,\n",
  "            connections_total: 0, active_connections: 0\n",
  "          \x7d);\n",
  "        \x7d\n",
  "      \x7d);\n",
  "    \x7d);\n",
  "    (s.proxy_stats || []).forEach(function (st) \x7b\n",
  "      var cur = map.get(st.name) || \x7b name: st.name, kind: \"-\" \x7d;\n",
  "      map.set(st.name, Object.assign(\n",
  "        \x7b bytes_up: 0, bytes_down: 0, connections_total: 0, active_connections: 0 \x7d,\n",
  "        cur, st));\n",
  "    \x7d);\n",
  "    return Array.from(map.values()).sort(function (a, b) \x7b return ",
  "a.name.localeCompare(b.name); \x7d);\n",
  "  \x7d\n",
  "\n",
  "  function stat(label, value) \x7b\n",
  "    var d = document.createElement(\"div\");\n",
  "    d.appendChild(document.createTextNode(label + \" \"));\n",
  "    var b = document.createElement(\"b\");\n",
  "    b.textContent = value;\n",
  "    d.appendChild(b);\n",
  "    return d;\n",
  "  \x7d\n",
  "  function renderProxies(list) \x7b\n",
  "    var box = $(\"proxies\");\n",
  "    box.textContent = \"\";\n",
  "    if (!list.length) \x7b\n",
  "      var e = document.createElement(\"div\");\n",
  "      e.className = \"empty\";\n",
  "      e.textContent = \"暂无已注册代理\";\n",
  "      box.appendChild(e);\n",
  "      return;\n",
  "    \x7d\n",
  "    list.forEach(function (p) \x7b\n",
  "      var card = document.createElement(\"div\");\n",
  "      card.className = \"proxy\";\n",
  "      var head = document.createElement(\"div\");\n",
  "      head.className = \"proxy-head\";\n",
  "      var name = document.createElement(\"span\");\n",
  "      name.className = \"proxy-name\";\n",
  "      name.textContent = p.name;\n",
  "      name.title = p.name;\n",
  "      var badge = document.createElement(\"span\");\n",
  "      badge.className = \"badge\";\n",
  "      badge.textContent = p.kind;\n",
  "      head.appendChild(name);\n",
  "      head.appendChild(badge);\n",
  "      var stats = document.createElement(\"div\");\n",
  "      stats.className = \"proxy-stats\";\n",
  "      stats.appendChild(stat(\"活跃\", p.active_connections));\n",
  "      stats.appendChild(stat(\"累计\", p.connections_total));\n",
  "      stats.appendChild(stat(\"上行\", fmtBytes(p.bytes_up)));\n",
  "      stats.appendChild(stat(\"下行\", fmtBytes(p.bytes_down)));\n",
  "      var meta = \"\";\n",
  "      if (p.remote_port) meta = \"远程端口 \" + p.remote_port;\n",
  "      else if (p.domains && p.domains.length) meta = \"域名 \" + p.domains.join(\", \");\n",
  "      card.appendChild(head);\n",
  "      card.appendChild(stats);\n",
  "      if (meta) \x7b\n",
  "        var metaEl = document.createElement(\"div\");\n",
  "        metaEl.className = \"proxy-meta\";\n",
  "        metaEl.textContent = meta;\n",
  "        metaEl.title = meta;\n",
  "        card.appendChild(metaEl);\n",
  "      \x7d\n",
  "      box.appendChild(card);\n",
  "    \x7d);\n",
  "  \x7d\n",
  "\n",
  "  function renderSessions(list) \x7b\n",
  "    var body = $(\"sessions\");\n",
  "    body.textContent = \"\";\n",
  "    if (!list.length) \x7b\n",
  "      var tr = document.createElement(\"tr\");\n",
  "      var td = document.createElement(\"td\");\n",
  "      td.colSpan = 3;\n",
  "      td.className = \"empty\";\n",
  "      td.textContent = \"暂无活跃控制会话\";\n",
  "      tr.appendChild(td);\n",
  "      body.appendChild(tr);\n",
  "      return;\n",
  "    \x7d\n",
  "    list.forEach(function (s) \x7b\n",
  "      var tr = document.createElement(\"tr\");\n",
  "      [\"run_id\", \"session_id\"].forEach(function (k) \x7b\n",
  "        var td = document.createElement(\"td\");\n",
  "        td.className = \"mono\";\n",
  "        td.textContent = s[k];\n",
  "        td.title = s[k];\n",
  "        tr.appendChild(td);\n",
  "      \x7d);\n",
  "      var td = document.createElement(\"td\");\n",
  "      td.textContent = (s.proxies || []).map(function (p) \x7b\n",
  "        return p.name + \" (\" + p.kind + \")\";\n",
  "      \x7d).join(\", \") || \"-\";\n",
  "      tr.appendChild(td);\n",
  "      body.appendChild(tr);\n",
  "    \x7d);\n",
  "  \x7d\n",
  "\n",
  "  function setHealth(accepting) \x7b\n",
  "    var dot = $(\"health\");\n",
  "    dot.className = \"dot \" + (accepting ? \"ok\" : \"bad\");\n",
  "    text(\"health-text\", accepting ? \"正常\" : \"异常\");\n",
  "  \x7d\n",
  "  function setOffline() \x7b\n",
  "    $(\"health\").className = \"dot bad\";\n",
  "    text(\"health-text\", \"连接失败\");\n",
  "  \x7d\n",
  "\n",
  "  function render(s) \x7b\n",
  "    var m = s.metrics || \x7b\x7d;\n",
  "    text(\"k-sessions\", (s.sessions || []).length);\n",
  "    text(\"k-proxies\", s.proxies);\n",
  "    text(\"k-active\", m.active_connections);\n",
  "    text(\"k-total\", m.total_connections);\n",
  "    text(\"k-pending\", s.pending_work);\n",
  "    text(\"k-udp\", s.udp_sessions);\n",
  "    text(\"k-pooled\", s.pooled_work_conns);\n",
  "    text(\"k-rtt\", s.rtt_ms ? s.rtt_ms + \" ms\" : \"-\");\n",
  "    text(\"rtt\", s.rtt_ms ? s.rtt_ms + \" ms\" : \"-\");\n",
  "    text(\"uptime\", fmtDur(s.uptime_seconds));\n",
  "    text(\"bytes-up\", fmtBytes(m.bytes_up));\n",
  "    text(\"bytes-down\", fmtBytes(m.bytes_down));\n",
  "    text(\"ops-accepted\", m.accepted_total);\n",
  "    text(\"ops-accept-err\", m.accept_errors_total);\n",
  "    text(\"ops-udp-drop\", m.udp_dropped_total);\n",
  "    text(\"ops-accepting\", m.accepting ? \"正常\" : \"异常\");\n",
  "\n",
  "    var proxies = collectProxies(s);\n",
  "    text(\"proxy-count\", proxies.length ? \"共 \" + proxies.length + \" 个\" : \"\");\n",
  "    renderProxies(proxies);\n",
  "    text(\"session-count\", (s.sessions || []).length ? \"共 \" + s.sessions.length + \" 个\" : ",
  "\"\");\n",
  "    renderSessions(s.sessions || []);\n",
  "\n",
  "    setHealth(!!m.accepting);\n",
  "    pushHistory(m.bytes_up || 0, m.bytes_down || 0);\n",
  "    drawSpark();\n",
  "    text(\"updated\", \"更新 \" + new Date().toLocaleTimeString());\n",
  "  \x7d\n",
  "\n",
  "  async function tick() \x7b\n",
  "    try \x7b\n",
  "      var r = await fetch(\"/api/status\", \x7b cache: \"no-store\" \x7d);\n",
  "      if (r.status === 401) \x7b location.href = \"/login\"; return; \x7d\n",
  "      if (!r.ok) throw new Error(\"HTTP \" + r.status);\n",
  "      render(await r.json());\n",
  "    \x7d catch (e) \x7b\n",
  "      setOffline();\n",
  "    \x7d\n",
  "  \x7d\n",
  "\n",
  "  render(boot);\n",
  "  // 5s 轮询：与旧版 meta refresh 节奏一致，同时避免多标签页触发限频（100 次/分钟/IP）。\n",
  "  setInterval(tick, 5000);\n",
  "\x7d)();\n",
  "</script>\n",
  "</body>\n",
  "</html>\n"]

/-- `dashboard/page.html`. -/
def pageHtml : String :=
  String.join pageTop ++ "__VERSION__" ++ String.join pageMiddle ++ "__BOOTSTRAP__" ++
    String.join pageBottom

end Dashboard

end Rfrp
