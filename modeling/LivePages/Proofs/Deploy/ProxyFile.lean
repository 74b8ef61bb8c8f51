import LivePages.Deploy.Proxy
import LivePages.Proofs.Deploy.Directives

namespace LivePages

open ProxyToken

/-- A name of a host: letters, digits, dashes and points. -/
def isHostName (name : String) : Bool :=
  !name.isEmpty && name.toList.all fun c => c.isAlphanum || c == '-' || c == '.'

theorem isWord_of_isHostName {name : String} (h : isHostName name) : IsWord name := by
  rw [isHostName, Bool.and_eq_true, Bool.not_eq_true', List.all_eq_true] at h
  have plain {c : Char} (hc : (c.isAlphanum || c == '-' || c == '.') = true) :
      isProxyWordChar c ∧ c ≠ '#' := by
    have other {d : Char} (hd : (d.isAlphanum || d == '-' || d == '.') = false) : c ≠ d := by
      rintro rfl
      rw [hc] at hd
      cases hd
    have blank : isProxyBlank c = false := by
      simp [isProxyBlank, other (d := ' ') rfl, other (d := '\t') rfl, other (d := '\r') rfl,
        other (d := '\n') rfl]
    have delimiter : isProxyDelimiter c = false := by
      simp [isProxyDelimiter, other (d := ';') rfl, other (d := '\x7b') rfl,
        other (d := '\x7d') rfl]
    exact ⟨by rw [isProxyWordChar, blank, delimiter]; rfl, other rfl⟩
  obtain ⟨c, cs, e⟩ : ∃ c cs, name.toList = c :: cs := by
    refine List.exists_cons_of_ne_nil fun e => ?_
    rw [String.toList_eq_nil_iff.mp e] at h
    cases h.1
  refine ⟨List.all_eq_true.mpr fun c hc => (plain (h.2 c hc)).1, c, by rw [e]; rfl, ?_⟩
  exact (plain (h.2 c (e ▸ List.mem_cons_self))).2

namespace Directive

def socketBody (path : String) : List Directive :=
  [simple ["proxy_pass", "http://backend" ++ path], simple ["proxy_http_version", "1.1"],
    simple ["proxy_set_header", "Upgrade", "$http_upgrade"],
    simple ["proxy_set_header", "Connection", "\"Upgrade\""],
    simple ["proxy_set_header", "Host", "$host"]]

/-- What passes the connections of a room on. -/
def ofSocket (path : String) : Directive :=
  block ["location", "=", path] (socketBody path)

def certificate : List Directive :=
  [simple ["ssl_certificate", certificateMount],
    simple ["ssl_certificate_key", certificateKeyMount]]

def serverBody (port : List String) (secure : Bool) (s : Settings) (sockets : List String) :
    List Directive :=
  [simple ("listen" :: port), simple ["server_name", s.serverName]] ++
    (if secure then certificate else []) ++
    [block ["location", "/"]
      [simple ["root", "/usr/share/nginx/html"], simple ["index", "index.html", "index.htm"]]] ++
    sockets.map ofSocket

def ofServer (port : List String) (secure : Bool) (s : Settings) (sockets : List String) :
    Directive :=
  block ["server"] (serverBody port secure s sockets)

def backend : Directive :=
  block ["upstream", "backend"] [simple ["server", "interactive-widgets-backend"]]

end Directive

open Directive

/-- The directives of the configuration that goes with a plan. -/
def proxyFile (p : ExecutionPlan) (s : Settings) : List Directive :=
  (if p.hasRooms then [backend] else []) ++ [ofServer ["80"] false s p.sockets] ++
    (if s.certificate?.isSome then [ofServer ["443", "ssl"] true s p.sockets] else [])

def tokensOfLines (lines : List String) : List ProxyToken :=
  lines.flatMap fun line => ofChars line.toList

theorem tokensOfLines_ofList (cs : List Char) (lines : List String) :
    tokensOfLines (String.ofList cs :: lines) = ofChars cs ++ tokensOfLines lines := by
  rw [tokensOfLines, List.flatMap_cons, String.toList_ofList]
  rfl

theorem tokensOfLines_socket {path : String} (h : path.toList.all isProxyWordChar)
    (hr : path.toList.head? = some '/') :
    tokensOfLines (socketLines path) = (ofSocket path).tokens := by
  have word : IsWord path := ⟨h, '/', hr, by decide⟩
  have target : IsWord ("http://backend" ++ path) := by
    rw [IsWord, String.toList_append, List.all_append, h]
    exact ⟨rfl, 'h', rfl, by decide⟩
  have location : ofChars ("    location = " ++ path ++ " \x7b").toList =
      [.word "location", .word "=", .word path, .opening] := by
    have words (rest : List Char) : ofChars ("    location = ".toList ++ rest) =
        .word "location" :: .word "=" :: ofChars rest := by
      rw [String.toList_ofList]
      rfl
    have brace : (" \x7b" : String).toList = ' ' :: ['\x7b'] := String.toList_ofList
    rw [String.toList_append, String.toList_append, List.append_assoc, words, brace, word.read rfl]
    rfl
  have pass : ofChars ("        proxy_pass http://backend" ++ path ++ ";").toList =
      [.word "proxy_pass", .word ("http://backend" ++ path), .semicolon] := by
    have words (rest : List Char) : ofChars ("        proxy_pass ".toList ++ rest) =
        .word "proxy_pass" :: ofChars rest := by
      rw [String.toList_ofList]
      rfl
    have start : "        proxy_pass http://backend" = "        proxy_pass " ++ "http://backend" := rfl
    have stop : (";" : String).toList = ';' :: [] := String.toList_ofList
    have parts : ("        proxy_pass http://backend" ++ path ++ ";").toList =
        "        proxy_pass ".toList ++ (("http://backend" ++ path).toList ++ ';' :: []) := by
      rw [start, String.append_assoc, String.append_assoc, String.toList_append, ← String.append_assoc,
        String.toList_append, stop]
    rw [parts, words, target.read rfl]
    rfl
  have rest : tokensOfLines ["        proxy_http_version 1.1;",
      "        proxy_set_header Upgrade $http_upgrade;",
      "        proxy_set_header Connection \"Upgrade\";",
      "        proxy_set_header Host $host;", "    \x7d"] =
        allTokens [simple ["proxy_http_version", "1.1"],
          simple ["proxy_set_header", "Upgrade", "$http_upgrade"],
          simple ["proxy_set_header", "Connection", "\"Upgrade\""],
          simple ["proxy_set_header", "Host", "$host"]] ++ [.closing] := by
    rw [tokensOfLines_ofList, tokensOfLines_ofList, tokensOfLines_ofList, tokensOfLines_ofList,
      tokensOfLines_ofList]
    rfl
  rw [tokensOfLines, socketLines, List.flatMap_cons, location, List.flatMap_cons, pass, ← tokensOfLines, rest]
  rfl

theorem tokensOfLines_append (lines lines' : List String) :
    tokensOfLines (lines ++ lines') = tokensOfLines lines ++ tokensOfLines lines' :=
  List.flatMap_append

theorem tokensOfLines_sockets {sockets : List String}
    (h : ∀ path ∈ sockets, path.toList.all isProxyWordChar ∧ path.toList.head? = some '/') :
    tokensOfLines (sockets.flatMap socketLines) = allTokens (sockets.map ofSocket) := by
  induction sockets with
  | nil => rfl
  | cons path sockets ih =>
    rw [List.forall_mem_cons] at h
    rw [List.flatMap_cons, tokensOfLines_append, tokensOfLines_socket h.1.1 h.1.2, ih h.2,
      List.map_cons, allTokens]

theorem tokensOfLines_certificateLines : tokensOfLines certificateLines = allTokens certificate := by
  have line {start mount : List Char} (rest : List String) :
      tokensOfLines ((String.ofList start ++ String.ofList mount ++ ";") :: rest) =
        ofChars (start ++ mount ++ [';']) ++ tokensOfLines rest := by
    have stop : (";" : String).toList = [';'] := String.toList_ofList
    rw [tokensOfLines, List.flatMap_cons, String.toList_append, String.toList_append, String.toList_ofList,
      String.toList_ofList, stop]
    rfl
  rw [certificateLines, certificateMount, certificateKeyMount, line, line]
  rfl

section

variable {s : Settings} (hs : isHostName s.serverName)

include hs

theorem tokensOfLines_server {port : String} {words : List String} (secure : Bool)
    {sockets : List String} (hp : ofChars ("    listen       " ++ port ++ ";").toList =
      (simple ("listen" :: words)).tokens)
    (h : ∀ path ∈ sockets, path.toList.all isProxyWordChar ∧ path.toList.head? = some '/') :
    tokensOfLines (serverLines port secure s sockets) =
      (ofServer words secure s sockets).tokens := by
  have name : ofChars ("    server_name  " ++ s.serverName ++ ";").toList =
      (simple ["server_name", s.serverName]).tokens := by
    have first (rest : List Char) : ofChars ("    server_name  ".toList ++ rest) =
        .word "server_name" :: ofChars rest := by
      rw [String.toList_ofList]
      rfl
    have stop : (";" : String).toList = ';' :: [] := String.toList_ofList
    rw [String.toList_append, String.toList_append, List.append_assoc, first, stop,
      (isWord_of_isHostName hs).read rfl]
    rfl
  have head : tokensOfLines ["server \x7b", "    listen       " ++ port ++ ";",
      "    server_name  " ++ s.serverName ++ ";"] = [.word "server", .opening] ++
        allTokens [simple ("listen" :: words), simple ["server_name", s.serverName]] := by
    have opening : ofChars "server \x7b".toList = [.word "server", .opening] := by
      rw [String.toList_ofList]
      rfl
    rw [tokensOfLines, List.flatMap_cons, List.flatMap_cons, List.flatMap_cons, opening, hp, name]
    rfl
  have certified : tokensOfLines (if secure then certificateLines else []) =
      allTokens (if secure then certificate else []) := by
    cases secure with
    | false => rfl
    | true => exact tokensOfLines_certificateLines
  have files : tokensOfLines ["    location / \x7b", "        root /usr/share/nginx/html;",
      "        index index.html index.htm;", "    \x7d"] = allTokens [block ["location", "/"]
        [simple ["root", "/usr/share/nginx/html"], simple ["index", "index.html", "index.htm"]]] := by
    rw [tokensOfLines_ofList, tokensOfLines_ofList, tokensOfLines_ofList, tokensOfLines_ofList]
    rfl
  have close : tokensOfLines ["\x7d"] = [.closing] := rfl
  rw [serverLines, tokensOfLines_append, tokensOfLines_append, tokensOfLines_append,
    tokensOfLines_append, head, certified, files, tokensOfLines_sockets h, close, ofServer, tokens,
    serverBody, allTokens_append, allTokens_append, allTokens_append]
  simp

theorem ofChars_proxyText {p : ExecutionPlan}
    (h : ∀ path ∈ p.sockets, path.toList.all isProxyWordChar ∧ path.toList.head? = some '/') :
    ofChars (proxyText p s).toList = allTokens (proxyFile p s) := by
  have listen {start port stop : List Char} : (String.ofList start ++ String.ofList port ++
      String.ofList stop).toList = start ++ port ++ stop := by
    rw [String.toList_append, String.toList_append, String.toList_ofList, String.toList_ofList,
      String.toList_ofList]
  have http : ofChars ("    listen       " ++ "80" ++ ";").toList =
      (simple ["listen", "80"]).tokens := by
    rw [listen]
    rfl
  have https : ofChars ("    listen       " ++ "443 ssl" ++ ";").toList =
      (simple ["listen", "443", "ssl"]).tokens := by
    rw [listen]
    rfl
  have plain := tokensOfLines_server hs false http h
  have secure := tokensOfLines_server hs true https h
  have blank : tokensOfLines [""] = [] := rfl
  have first : tokensOfLines (if p.hasRooms then backendLines else []) =
      allTokens (if p.hasRooms then [backend] else []) := by
    split
    next =>
      rw [backendLines, tokensOfLines_ofList, tokensOfLines_ofList, tokensOfLines_ofList, tokensOfLines_ofList]
      rfl
    next => rfl
  have last : tokensOfLines (if s.certificate?.isSome then
      "" :: serverLines "443 ssl" true s p.sockets else []) = allTokens
        (if s.certificate?.isSome then [ofServer ["443", "ssl"] true s p.sockets] else []) := by
    split
    next =>
      rw [← List.singleton_append, tokensOfLines_append, blank, secure, List.nil_append, allTokens,
        allTokens, List.append_nil]
    next => rfl
  rw [proxyText, ofChars_lines, proxyFile, allTokens_append, allTokens_append, allTokens, allTokens,
    List.append_nil, ← first, ← plain, ← last, ← tokensOfLines_append, ← tokensOfLines_append]
  rfl

omit hs in
/-- All directives have words, whatever the names of rooms are. -/
theorem each_ofServer (words : List String) (secure : Bool) (sockets : List String) :
    (ofServer words secure s sockets).Each (· ≠ []) := by
  have simple {first : String} {rest : List String} : (simple (first :: rest)).Each (· ≠ []) :=
    .simple (List.cons_ne_nil _ _)
  have files : (block ["location", "/"] [Directive.simple ["root", "/usr/share/nginx/html"],
      Directive.simple ["index", "index.html", "index.htm"]]).Each (· ≠ []) := by
    refine .block (List.cons_ne_nil _ _) ?_
    simp only [List.forall_mem_cons]
    exact ⟨simple, simple, List.forall_mem_nil _⟩
  have certified : ∀ d ∈ (if secure then certificate else []), d.Each (· ≠ []) := by
    cases secure
    · exact List.forall_mem_nil _
    · exact List.forall_mem_cons.mpr ⟨simple, List.forall_mem_singleton.mpr simple⟩
  have socket (path : String) : (ofSocket path).Each (· ≠ []) := by
    refine .block (List.cons_ne_nil _ _) ?_
    simp only [socketBody, List.forall_mem_cons]
    exact ⟨simple, simple, simple, simple, simple, List.forall_mem_nil _⟩
  refine .block (List.cons_ne_nil _ _) ?_
  simp only [serverBody, List.forall_mem_append, List.forall_mem_cons, List.forall_mem_map]
  exact ⟨⟨⟨⟨simple, simple, List.forall_mem_nil _⟩, certified⟩, files, List.forall_mem_nil _⟩,
    fun path _ => socket path⟩

omit hs in
theorem each_proxyFile (p : ExecutionPlan) : ∀ d ∈ proxyFile p s, d.Each (· ≠ []) := by
  have upstream : ∀ d ∈ (if p.hasRooms then [backend] else []), d.Each (· ≠ []) := by
    split
    next =>
      exact List.forall_mem_singleton.mpr (.block (List.cons_ne_nil _ _)
        (List.forall_mem_singleton.mpr (.simple (List.cons_ne_nil _ _))))
    next => exact List.forall_mem_nil _
  have secure : ∀ d ∈ (if s.certificate?.isSome then
      [ofServer ["443", "ssl"] true s p.sockets] else []), d.Each (· ≠ []) := by
    split
    next => exact List.forall_mem_singleton.mpr (each_ofServer _ _ _)
    next => exact List.forall_mem_nil _
  simp only [proxyFile, List.forall_mem_append, List.forall_mem_singleton]
  exact ⟨⟨upstream, each_ofServer _ _ _⟩, secure⟩

/-- The configuration is read as the directives that it is meant to have. -/
theorem ofText?_proxyText {p : ExecutionPlan}
    (h : ∀ path ∈ p.sockets, path.toList.all isProxyWordChar ∧ path.toList.head? = some '/') :
    Directive.ofText? (proxyText p s) = some (proxyFile p s) := by
  rw [Directive.ofText?, ofChars_proxyText hs h, ofTokens?_allTokens (each_proxyFile p)]

end

end LivePages
