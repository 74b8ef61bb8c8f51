import LivePages.Deploy.Artifacts
import LivePages.Proofs.Deploy.TextLines

namespace LivePages

/-! The blocks of a configuration by its lines, whatever names are in them. -/

/-- A line that opens a block, and the lines of the block. -/
structure LineBlock where
  opening : String
  lines : List String

/-- Blocks that end where a line is nothing but a brace. The first argument is the block that a
line belongs to. -/
def readBlocks : Option LineBlock → List String → List LineBlock
  | none, [] => []
  | some block, [] => [block]
  | none, line :: rest =>
    if line = "" then readBlocks none rest else readBlocks (some ⟨line, []⟩) rest
  | some block, line :: rest =>
    if line = "\x7d" then block :: readBlocks none rest
    else readBlocks (some ⟨block.opening, block.lines ++ [line]⟩) rest

def stripStart (start cs : List Char) : Option (List Char) :=
  if start.isPrefixOf cs then some (cs.drop start.length) else none

/-- What stands in a line between its start and its end. -/
def between? (start stop line : String) : Option String :=
  (stripStart start.toList line.toList).bind fun cs =>
    (stripStart stop.toList.reverse cs.reverse).map fun cs => String.ofList cs.reverse

/-- The paths of those locations that pass their connections on, each to its own path. -/
def proxiedPaths : List String → List String
  | [] => []
  | line :: rest =>
    ((between? "    location = " " \x7b" line).filter fun path =>
      rest.head? = some ("        proxy_pass http://backend" ++ path ++ ";")).toList ++
      proxiedPaths rest

namespace LineBlock

def isServer (b : LineBlock) : Bool :=
  b.opening == "server \x7b"

def isUpstream (b : LineBlock) : Bool :=
  b.opening == "upstream backend \x7b"

/-- The server answers on the port for secure connections. -/
def isSecure (b : LineBlock) : Bool :=
  b.lines.contains "    listen       443 ssl;"

def paths (b : LineBlock) : List String :=
  proxiedPaths b.lines

end LineBlock

theorem stripStart_append (start cs : List Char) : stripStart start (start ++ cs) = some cs := by
  rw [stripStart, if_pos (by simp), List.drop_left]

theorem between?_append (start path stop : String) :
    between? start stop (start ++ path ++ stop) = some path := by
  rw [between?, String.toList_append, String.toList_append, List.append_assoc, stripStart_append,
    Option.bind_some, List.reverse_append, stripStart_append, Option.map_some, List.reverse_reverse,
    String.ofList_toList]

/-- The characters that a location of one path starts with. -/
def locationStart : List Char :=
  [' ', ' ', ' ', ' ', 'l', 'o', 'c', 'a', 't', 'i', 'o', 'n', ' ', '=', ' ']

/-- A line with another start is no location. -/
theorem proxiedPaths_of_start {line : String} (h : locationStart.isPrefixOf line.toList = false)
    (rest : List String) : proxiedPaths (line :: rest) = proxiedPaths rest := by
  have start : "    location = ".toList = locationStart := String.toList_ofList
  have none : between? "    location = " " \x7b" line = none := by
    rw [between?, start, stripStart, h, if_neg Bool.false_ne_true, Option.bind_none]
  rw [proxiedPaths, none]
  rfl

theorem proxiedPaths_ofList {cs : List Char} (h : locationStart.isPrefixOf cs = false) (rest : List String) :
    proxiedPaths (String.ofList cs :: rest) = proxiedPaths rest :=
  proxiedPaths_of_start (by rwa [String.toList_ofList]) rest

theorem proxiedPaths_append {cs : List Char} (h : ∀ more, locationStart.isPrefixOf (cs ++ more) = false)
    (name stop : String) (rest : List String) :
    proxiedPaths ((String.ofList cs ++ name ++ stop) :: rest) = proxiedPaths rest := by
  refine proxiedPaths_of_start ?_ rest
  rw [String.toList_append, String.toList_append, String.toList_ofList, List.append_assoc]
  exact h _

theorem proxiedPaths_socketLines (path : String) (rest : List String) :
    proxiedPaths (socketLines path ++ rest) = path :: proxiedPaths rest := by
  rw [socketLines]
  simp only [List.cons_append, List.nil_append]
  rw [proxiedPaths, between?_append]
  simp only [List.head?_cons, Option.filter_some, decide_true, if_true, Option.toList_some]
  rw [proxiedPaths_append, proxiedPaths_ofList, proxiedPaths_ofList, proxiedPaths_ofList,
    proxiedPaths_ofList, proxiedPaths_ofList]
  all_goals first
    | rfl
    | exact fun _ => rfl

theorem proxiedPaths_sockets (sockets : List String) :
    proxiedPaths (sockets.flatMap socketLines) = sockets := by
  induction sockets with
  | nil => rfl
  | cons path sockets ih => rw [List.flatMap_cons, proxiedPaths_socketLines, ih]

/-- Lines up to a brace that stands alone are one block. -/
theorem readBlocks_block {opening : String} (ho : opening ≠ "") {lines : List String}
    (h : ∀ line ∈ lines, line ≠ "\x7d") (rest : List String) :
    readBlocks none (opening :: lines ++ "\x7d" :: rest) =
      ⟨opening, lines⟩ :: readBlocks none rest := by
  have within (before : List String) :
      readBlocks (some ⟨opening, before⟩) (lines ++ "\x7d" :: rest) =
      ⟨opening, before ++ lines⟩ :: readBlocks none rest := by
    induction lines generalizing before with
    | nil => rw [List.nil_append, readBlocks, if_pos rfl, List.append_nil]
    | cons line lines ih =>
      rw [List.forall_mem_cons] at h
      rw [List.cons_append, readBlocks, if_neg h.1, ih h.2, List.append_assoc,
        List.singleton_append]
  rw [List.cons_append, readBlocks, if_neg ho, within, List.nil_append]

/-! The lines of one server. -/

def filesLines : List String :=
  ["    location / \x7b", "        root /usr/share/nginx/html;",
    "        index index.html index.htm;", "    \x7d"]

/-- What is between the braces of a server. -/
def serverInner (port : String) (secure : Bool) (s : Settings) (sockets : List String) :
    List String :=
  ("    listen       " ++ port ++ ";") :: ("    server_name  " ++ s.serverName ++ ";") ::
    ((if secure then certificateLines else []) ++ filesLines ++ sockets.flatMap socketLines)

theorem serverLines_eq (port : String) (secure : Bool) (s : Settings) (sockets : List String) :
    serverLines port secure s sockets =
      "server \x7b" :: serverInner port secure s sockets ++ ["\x7d"] := by
  simp [serverLines, serverInner, filesLines]

/-- An indented line that does not say where a server answers. -/
def isOtherLine (line : String) : Bool :=
  line.toList[0]? == some ' ' && line.toList[5]? != some 'i'

theorem isOtherLine_ofList {cs : List Char} (h : (cs[0]? == some ' ' && cs[5]? != some 'i') = true) :
    isOtherLine (String.ofList cs) := by
  rwa [isOtherLine, String.toList_ofList]

/-- What starts a line decides. -/
theorem isOtherLine_append {cs : List Char}
    (h : ∀ more, ((cs ++ more)[0]? == some ' ' && (cs ++ more)[5]? != some 'i') = true) (name stop : String) :
    isOtherLine (String.ofList cs ++ name ++ stop) := by
  rw [isOtherLine, String.toList_append, String.toList_append, String.toList_ofList, List.append_assoc]
  exact h _

theorem isOtherLine_server (secure : Bool) (s : Settings) (sockets : List String) :
    ∀ line ∈ ("    server_name  " ++ s.serverName ++ ";") ::
      ((if secure then certificateLines else []) ++ filesLines ++ sockets.flatMap socketLines),
      isOtherLine line := by
  have certified : ∀ line ∈ (if secure then certificateLines else []), isOtherLine line := by
    cases secure with
    | false => exact List.forall_mem_nil _
    | true =>
      exact List.forall_mem_cons.mpr ⟨isOtherLine_append (fun _ => rfl) _ _,
        List.forall_mem_singleton.mpr (isOtherLine_append (fun _ => rfl) _ _)⟩
  have files : ∀ line ∈ filesLines, isOtherLine line := by
    simp only [filesLines, List.forall_mem_cons]
    exact ⟨isOtherLine_ofList rfl, isOtherLine_ofList rfl, isOtherLine_ofList rfl, isOtherLine_ofList rfl,
      List.forall_mem_nil _⟩
  have socket (path : String) : ∀ line ∈ socketLines path, isOtherLine line := by
    simp only [socketLines, List.forall_mem_cons]
    exact ⟨isOtherLine_append (fun _ => rfl) _ _, isOtherLine_append (fun _ => rfl) _ _,
      isOtherLine_ofList rfl, isOtherLine_ofList rfl, isOtherLine_ofList rfl, isOtherLine_ofList rfl,
      isOtherLine_ofList rfl, List.forall_mem_nil _⟩
  have sockets : ∀ line ∈ sockets.flatMap socketLines, isOtherLine line := by
    intro line hl
    obtain ⟨path, -, hl⟩ := List.mem_flatMap.mp hl
    exact socket path line hl
  rw [List.forall_mem_cons, List.forall_mem_append, List.forall_mem_append]
  exact ⟨isOtherLine_append (fun _ => rfl) _ _, ⟨certified, files⟩, sockets⟩

section Server

variable (port : String) (secure : Bool) (s : Settings) (sockets : List String)

/-- No line of a server ends it before its last one. -/
theorem ne_brace_of_mem_serverInner :
    ∀ line ∈ serverInner port secure s sockets, line ≠ "\x7d" := by
  rw [serverInner, List.forall_mem_cons]
  constructor
  · intro e
    have e := congrArg String.toList e
    rw [String.toList_append, String.toList_append] at e
    exact absurd (List.cons.inj e).1 (by decide)
  · intro line hl e
    have other := isOtherLine_server secure s sockets line hl
    rw [e] at other
    exact absurd other (by decide)

theorem readBlocks_serverLines (rest : List String) :
    readBlocks none (serverLines port secure s sockets ++ rest) =
      ⟨"server \x7b", serverInner port secure s sockets⟩ :: readBlocks none rest := by
  rw [serverLines_eq, List.append_assoc, List.singleton_append]
  exact readBlocks_block (by decide) (ne_brace_of_mem_serverInner port secure s sockets) rest

theorem proxiedPaths_serverInner : proxiedPaths (serverInner port secure s sockets) = sockets := by
  have files (rest : List String) : proxiedPaths (filesLines ++ rest) = proxiedPaths rest := by
    simp only [filesLines, List.cons_append, List.nil_append]
    rw [proxiedPaths_ofList, proxiedPaths_ofList, proxiedPaths_ofList, proxiedPaths_ofList]
    all_goals rfl
  have certified : proxiedPaths ((if secure then certificateLines else []) ++ filesLines ++
      sockets.flatMap socketLines) = sockets := by
    rw [List.append_assoc]
    cases secure with
    | false => exact (files _).trans (proxiedPaths_sockets sockets)
    | true =>
      simp only [if_true, certificateLines, List.cons_append, List.nil_append]
      rw [proxiedPaths_append fun _ => rfl, proxiedPaths_append fun _ => rfl, files]
      exact proxiedPaths_sockets sockets
  rw [serverInner, proxiedPaths_append fun _ => rfl, proxiedPaths_append fun _ => rfl, certified]

/-- Only the first line says where a server answers. -/
theorem isSecure_server :
    (LineBlock.mk "server \x7b" (serverInner port secure s sockets)).isSecure ↔
    "    listen       " ++ port ++ ";" = "    listen       443 ssl;" := by
  rw [LineBlock.isSecure, List.contains_iff_mem, serverInner, List.mem_cons, eq_comm, or_iff_left]
  intro hl
  have other := isOtherLine_server secure s sockets _ hl
  rw [isOtherLine, String.toList_ofList] at other
  exact absurd other (by decide)

end Server

/-! The blocks of a configuration by its text. -/

def Artifacts.proxyBlocks (a : Artifacts) : List LineBlock :=
  readBlocks none (textLines a.proxy)

theorem subset_of_between? {start stop line path : String} (h : between? start stop line = some path) :
    path.toList ⊆ line.toList := by
  have strip {start cs rest : List Char} (h : stripStart start cs = some rest) : rest ⊆ cs := by
    rw [stripStart] at h
    split at h
    next => exact Option.some.inj h ▸ List.drop_subset _ _
    next => cases h
  obtain ⟨cs, hc, h⟩ := Option.bind_eq_some_iff.mp h
  obtain ⟨rest, hr, rfl⟩ := Option.map_eq_some_iff.mp h
  rw [String.toList_ofList]
  intro c hm
  exact strip hc (List.mem_reverse.mp (strip hr (List.mem_reverse.mp hm)))

/-- A path is part of a line. -/
theorem exists_line_of_mem_proxiedPaths {lines : List String} {path : String}
    (h : path ∈ proxiedPaths lines) : ∃ line ∈ lines, path.toList ⊆ line.toList := by
  induction lines with
  | nil => cases h
  | cons line rest ih =>
    rw [proxiedPaths] at h
    rcases List.mem_append.mp h with h | h
    · have found := (Option.filter_eq_some_iff.mp (Option.mem_toList.mp h)).1
      exact ⟨line, List.mem_cons_self, subset_of_between? found⟩
    · obtain ⟨line', hl, hs⟩ := ih h
      exact ⟨line', List.mem_cons_of_mem _ hl, hs⟩

/-- The lines of a block are lines that were read, or that it had before. -/
theorem mem_of_mem_readBlocks {lines : List String} {before : Option LineBlock} {b : LineBlock}
    (h : b ∈ readBlocks before lines) {line : String} (hl : line ∈ b.lines) :
    line ∈ lines ∨ ∃ block ∈ before, line ∈ block.lines := by
  induction lines generalizing before with
  | nil =>
    cases before with
    | none => cases h
    | some block => exact .inr ⟨block, rfl, List.mem_singleton.mp h ▸ hl⟩
  | cons first rest ih =>
    have later {before : Option LineBlock} (h : b ∈ readBlocks before rest)
        (hn : ∀ block ∈ before, line ∉ block.lines) : line ∈ first :: rest :=
      (ih h).elim (List.mem_cons_of_mem _) fun ⟨block, hb, hm⟩ => absurd hm (hn block hb)
    cases before with
    | none =>
      rw [readBlocks] at h
      split at h
      next => exact .inl (later h fun block hb => by cases hb)
      next => exact .inl (later h fun block hb => by cases hb; exact List.not_mem_nil)
    | some block =>
      rw [readBlocks] at h
      split at h
      next =>
        rcases List.mem_cons.mp h with rfl | h
        · exact .inr ⟨b, rfl, hl⟩
        · exact .inl (later h fun block hb => by cases hb)
      next =>
        obtain hm | ⟨_, e, hm⟩ := ih h
        · exact .inl (List.mem_cons_of_mem _ hm)
        · cases e
          rcases List.mem_append.mp hm with hm | hm
          · exact .inr ⟨block, rfl, hm⟩
          · exact .inl (List.mem_singleton.mp hm ▸ List.mem_cons_self)

/-- No path that is read has a line break in it. -/
theorem Artifacts.newline_not_mem_of_mem_paths {a : Artifacts} {b : LineBlock}
    (hb : b ∈ a.proxyBlocks) {path : String} (h : path ∈ b.paths) : '\n' ∉ path.toList := by
  obtain ⟨line, hl, hs⟩ := exists_line_of_mem_proxiedPaths h
  obtain hl | ⟨start, e, -⟩ := mem_of_mem_readBlocks hb hl
  · exact fun hm => newline_not_mem_of_mem_textLines hl (hs hm)
  · cases e

theorem newline_not_mem_filesLines : ∀ line ∈ filesLines, '\n' ∉ line.toList := by
  simp only [filesLines, List.forall_mem_cons]
  exact ⟨not_mem_ofList (by decide), not_mem_ofList (by decide),
    not_mem_ofList (by decide), not_mem_ofList (by decide), List.forall_mem_nil _⟩

theorem newline_not_mem_certificateLines : ∀ line ∈ certificateLines, '\n' ∉ line.toList := by
  have crt : '\n' ∉ certificateMount.toList := not_mem_ofList (by decide)
  have key : '\n' ∉ certificateKeyMount.toList := not_mem_ofList (by decide)
  exact List.forall_mem_cons.mpr ⟨not_mem_line (by decide) crt (by decide),
    List.forall_mem_singleton.mpr (not_mem_line (by decide) key (by decide))⟩

theorem newline_not_mem_socketLines {path : String} (h : '\n' ∉ path.toList) :
    ∀ line ∈ socketLines path, '\n' ∉ line.toList := by
  simp only [socketLines, List.forall_mem_cons]
  exact ⟨not_mem_line (by decide) h (by decide), not_mem_line (by decide) h (by decide),
    not_mem_ofList (by decide), not_mem_ofList (by decide),
    not_mem_ofList (by decide), not_mem_ofList (by decide),
    not_mem_ofList (by decide), List.forall_mem_nil _⟩

theorem newline_not_mem_serverLines {port : String} (hp : '\n' ∉ port.toList) (secure : Bool)
    {s : Settings} (hs : '\n' ∉ s.serverName.toList) {sockets : List String}
    (h : ∀ path ∈ sockets, '\n' ∉ path.toList) :
    ∀ line ∈ serverLines port secure s sockets, '\n' ∉ line.toList := by
  have certified : ∀ line ∈ (if secure then certificateLines else []), '\n' ∉ line.toList := by
    cases secure with
    | false => exact List.forall_mem_nil _
    | true => exact newline_not_mem_certificateLines
  have rooms : ∀ line ∈ sockets.flatMap socketLines, '\n' ∉ line.toList := by
    intro line hl
    obtain ⟨path, hp, hl⟩ := List.mem_flatMap.mp hl
    exact newline_not_mem_socketLines (h path hp) line hl
  rw [serverLines_eq, serverInner]
  simp only [List.forall_mem_append, List.forall_mem_cons]
  exact ⟨⟨not_mem_ofList (by decide), not_mem_line (by decide) hp (by decide),
    not_mem_line (by decide) hs (by decide), ⟨certified, newline_not_mem_filesLines⟩, rooms⟩,
    not_mem_ofList (by decide), List.forall_mem_nil _⟩

theorem newline_not_mem_proxyLines {p : ExecutionPlan} {s : Settings}
    (hs : '\n' ∉ s.serverName.toList) (h : ∀ path ∈ p.sockets, '\n' ∉ path.toList) :
    ∀ line ∈ proxyLines p s, '\n' ∉ line.toList := by
  have plain : ∀ line ∈ serverLines "80" false s p.sockets, '\n' ∉ line.toList :=
    newline_not_mem_serverLines (not_mem_ofList (by decide)) false hs h
  have secure : ∀ line ∈ serverLines "443 ssl" true s p.sockets, '\n' ∉ line.toList :=
    newline_not_mem_serverLines (not_mem_ofList (by decide)) true hs h
  have backend : ∀ line ∈ backendLines, '\n' ∉ line.toList := by
    simp only [backendLines, List.forall_mem_cons]
    exact ⟨not_mem_ofList (by decide), not_mem_ofList (by decide),
      not_mem_ofList (by decide), not_mem_ofList (by decide), List.forall_mem_nil _⟩
  rw [proxyLines, List.forall_mem_append, List.forall_mem_append]
  refine ⟨⟨?_, plain⟩, ?_⟩
  · split
    next => exact backend
    next => exact List.forall_mem_nil _
  · split
    next => exact List.forall_mem_cons.mpr ⟨not_mem_ofList (by decide), secure⟩
    next => exact List.forall_mem_nil _

theorem readBlocks_proxyLines (p : ExecutionPlan) (s : Settings) :
    readBlocks none (proxyLines p s) =
    (if p.hasRooms then [⟨"upstream backend \x7b", ["    server interactive-widgets-backend;"]⟩]
      else []) ++ ⟨"server \x7b", serverInner "80" false s p.sockets⟩ ::
      (if s.certificate?.isSome then [⟨"server \x7b", serverInner "443 ssl" true s p.sockets⟩]
        else []) := by
  have upstream (rest : List String) : readBlocks none (backendLines ++ rest) =
    ⟨"upstream backend \x7b", ["    server interactive-widgets-backend;"]⟩ ::
      readBlocks none rest := rfl
  have servers : readBlocks none (serverLines "80" false s p.sockets ++
      (if s.certificate?.isSome then "" :: serverLines "443 ssl" true s p.sockets else [])) =
      ⟨"server \x7b", serverInner "80" false s p.sockets⟩ :: (if s.certificate?.isSome then
        [⟨"server \x7b", serverInner "443 ssl" true s p.sockets⟩] else []) := by
    rw [readBlocks_serverLines]
    split
    next =>
      rw [readBlocks, if_pos rfl, ← List.append_nil (serverLines "443 ssl" true s p.sockets),
        readBlocks_serverLines]
      rfl
    next => rfl
  rw [proxyLines, List.append_assoc]
  split
  next => rw [upstream, servers]; rfl
  next => exact servers

/-- Names without line breaks leave the lines of a configuration as they are meant. -/
theorem ExecutionPlan.proxyBlocks_artifacts {p : ExecutionPlan} {s : Settings}
    (hs : '\n' ∉ s.serverName.toList) (h : ∀ path ∈ p.sockets, '\n' ∉ path.toList) :
    (p.artifacts s).proxyBlocks =
      (if p.hasRooms then [⟨"upstream backend \x7b", ["    server interactive-widgets-backend;"]⟩]
        else []) ++ ⟨"server \x7b", serverInner "80" false s p.sockets⟩ ::
        (if s.certificate?.isSome then [⟨"server \x7b", serverInner "443 ssl" true s p.sockets⟩]
          else []) := by
  rw [Artifacts.proxyBlocks, artifacts, proxyText,
    textLines_join_of_not_mem (newline_not_mem_proxyLines hs h), readBlocks_proxyLines]

end LivePages
