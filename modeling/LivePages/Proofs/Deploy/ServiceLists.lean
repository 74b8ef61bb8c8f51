import LivePages.Deploy.Artifacts
import LivePages.Proofs.Deploy.TextLines

namespace LivePages

/-! The lists of a container by the lines of a file. -/

/-- The lines behind a heading that start with an indent. -/
def linesUnder (heading indent : String) (lines : List String) : List String :=
  (lines.dropWhile (· ≠ heading)).tail.takeWhile fun line => indent.toList.isPrefixOf line.toList

def serviceLines (name : String) (lines : List String) : List String :=
  linesUnder ("  " ++ name ++ ":") "    " lines

/-- The items of a list, each as it is written. -/
def listItems (name : String) (lines : List String) : List String :=
  (linesUnder ("    " ++ name ++ ":") "    - " lines).map fun line =>
    String.ofList (line.toList.drop 6)

theorem dropWhile_heading {heading : String} {before : List String} (h : heading ∉ before)
    (rest : List String) :
    (before ++ heading :: rest).dropWhile (· ≠ heading) = heading :: rest := by
  rw [List.dropWhile_append_of_pos, List.dropWhile_cons_of_neg (by simp)]
  intro line hl
  exact decide_eq_true fun e => h (e ▸ hl)

theorem isPrefixOf_append (start : String) (rest : String) :
    start.toList.isPrefixOf (start ++ rest).toList := by
  simp

/-- A list is found behind its name, where something else follows it. -/
theorem listItems_listLines {name : String} {items before after : List String}
    (hb : "    " ++ name ++ ":" ∉ before) (hne : items ≠ [])
    (ha : ∀ line, after.head? = some line → ("    - ".toList.isPrefixOf line.toList) = false) :
    listItems name (before ++ Service.listLines name items ++ after) =
      items.map (writeScalar 6) := by
  have taken : ((items.map fun item => "    - " ++ writeScalar 6 item) ++ after).takeWhile
      (fun line => "    - ".toList.isPrefixOf line.toList) =
        items.map fun item => "    - " ++ writeScalar 6 item := by
    rw [List.takeWhile_append_of_pos]
    · cases after with
      | nil => simp
      | cons line after =>
        rw [List.takeWhile_cons_of_neg (by rw [ha line rfl]; exact Bool.false_ne_true),
          List.append_nil]
    · intro line hl
      obtain ⟨item, -, rfl⟩ := List.mem_map.mp hl
      exact isPrefixOf_append _ _
  have item (text : String) : String.ofList (("    - " ++ text).toList.drop 6) = text := by
    rw [String.toList_append]
    exact String.ofList_toList
  rw [listItems, linesUnder, Service.listLines, if_neg (by simpa using hne), List.append_assoc,
    List.cons_append, dropWhile_heading hb, List.tail_cons, taken, List.map_map]
  exact List.map_congr_left fun text _ => item (writeScalar 6 text)

theorem listItems_of_not_mem {name : String} {lines : List String}
    (h : "    " ++ name ++ ":" ∉ lines) : listItems name lines = [] := by
  have none : lines.dropWhile (· ≠ "    " ++ name ++ ":") = [] := by
    rw [List.dropWhile_eq_nil_iff]
    intro line hl
    exact decide_eq_true fun e => h (e ▸ hl)
  rw [listItems, linesUnder, none]
  rfl

/-! What the last character of a text leaves behind in its scalar. -/

/-- A character that stands for itself in every style, and needs none. -/
def isBareChar (c : Char) : Bool :=
  !isLineBreak c && c != ' ' && c != '\'' && escapeScalarChar c == [c]

theorem exists_concat_append {c : Char} (start : List Char) {rest : List Char}
    (h : ∃ before, rest = before ++ [c]) : ∃ before, start ++ rest = before ++ [c] := by
  obtain ⟨before, rfl⟩ := h
  exact ⟨start ++ before, (List.append_assoc ..).symm⟩

section Scalar

variable {c : Char} (hc : isBareChar c)

include hc

theorem writeSingle_concat (indent : Nat) (afterBreak : Bool) (cs : List Char) :
    ∃ before, writeSingle indent afterBreak (cs ++ [c]) = before ++ [c] := by
  simp only [isBareChar, Bool.and_eq_true, Bool.not_eq_true', bne_iff_ne] at hc
  obtain ⟨⟨⟨hb, hs⟩, hq⟩, -⟩ := hc
  induction cs generalizing afterBreak with
  | nil =>
    rw [List.nil_append, writeSingle, if_neg (by rw [hb]; exact Bool.false_ne_true), if_neg hs,
      if_neg hq, writeSingle, List.append_nil]
    exact ⟨_, rfl⟩
  | cons d cs ih =>
    rw [List.cons_append, writeSingle]
    split
    next => exact exists_concat_append [d] (ih true)
    next =>
      split
      next => exact exists_concat_append [d] (ih afterBreak)
      next => exact exists_concat_append _ (ih false)

theorem writeLiteral_concat (indent : Nat) (afterBreak : Bool) (cs : List Char) :
    ∃ before, writeLiteral indent afterBreak (cs ++ [c]) = before ++ [c] := by
  simp only [isBareChar, Bool.and_eq_true, Bool.not_eq_true'] at hc
  induction cs generalizing afterBreak with
  | nil =>
    rw [List.nil_append, writeLiteral, if_neg (by rw [hc.1.1.1]; exact Bool.false_ne_true),
      writeLiteral]
    exact ⟨_, rfl⟩
  | cons d cs ih =>
    rw [List.cons_append, writeLiteral]
    split
    next => exact exists_concat_append [d] (ih true)
    next => exact exists_concat_append _ (exists_concat_append [d] (ih false))

/-- The last character stays the last one, but for a quote behind it. -/
theorem writeScalar_concat (indent : Nat) {text : String} {cs : List Char}
    (h : text.toList = cs ++ [c]) : ∃ before, (writeScalar indent text).toList = before ++ [c] ∨
      (writeScalar indent text).toList = before ++ [c, '\''] ∨
      (writeScalar indent text).toList = before ++ [c, '"'] := by
  rw [writeScalar, h, String.toList_ofList]
  split
  next => exact ⟨cs, .inl rfl⟩
  next =>
    obtain ⟨before, e⟩ := writeSingle_concat hc indent false cs
    exact ⟨'\'' :: before, .inr (.inl (by rw [e]; simp))⟩
  next =>
    simp only [isBareChar, Bool.and_eq_true, beq_iff_eq] at hc
    exact ⟨'"' :: cs.flatMap escapeScalarChar, .inr (.inr (by
      rw [List.flatMap_append, List.flatMap_singleton, hc.2]
      simp))⟩
  next =>
    obtain ⟨before, e⟩ := writeLiteral_concat hc indent true cs
    exact ⟨literalHeader (cs ++ [c]) ++ before, .inl (by rw [e, List.append_assoc])⟩

end Scalar

/-- The ports of a container tell mappings apart. -/
theorem writeScalar_mapping_ne (indent : Nat) (a b : String) :
    writeScalar indent (mapping a "80") ≠ writeScalar indent (mapping b "443") := by
  have first : (mapping a "80").toList = (a.toList ++ [':', '8']) ++ ['0'] := by
    simp [mapping, String.toList_append]
  have second : (mapping b "443").toList = (b.toList ++ [':', '4', '4']) ++ ['3'] := by
    simp [mapping, String.toList_append]
  -- One ends with a zero and the other with a three, in quotes or not.
  intro e
  obtain ⟨before, h⟩ := writeScalar_concat (c := '0') (by decide) indent first
  obtain ⟨before', h'⟩ := writeScalar_concat (c := '3') (by decide) indent second
  rw [e] at h
  rcases h with h | h | h <;> rcases h' with h' | h' | h' <;> rw [h'] at h <;>
    simpa using congrArg List.reverse h

/-! The containers of a plan. -/

theorem isPrefixOf_of_mem_listLines {name : String} {items : List String} {line : String}
    (h : line ∈ Service.listLines name items) : "    ".toList.isPrefixOf line.toList := by
  rw [Service.listLines] at h
  split at h
  next => cases h
  next =>
    rcases List.mem_cons.mp h with rfl | h
    · rw [String.append_assoc]
      exact isPrefixOf_append _ _
    · obtain ⟨item, -, rfl⟩ := List.mem_map.mp h
      have indent (cs : List Char) : "    ".toList.isPrefixOf ("    - ".toList ++ cs) := rfl
      rw [String.toList_append]
      exact indent _

theorem volumes_not_mem_ports (items : List String) :
    "    " ++ "volumes" ++ ":" ∉ Service.listLines "ports" items := by
  intro h
  rw [Service.listLines] at h
  split at h
  next => cases h
  next =>
    rcases List.mem_cons.mp h with h | h
    · exact absurd h (by decide)
    · obtain ⟨item, -, h⟩ := List.mem_map.mp h
      have start := congrArg (fun text => text.toList[4]?) h
      rw [String.toList_append] at start
      have dash (cs : List Char) : ("    - ".toList ++ cs)[4]? = some '-' := rfl
      rw [dash] at start
      exact absurd start (by decide)

namespace Artifacts

/-- What the file of the containers says, by its entries. -/
def containers (a : Artifacts) : List String :=
  entriesOfLines (textLines a.compose)

/-- The ports that the server of the pages is given in the file of the containers. -/
def published (a : Artifacts) : List String :=
  listItems "ports" (serviceLines "interactive-widgets-nginx" a.containers)

/-- The files and directories that the server of the pages is given. -/
def mounted (a : Artifacts) : List String :=
  listItems "volumes" (serviceLines "interactive-widgets-nginx" a.containers)

end Artifacts

theorem isEntry_listLines {name : String} (hn : IsEntry ("    " ++ name ++ ":"))
    (items : List String) : ∀ line ∈ Service.listLines name items, IsEntry line := by
  intro line hl
  rw [Service.listLines] at hl
  split at hl
  next => cases hl
  next =>
    rcases List.mem_cons.mp hl with rfl | hl
    · exact hn
    · obtain ⟨item, -, rfl⟩ := List.mem_map.mp hl
      exact isEntry_item item

namespace Service

/-- A service is written by entries, whatever the items of its lists are. -/
theorem isEntry_lines {s : Service} (heading : IsEntry ("  " ++ s.name ++ ":"))
    (image : IsEntry ("    image: " ++ s.name)) (build : ∀ path ∈ s.build, IsEntry ("    build: " ++ path)) :
    ∀ line ∈ s.lines, IsEntry line := by
  have ports : "    " ++ "ports" ++ ":" = "    ports:" := rfl
  have volumes : "    " ++ "volumes" ++ ":" = "    volumes:" := rfl
  have command : "    " ++ "command" ++ ":" = "    command:" := rfl
  rw [lines, List.forall_mem_append, List.forall_mem_append, List.forall_mem_append, List.forall_mem_append]
  refine ⟨⟨⟨⟨List.forall_mem_cons.mpr ⟨heading, List.forall_mem_singleton.mpr image⟩, ?_⟩,
    isEntry_listLines ?_ _⟩, isEntry_listLines ?_ _⟩, isEntry_listLines ?_ _⟩
  · cases hb : s.build with
    | none => exact List.forall_mem_nil _
    | some path => exact List.forall_mem_singleton.mpr (build path hb)
  · rw [ports]
    exact isEntry_ofList (by decide) rfl rfl
  · rw [volumes]
    exact isEntry_ofList (by decide) rfl rfl
  · rw [command]
    exact isEntry_ofList (by decide) rfl rfl

/-- Below its heading a service is indented. -/
theorem isPrefixOf_of_mem_lines {s : Service} {line : String} (h : line ∈ s.lines) :
    line = "  " ++ s.name ++ ":" ∨ "    ".toList.isPrefixOf line.toList := by
  have start (cs : List Char) (text : String) (hc : "    ".toList.isPrefixOf cs) :
      "    ".toList.isPrefixOf (String.ofList cs ++ text).toList := by
    have chars : (String.ofList cs ++ text).toList = cs ++ text.toList := by
      rw [String.toList_append, String.toList_ofList]
    rw [chars, List.isPrefixOf_iff_prefix]
    exact (List.isPrefixOf_iff_prefix.mp hc).trans (List.prefix_append _ _)
  rw [lines] at h
  simp only [List.mem_append, List.mem_cons, List.not_mem_nil, or_false] at h
  rcases h with (((((rfl | rfl) | h) | h) | h) | h)
  · exact .inl rfl
  · exact .inr (start _ _ rfl)
  · split at h
    next path _ =>
      cases List.mem_singleton.mp h
      exact .inr (start _ _ rfl)
    next => cases h
  · exact .inr (isPrefixOf_of_mem_listLines h)
  · exact .inr (isPrefixOf_of_mem_listLines h)
  · exact .inr (isPrefixOf_of_mem_listLines h)

end Service

namespace ExecutionPlan

variable (p : ExecutionPlan) (s : Settings)

/-- What the file says about the server of the pages. -/
def frontendLines (s : Settings) : List String :=
  ["    image: interactive-widgets-nginx", "    build: ."] ++
    Service.listLines "ports" (frontendService s).ports ++
    Service.listLines "volumes" (frontendService s).volumes

theorem lines_frontendService :
    (frontendService s).lines = ("  " ++ "interactive-widgets-nginx" ++ ":") :: frontendLines s := by
  have image : "    image: " ++ "interactive-widgets-nginx" = "    image: interactive-widgets-nginx" := rfl
  have build : "    build: " ++ "." = "    build: ." := rfl
  have command : Service.listLines "command" [] = [] := rfl
  rw [frontendLines, ← image, ← build, ← List.append_nil (_ ++ Service.listLines "volumes" _), ← command]
  rfl

theorem isPrefixOf_of_mem_frontendLines :
    ∀ line ∈ frontendLines s, "    ".toList.isPrefixOf line.toList := by
  have start {cs : List Char} (h : "    ".toList.isPrefixOf cs) :
      "    ".toList.isPrefixOf (String.ofList cs).toList := by
    have chars : (String.ofList cs).toList = cs := String.toList_ofList
    rwa [chars]
  rw [frontendLines, List.forall_mem_append, List.forall_mem_append]
  refine ⟨⟨?_, fun line => isPrefixOf_of_mem_listLines⟩, fun line => isPrefixOf_of_mem_listLines⟩
  exact List.forall_mem_cons.mpr ⟨start rfl, List.forall_mem_singleton.mpr (start rfl)⟩

theorem composeLines_eq : composeLines p s = (["version: '3'", "services:"] ++
    (if p.hasRooms then backendService.lines else [])) ++
      ("  " ++ "interactive-widgets-nginx" ++ ":") :: frontendLines s := by
  have backend : (if p.hasRooms then [backendService] else []).flatMap Service.lines =
      if p.hasRooms then backendService.lines else [] := by
    split
    next => exact List.flatMap_singleton _ _
    next => rfl
  rw [composeLines, services, List.flatMap_append, backend, List.flatMap_singleton, lines_frontendService,
    List.append_assoc]

theorem containers_artifacts : (p.artifacts s).containers = composeLines p s := by
  have backend : ∀ line ∈ backendService.lines, IsEntry line := by
    have heading : "  " ++ backendService.name ++ ":" = "  interactive-widgets-backend:" := rfl
    have image : "    image: " ++ backendService.name = "    image: interactive-widgets-backend" := rfl
    refine Service.isEntry_lines ?_ ?_ nofun
    · rw [heading]
      exact isEntry_ofList (by decide) rfl rfl
    · rw [image]
      exact isEntry_ofList (by decide) rfl rfl
  have frontend : ∀ line ∈ (frontendService s).lines, IsEntry line := by
    have heading : "  " ++ (frontendService s).name ++ ":" = "  interactive-widgets-nginx:" := rfl
    have image : "    image: " ++ (frontendService s).name = "    image: interactive-widgets-nginx" := rfl
    have build : "    build: " ++ "." = "    build: ." := rfl
    refine Service.isEntry_lines ?_ ?_ fun path hp => ?_
    · rw [heading]
      exact isEntry_ofList (by decide) rfl rfl
    · rw [image]
      exact isEntry_ofList (by decide) rfl rfl
    · cases hp
      rw [build]
      exact isEntry_ofList (by decide) rfl rfl
  rw [Artifacts.containers, artifacts, composeText, textLines_join]
  refine entriesOfLines_flatMap ?_
  rw [composeLines_eq, ← lines_frontendService, List.forall_mem_append, List.forall_mem_append]
  refine ⟨⟨List.forall_mem_cons.mpr ⟨isEntry_ofList (by decide) rfl rfl,
    List.forall_mem_singleton.mpr (isEntry_ofList (by decide) rfl rfl)⟩, ?_⟩, frontend⟩
  split
  next => exact backend
  next => exact List.forall_mem_nil _

theorem serviceLines_composeLines :
    serviceLines "interactive-widgets-nginx" (composeLines p s) = frontendLines s := by
  have heading : "  " ++ "interactive-widgets-nginx" ++ ":" = "  interactive-widgets-nginx:" := rfl
  have indent : "    ".toList.isPrefixOf "  interactive-widgets-nginx:".toList = false := by
    rw [String.toList_ofList, String.toList_ofList]
    rfl
  have before : "  " ++ "interactive-widgets-nginx" ++ ":" ∉
      ["version: '3'", "services:"] ++ (if p.hasRooms then backendService.lines else []) := by
    rw [heading, List.mem_append, not_or]
    refine ⟨by decide, ?_⟩
    split
    next =>
      intro h
      rcases Service.isPrefixOf_of_mem_lines h with h | h
      · exact absurd h (by decide)
      · rw [indent] at h
        cases h
    next => exact List.not_mem_nil
  rw [serviceLines, linesUnder, composeLines_eq, dropWhile_heading before, List.tail_cons,
    List.takeWhile_eq_self_iff]
  exact isPrefixOf_of_mem_frontendLines s

theorem published_artifacts :
    (p.artifacts s).published = (frontendService s).ports.map (writeScalar 6) := by
  rw [Artifacts.published, containers_artifacts, serviceLines_composeLines, frontendLines]
  refine listItems_listLines (by decide) (List.cons_ne_nil _ _) fun line hl => ?_
  rw [Service.listLines] at hl
  split at hl
  next => cases hl
  next =>
    cases Option.some.inj hl
    rfl

theorem mounted_artifacts :
    (p.artifacts s).mounted = (frontendService s).volumes.map (writeScalar 6) := by
  have before : "    " ++ "volumes" ++ ":" ∉
      ["    image: interactive-widgets-nginx", "    build: ."] ++
      Service.listLines "ports" (frontendService s).ports := by
    rw [List.mem_append, not_or]
    exact ⟨by decide, volumes_not_mem_ports _⟩
  rw [Artifacts.mounted, containers_artifacts, serviceLines_composeLines, frontendLines]
  by_cases hv : (frontendService s).volumes = []
  · rw [hv, List.map_nil]
    have none : Service.listLines "volumes" [] = [] := rfl
    rw [none, List.append_nil]
    exact listItems_of_not_mem before
  · rw [← List.append_nil (_ ++ Service.listLines "volumes" _)]
    exact listItems_listLines before hv fun line hl => by cases hl

/-- The rooms' server is among the containers exactly if there are rooms. -/
theorem backend_mem_composeLines :
    "  interactive-widgets-backend:" ∈ composeLines p s ↔ p.hasRooms := by
  have indent : "    ".toList.isPrefixOf "  interactive-widgets-backend:".toList = false := by
    rw [String.toList_ofList, String.toList_ofList]
    rfl
  have frontend : "  interactive-widgets-backend:" ∉
      ("  " ++ "interactive-widgets-nginx" ++ ":") :: frontendLines s := by
    rw [List.mem_cons, not_or]
    refine ⟨by decide, fun h => ?_⟩
    rw [isPrefixOf_of_mem_frontendLines s _ h] at indent
    cases indent
  have backend : "  interactive-widgets-backend:" ∈ backendService.lines := List.mem_cons_self
  rw [composeLines_eq, List.mem_append, or_iff_left frontend]
  split
  next h => exact iff_of_true (List.mem_append_right _ backend) h
  next h => exact iff_of_false (by decide) h

end ExecutionPlan

end LivePages
