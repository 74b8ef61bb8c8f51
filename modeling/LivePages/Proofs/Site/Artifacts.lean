import LivePages.Proofs.Deploy.ProxyBlocks
import LivePages.Proofs.Deploy.ServiceLists
import LivePages.Proofs.Site.Sockets

namespace LivePages

/-- Whether the author gave both a certificate and its key. -/
def Settings.hasCertificate (s : Settings) : Bool :=
  s.certificatePath.isSome && s.certificateKeyPath.isSome

theorem Settings.isSome_certificate? (s : Settings) : s.certificate?.isSome = s.hasCertificate := by
  rw [certificate?, hasCertificate]
  cases s.certificatePath <;> cases s.certificateKeyPath <;> rfl

/-- The texts of a site say the same about its rooms and its certificate. The relation says which
page a room belongs to. -/
structure Artifacts.Agree (a : Artifacts) (p : ExecutionPlan) (s : Settings)
    (owns : CompiledPage → String → Prop) : Prop where
  plan : a.plan.isSome ↔ p.hasRooms
  upstream : (∃ b ∈ a.proxyBlocks, b.isUpstream) ↔ p.hasRooms
  locations : ∀ b ∈ a.proxyBlocks, b.isServer → (b.paths ≠ [] ↔ p.hasRooms)
  backend : "  interactive-widgets-backend:" ∈ a.containers ↔ p.hasRooms
  paths : ∃ paths, paths.Nodup ∧
    List.Forall₂ (fun url path => ∃ page, owns page url ∧ path = page.url.socketPath)
      p.rooms.keys paths ∧
    ∀ b ∈ a.proxyBlocks, b.isServer → b.paths = paths
  plain : (a.proxyBlocks.filter fun b => b.isServer && !b.isSecure).length = 1
  secure : (a.proxyBlocks.filter fun b => b.isServer && b.isSecure).length =
    if s.hasCertificate then 1 else 0
  published : (∃ host, writeScalar 6 (mapping host "443") ∈ a.published) ↔ s.hasCertificate
  mounted : ((∃ host, writeScalar 6 (mapping host certificateMount) ∈ a.mounted) ∧
    ∃ host, writeScalar 6 (mapping host certificateKeyMount) ∈ a.mounted) ↔ s.hasCertificate
  given : ∀ certificate key, s.certificatePath = some certificate →
    s.certificateKeyPath = some key →
    writeScalar 6 (mapping (toString s.httpsPort) "443") ∈ a.published ∧
      writeScalar 6 (mapping certificate certificateMount) ∈ a.mounted ∧
      writeScalar 6 (mapping key certificateKeyMount) ∈ a.mounted

namespace ExecutionPlan

variable (p : ExecutionPlan) (s : Settings)

theorem hasRooms_iff : p.hasRooms ↔ p.sockets ≠ [] := by
  rw [hasRooms, TextMap.isEmpty, sockets, TextMap.keys]
  cases p.rooms.entries <;> simp

/-- The port for secure connections is published exactly if there is a certificate. -/
theorem published_iff : (∃ host, writeScalar 6 (mapping host "443") ∈ (p.artifacts s).published) ↔
    s.certificate?.isSome := by
  rw [published_artifacts, frontendService]
  cases s.certificate? with
  | none =>
    refine iff_of_false ?_ Bool.false_ne_true
    rintro ⟨host, h⟩
    exact writeScalar_mapping_ne 6 _ host (List.mem_singleton.mp h).symm
  | some pair =>
    exact iff_of_true ⟨_, List.mem_cons_of_mem _ List.mem_cons_self⟩ rfl

theorem mounted_iff :
    ((∃ host, writeScalar 6 (mapping host certificateMount) ∈ (p.artifacts s).mounted) ∧
      ∃ host, writeScalar 6 (mapping host certificateKeyMount) ∈ (p.artifacts s).mounted) ↔
      s.certificate?.isSome := by
  rw [mounted_artifacts, frontendService]
  cases s.certificate? with
  | none =>
    refine iff_of_false ?_ Bool.false_ne_true
    rintro ⟨⟨host, h⟩, -⟩
    cases h
  | some pair =>
    exact iff_of_true ⟨⟨_, List.mem_cons_self⟩, _, List.mem_cons_of_mem _ List.mem_cons_self⟩ rfl

section Proxy

variable {p s} (hs : '\n' ∉ s.serverName.toList) (h : ∀ path ∈ p.sockets, '\n' ∉ path.toList)

include hs h

theorem paths_of_mem_proxyBlocks {b : LineBlock} (hm : b ∈ (p.artifacts s).proxyBlocks)
    (hb : b.isServer) : b.paths = p.sockets := by
  rw [proxyBlocks_artifacts hs h] at hm
  rcases List.mem_append.mp hm with hm | hm
  · split at hm
    next =>
      rw [List.mem_singleton.mp hm] at hb
      exact absurd hb (by decide)
    next => cases hm
  rcases List.mem_cons.mp hm with rfl | hm
  · exact proxiedPaths_serverInner ..
  · split at hm
    next =>
      rw [List.mem_singleton.mp hm]
      exact proxiedPaths_serverInner ..
    next => cases hm

theorem exists_upstream_iff : (∃ b ∈ (p.artifacts s).proxyBlocks, b.isUpstream) ↔ p.hasRooms := by
  rw [proxyBlocks_artifacts hs h]
  cases p.hasRooms <;> cases s.certificate?.isSome <;> simp [LineBlock.isUpstream]

/-- One server answers to plain connections, and one to secure ones if there is a certificate. -/
theorem filter_proxyBlocks :
    ((p.artifacts s).proxyBlocks.filter fun b => b.isServer && !b.isSecure) =
        [⟨"server \x7b", serverInner "80" false s p.sockets⟩] ∧
      ((p.artifacts s).proxyBlocks.filter fun b => b.isServer && b.isSecure) =
        if s.certificate?.isSome then [⟨"server \x7b", serverInner "443 ssl" true s p.sockets⟩]
        else [] := by
  have server (lines : List String) : (LineBlock.mk "server \x7b" lines).isServer = true := rfl
  have upstream (lines : List String) :
    (LineBlock.mk "upstream backend \x7b" lines).isServer = false := rfl
  have plain : (LineBlock.mk "server \x7b" (serverInner "80" false s p.sockets)).isSecure = false :=
    Bool.eq_false_iff.mpr (mt (isSecure_server ..).mp (by decide))
  have secure : (LineBlock.mk "server \x7b" (serverInner "443 ssl" true s p.sockets)).isSecure =
      true :=
    (isSecure_server ..).mpr (by decide)
  rw [proxyBlocks_artifacts hs h]
  cases p.hasRooms <;> cases s.certificate?.isSome <;> simp [server, upstream, plain, secure]

end Proxy

end ExecutionPlan

namespace SiteBuild

/-- A page of the run that gave a room to an address. -/
def Owns (s : Settings) (calls : List BuildStep) (page : CompiledPage) (url : String) : Prop :=
  ∃ x ∈ (start s).accepted calls, x.document.compile x.url s = .ok page ∧ page.isInteractive ∧
    page.url.text = url

theorem Owns.ofText {s : Settings} {calls : List BuildStep} {page : CompiledPage} {url : String}
    (h : Owns s calls page url) : PageUrl.ofText url = page.url := by
  obtain ⟨x, -, hc, -, rfl⟩ := h
  rw [Document.url_compile hc, BuildStep.proper_url x |>.ofText_text]

theorem exists_owns {s : Settings} {calls : List BuildStep} {url : String}
    (h : url ∈ ((start s).after calls).plan.rooms.keys) : ∃ page, Owns s calls page url := by
  obtain ⟨x, hx, page, hc, hi, rfl⟩ := (mem_rooms_after s calls url).mp h
  exact ⟨page, x, hx, hc, hi, rfl⟩

/-- Texts that agree have no path with a line break in it: every path of a room is read from a line
of a server. -/
theorem newline_not_mem_of_agree {s : Settings} {calls : List BuildStep} {p : ExecutionPlan}
    (h : (p.artifacts s).Agree p s (Owns s calls)) : ∀ path ∈ p.sockets, '\n' ∉ path.toList := by
  intro path hp
  obtain ⟨url, hu, rfl⟩ := List.mem_map.mp hp
  obtain ⟨paths, -, hf, hb⟩ := h.paths
  obtain ⟨path, hm, page, howns, rfl⟩ := exists_of_forall₂ hf.flip hu
  obtain ⟨b, hs⟩ := List.exists_mem_of_length_pos (h.plain ▸ Nat.one_pos)
  obtain ⟨hb', server⟩ := List.mem_filter.mp hs
  rw [Bool.and_eq_true] at server
  rw [howns.ofText]
  exact Artifacts.newline_not_mem_of_mem_paths hb' (hb b hb' server.1 ▸ hm)

/-- With a server name in one line, the addresses of rooms decide: the texts of a run agree exactly
if no address has a line break in it. -/
theorem agree_artifacts_iff {s : Settings} (hs : '\n' ∉ s.serverName.toList)
    (calls : List BuildStep) :
    (((start s).after calls).plan.artifacts s).Agree ((start s).after calls).plan s
      (Owns s calls) ↔ ∀ path ∈ ((start s).after calls).plan.sockets, '\n' ∉ path.toList := by
  refine ⟨newline_not_mem_of_agree, fun h => ?_⟩
  have certificate := s.isSome_certificate?
  obtain ⟨plain, secure⟩ := ExecutionPlan.filter_proxyBlocks hs h
  constructor
  case plan =>
    rw [ExecutionPlan.artifacts]
    cases ((start s).after calls).plan.hasRooms <;> simp
  case upstream => exact ExecutionPlan.exists_upstream_iff hs h
  case locations =>
    intro b hm hb
    rw [ExecutionPlan.paths_of_mem_proxyBlocks hs h hm hb, ExecutionPlan.hasRooms_iff]
  case backend =>
    rw [ExecutionPlan.containers_artifacts]
    exact ExecutionPlan.backend_mem_composeLines ..
  case paths =>
    refine ⟨_, nodup_sockets s calls, ?_, fun b => ExecutionPlan.paths_of_mem_proxyBlocks hs h⟩
    rw [ExecutionPlan.sockets, List.forall₂_map_right_iff, List.forall₂_same]
    intro url hu
    obtain ⟨page, howns⟩ := exists_owns hu
    exact ⟨page, howns, congrArg PageUrl.socketPath howns.ofText⟩
  case plain =>
    rw [plain]
    rfl
  case secure =>
    rw [secure, certificate]
    split <;> rfl
  case published => rw [ExecutionPlan.published_iff, certificate]
  case mounted => rw [ExecutionPlan.mounted_iff, certificate]
  case given =>
    intro c k hc hk
    have both : s.certificate? = some (c, k) := by rw [Settings.certificate?, hc, hk]
    rw [ExecutionPlan.published_artifacts, ExecutionPlan.mounted_artifacts, frontendService, both]
    exact ⟨List.mem_cons_of_mem _ List.mem_cons_self, List.mem_cons_self,
      List.mem_cons_of_mem _ List.mem_cons_self⟩

/-- Settings with a certificate. -/
def certified : Settings :=
  { Settings.default with
    certificatePath := some "/etc/site.crt"
    certificateKeyPath := some "/etc/site.key" }

/-- Settings with a server name that ends its block and starts one for rooms. -/
def misnamed : Settings :=
  { Settings.default with serverName := "x;\n\x7d\nupstream backend \x7b\n    server y" }

/-- Two rooms are agreed on. A line break in an address is enough for a disagreement, and so is one
in the name of the server, even without pages. -/
theorem agree_artifacts_buttonPages :
    (((start certified).after [.tree "/" .buttonPage, .tree "guide/intro" .buttonPage]).plan.artifacts
        certified).Agree
      ((start certified).after [.tree "/" .buttonPage, .tree "guide/intro" .buttonPage]).plan certified
      (Owns certified [.tree "/" .buttonPage, .tree "guide/intro" .buttonPage]) ∧
    ¬ (((start certified).after [.tree "guide\nintro" .buttonPage]).plan.artifacts certified).Agree
      ((start certified).after [.tree "guide\nintro" .buttonPage]).plan certified
      (Owns certified [.tree "guide\nintro" .buttonPage]) ∧
    ¬ (((start misnamed).after []).plan.artifacts misnamed).Agree ((start misnamed).after []).plan
      misnamed (Owns misnamed []) := by
  have name : '\n' ∉ certified.serverName.toList := by decide +kernel
  refine ⟨(agree_artifacts_iff name _).mpr (by decide +kernel),
    mt (agree_artifacts_iff name _).mp (by decide +kernel), fun h => ?_⟩
  have none : ((start misnamed).after []).plan.hasRooms = false := rfl
  refine absurd (h.upstream.mp ?_) (by rw [none]; exact Bool.false_ne_true)
  decide +kernel

end SiteBuild

end LivePages
