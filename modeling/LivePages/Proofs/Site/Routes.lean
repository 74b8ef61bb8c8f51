import LivePages.Deploy.Artifacts
import LivePages.Proofs.Deploy.ProxyFile
import LivePages.Proofs.Site.Sockets

namespace LivePages

namespace Directive

/-- What is in the braces of a block that starts with given words. -/
def inner? (words : List String) : Directive → Option (List Directive)
  | simple _ => none
  | block ws body => if ws = words then some body else none

/-- A server passes connections to a path on, in one place and to one target. -/
def Routes (path : String) (server : List Directive) : Prop :=
  ∃ body, (server.filter fun d => d.words = ["location", "=", path]) =
      [block ["location", "=", path] body] ∧
    (body.filter fun d => d.words.head? = some "proxy_pass") =
      [simple ["proxy_pass", "http://backend" ++ path]]

theorem inner?_eq_some {words : List String} {d : Directive} {body : List Directive}
    (h : d.inner? words = some body) : d = block words body := by
  cases d with
  | simple ws => cases h
  | block ws body' =>
    rw [inner?] at h
    split at h
    next e =>
      rw [e, Option.some.inj h]
    next => cases h

theorem Each.words {p : List String → Prop} {d : Directive} (h : d.Each p) : p d.words := by
  cases h with
  | simple h => exact h
  | block h _ => exact h

theorem Each.of_block {p : List String → Prop} {ws : List String} {body : List Directive}
    (h : (Directive.block ws body).Each p) : ∀ d ∈ body, d.Each p := by
  cases h with
  | block _ hb => exact hb

/-- Where paths are told apart, a server with a location for each of them passes each one on. -/
theorem routes_serverBody {port : List String} {secure : Bool} {s : Settings}
    {sockets : List String} (hn : sockets.Nodup) {path : String} (hp : path ∈ sockets) :
    Routes path (serverBody port secure s sockets) := by
  have certified : ((if secure then certificate else []).filter fun d =>
      d.words = ["location", "=", path]) = [] := by
    cases secure
    · rfl
    · simp [certificate, Directive.words]
  have located : ((sockets.map ofSocket).filter fun d => d.words = ["location", "=", path]) =
      [ofSocket path] := by
    have same : ((fun d : Directive => decide (d.words = ["location", "=", path])) ∘ ofSocket) =
        fun q => q == path := by
      funext q
      simp [ofSocket, Directive.words, Bool.beq_eq_decide_eq]
    rw [List.filter_map, same, List.filter_beq, List.count_eq_one_of_mem hn hp]
    rfl
  refine ⟨socketBody path, ?_, ?_⟩
  · rw [serverBody, List.filter_append, List.filter_append, List.filter_append, certified, located]
    simp [Directive.words, ofSocket]
  · simp [socketBody, Directive.words]

end Directive

open Directive

/-- A configuration has one server or two, and each of them passes the connections of all rooms
on. -/
def ExecutionPlan.Routed (p : ExecutionPlan) (s : Settings) (file : List Directive) : Prop :=
  (file.filterMap (inner? ["server"])).length = (if s.certificate?.isSome then 2 else 1) ∧
    ∀ server ∈ file.filterMap (inner? ["server"]), ∀ path ∈ p.sockets, Routes path server

theorem ExecutionPlan.routed_proxyFile {p : ExecutionPlan} (s : Settings) (hn : p.sockets.Nodup) :
    p.Routed s (proxyFile p s) := by
  have servers : (proxyFile p s).filterMap (inner? ["server"]) =
      serverBody ["80"] false s p.sockets :: (if s.certificate?.isSome then
        [serverBody ["443", "ssl"] true s p.sockets] else []) := by
    rw [proxyFile]
    cases p.hasRooms <;> cases s.certificate?.isSome <;> rfl
  rw [Routed, servers]
  refine ⟨?_, fun server hm path hp => ?_⟩
  · split <;> rfl
  · rcases List.mem_cons.mp hm with rfl | hm
    · exact routes_serverBody hn hp
    · split at hm
      next => exact List.mem_singleton.mp hm ▸ routes_serverBody hn hp
      next => cases hm

/-- A path that a configuration is read to have is one word of it. -/
theorem ExecutionPlan.isWord_of_routed {p : ExecutionPlan} {s : Settings} {text : String}
    {file : List Directive} (h : Directive.ofText? text = some file) (hr : p.Routed s file)
    {path : String} (hp : path ∈ p.sockets) : path.toList.all isProxyWordChar := by
  obtain ⟨server, hm⟩ : ∃ server, server ∈ file.filterMap (inner? ["server"]) := by
    refine List.exists_mem_of_length_pos ?_
    rw [hr.1]
    split <;> decide
  obtain ⟨body, located, -⟩ := hr.2 server hm path hp
  obtain ⟨d, hd, inner⟩ := List.mem_filterMap.mp hm
  have each := each_of_ofText? h d hd
  rw [inner?_eq_some inner] at each
  have location : block ["location", "=", path] body ∈ server :=
    List.mem_of_mem_filter (located ▸ List.mem_singleton_self _)
  exact (each.of_block _ location).words path (by simp [Directive.words])

theorem PageUrl.head_socketPath (u : PageUrl) : u.socketPath.toList.head? = some '/' := by
  rw [toList_socketPath]
  cases u.segments <;> rfl

namespace SiteBuild

variable {s : Settings}

/-- The addresses of rooms decide. Without blanks, semicolons and braces in them, the proxy reads
exactly the directives that it is meant to have, and passes the connections of every room on in
every server; with any of them it does not. -/
theorem routed_proxy_iff (hs : isHostName s.serverName) (calls : List BuildStep) :
    ((∀ path ∈ ((start s).after calls).plan.sockets, path.toList.all isProxyWordChar) →
      Directive.ofText? (((start s).after calls).plan.artifacts s).proxy =
        some (proxyFile ((start s).after calls).plan s)) ∧
    ((∃ file, Directive.ofText? (((start s).after calls).plan.artifacts s).proxy = some file ∧
        ((start s).after calls).plan.Routed s file) ↔
      ∀ path ∈ ((start s).after calls).plan.sockets, path.toList.all isProxyWordChar) := by
  have read (h : ∀ path ∈ ((start s).after calls).plan.sockets, path.toList.all isProxyWordChar) :
      Directive.ofText? (((start s).after calls).plan.artifacts s).proxy =
        some (proxyFile ((start s).after calls).plan s) := by
    refine ofText?_proxyText hs fun path hp => ⟨h path hp, ?_⟩
    obtain ⟨url, -, rfl⟩ := List.mem_map.mp hp
    exact PageUrl.head_socketPath _
  refine ⟨read, fun ⟨file, hf, hr⟩ path hp => ?_, fun h => ?_⟩
  · exact ExecutionPlan.isWord_of_routed hf hr hp
  · exact ⟨_, read h, ExecutionPlan.routed_proxyFile s (nodup_sockets s calls)⟩

/-- Two rooms are reached; a blank in an address is enough for a room not to be. -/
theorem routed_proxy_buttonPages :
    (∃ file, Directive.ofText? (((start .default).after
        [.tree "/" .buttonPage, .tree "guide/intro" .buttonPage]).plan.artifacts .default).proxy =
          some file ∧
      ((start .default).after
        [.tree "/" .buttonPage, .tree "guide/intro" .buttonPage]).plan.Routed .default file) ∧
    ¬ ∃ file, Directive.ofText?
        (((start .default).after [.tree "my page" .buttonPage]).plan.artifacts .default).proxy =
          some file ∧
      ((start .default).after [.tree "my page" .buttonPage]).plan.Routed .default file := by
  have host : isHostName Settings.default.serverName := by decide +kernel
  constructor
  · exact (routed_proxy_iff host _).2.mpr (by decide +kernel)
  · exact mt (routed_proxy_iff host _).2.mp (by decide +kernel)

end SiteBuild

end LivePages
