import SmartSOCKSProxy.Config.References
import SmartSOCKSProxy.Config.Script
import SmartSOCKSProxy.Routing.Policy

/-
  Policies in scripts.

  The rules of a proxy instance may be written in several
  sections and in several files, between anything else that
  is configured.  What is loaded enforces the policy that
  these rules are, taken in their order.

  Key definitions include:
    * `PolicyLine`, `PolicyScript`, `PolicyBook`
    * `Statement.policyRun`, `policyParse`
    * `Enforces`

  Key theorems include:
    * `Implements.of_identity`
    * `entry_outline`, `Enforces.of_outline`
    * `run_simulates`
    * `configured_policy`
-/

namespace SmartSOCKSProxy

------------------------------------------------------------
-- Scripts
------------------------------------------------------------

/- Rules come from `route` lines, as rules of a policy. -/
inductive Spells : Statement → Option PolicyRule → Prop
| route
    {spec : Word stringBufLen}
    {rule : PolicyRule}
    (hText : spec.text = rule.text) :
    Spells (.route spec) (some rule)
| other
    {stmt : Statement}
    (hRoute : ∀ spec, stmt ≠ .route spec)
    (hFile : ∀ name, stmt ≠ .routeFile name)
    (hDir : ∀ dir, stmt ≠ .routeDir dir) :
    Spells stmt none

structure PolicyLine where
  written : WrittenStatement
  rule : Option PolicyRule
  spells : Spells written.stmt rule

abbrev PolicyScript := List PolicyLine

/- The policy of each proxy instance, by its name. -/
abbrev PolicyBook := Text → List PolicyRule

/- The proxy instance that the section is about. -/
structure PolicyState where
  current : Option Text
  book : PolicyBook

/- A rule is the last one of its policy. -/
def PolicyBook.add
    (book : PolicyBook)
    (name : Text)
    (rule : PolicyRule) : PolicyBook :=
  fun other =>
    if other = name then book other ++ [rule] else book other

theorem PolicyBook.add_self
    (book : PolicyBook)
    (name : Text)
    (rule : PolicyRule) :
    book.add name rule name = book name ++ [rule] :=
  if_pos rfl

theorem PolicyBook.add_of_ne
    (book : PolicyBook)
    {name other : Text}
    (hNot : other ≠ name)
    (rule : PolicyRule) :
    book.add name rule other = book other :=
  if_neg hNot

/- A rule in the section of a proxy instance. -/
def PolicyState.addRule
    (rule : Option PolicyRule)
    (state : PolicyState) : PolicyState :=
  match state.current, rule with
  | some name, some rule =>
      { state with book := state.book.add name rule }
  | _, _ => state

/- Only sections of proxy instances and rules matter. -/
def Statement.policyRun
    (stack : List Text)
    (included : Option (Text → PolicyBook → PolicyBook))
    (rule : Option PolicyRule)
    (state : PolicyState) : Statement → PolicyState
| .includeFile name =>
    match includeGuard stack included name.text with
    | none => state
    | some parse => { state with book := parse state.book }
| .main => { state with current := none }
| .logFile _ => { state with current := none }
| .ssh _ => { state with current := none }
| .proxy name => { state with current := some name.text }
| _ => state.addRule rule

section Scripts

variable (policies : Text → Option PolicyScript)

def policyBody
    (filename : Text)
    (stack : List Text)
    (included : Option (Text → PolicyBook → PolicyBook))
    (book : PolicyBook) : PolicyBook :=
  match policies filename with
  | none => book
  | some script =>
      (script.foldl
        (fun (state : PolicyState) (line : PolicyLine) =>
          line.written.stmt.policyRun stack included line.rule
            state)
        ⟨none, book⟩).book

/- With what is included, as deep as there is room. -/
def policyParse :
    Nat → List Text → Text → PolicyBook → PolicyBook
  | 0, stack, filename, book =>
      policyBody policies filename (stack ++ [filename]) none
        book
  | room + 1, stack, filename, book =>
      policyBody policies filename (stack ++ [filename])
        (some (policyParse room (stack ++ [filename]))) book

/- The scripts themselves. -/
def writtenScripts
    (filename : Text) : Option Script :=
  (policies filename).map fun script =>
    script.map PolicyLine.written

end Scripts

------------------------------------------------------------
-- Proxy Instances
------------------------------------------------------------

namespace Configuration

/- The default instance, and those of the list. -/
def proxies
    (config : Configuration) : List ProxyConfig :=
  config.proxyDefault :: config.proxyInstanceList

def proxyNames
    (config : Configuration) : List Text :=
  config.proxies.map fun proxy => proxy.name.text

def tunnelNames
    (config : Configuration) : List Text :=
  config.tunnels.map fun tun => tun.name.text

/- Which names there are, and how many rules. -/
def outline
    (config : Configuration) :
    List (Text × Nat) × List Text :=
  (config.proxies.map fun proxy =>
      (proxy.name.text, proxy.routeRuleList.length),
    config.tunnelNames)

end Configuration

def ProxyRef.position : ProxyRef → Nat
| .default => 0
| .listed index => index + 1

theorem map_modify_keeps
    {α β : Type}
    {f : α → α}
    {g : α → β}
    (hKeeps : ∀ a, g (f a) = g a)
    (xs : List α)
    (i : Nat) :
    (xs.modify i f).map g = xs.map g := by
  apply List.ext_getElem?
  intro j
  rw [List.getElem?_map, List.getElem?_map,
    List.getElem?_modify]
  cases xs[j]? with
  | none => rfl
  | some a =>
      by_cases hHere : i = j
      · simp [hHere, hKeeps a]
      · simp [hHere]

theorem proxies_updateProxy
    (config : Configuration)
    (f : ProxyConfig → ProxyConfig)
    (ref : ProxyRef) :
    (config.updateProxy f ref).proxies =
      config.proxies.modify ref.position f := by
  cases ref <;> rfl

theorem proxy_eq_of_position
    {config : Configuration}
    {ref : ProxyRef}
    {proxy : ProxyConfig}
    (hRef : config.proxies[ref.position]? = some proxy) :
    config.proxy ref = proxy := by
  cases ref with
  | default => exact Option.some.inj hRef
  | listed index =>
      have hHere :
          config.proxyInstanceList[index]? = some proxy := hRef
      rw [Configuration.proxy, List.getD_eq_getElem?_getD,
        hHere, Option.getD_some]

/- Growth, at a position of the list. -/
theorem Configuration.Grows.proxy_at
    {config config' : Configuration}
    (hGrows : config.Grows config')
    {i : Nat}
    {proxy : ProxyConfig}
    (hProxy : config.proxies[i]? = some proxy) :
    ∃ proxy', config'.proxies[i]? = some proxy' ∧
      proxy.Grows proxy' := by
  cases i with
  | zero =>
      cases hProxy
      exact ⟨config'.proxyDefault, rfl, hGrows.proxyDefault⟩
  | succ index => exact hGrows.proxies index proxy hProxy

------------------------------------------------------------
-- Rules That Are Kept
------------------------------------------------------------

/- Lists that agree in what matters for a relation. -/
theorem forall₂_of_map_eq
    {α β γ : Type}
    {R : α → β → Prop}
    {f : α → γ}
    {xs xs' : List α}
    {ys : List β}
    (hSame : xs'.map f = xs.map f)
    (hKeeps : ∀ x ∈ xs, ∀ x' ∈ xs', f x' = f x →
      ∀ y, R x y → R x' y)
    (hRelated : List.Forall₂ R xs ys) :
    List.Forall₂ R xs' ys := by
  induction hRelated generalizing xs' with
  | nil =>
      rw [List.map_eq_nil_iff.mp hSame]
      exact .nil
  | @cons x y xs ys hHead _ ih =>
      cases xs' with
      | nil => cases hSame
      | cons x' xs' =>
          rw [List.map_cons, List.map_cons,
            List.cons.injEq] at hSame
          refine .cons ?_ ?_
          · exact hKeeps x List.mem_cons_self x'
              List.mem_cons_self hSame.1 y hHead
          · apply ih hSame.2
            intro x hMem x' hMem'
            exact hKeeps x (List.mem_cons_of_mem _ hMem) x'
              (List.mem_cons_of_mem _ hMem')

/- A tunnel keeps its name as long as it is there. -/
theorem name_eq_of_identity
    {tunnels tunnels' : List SshTunnel}
    (hGrows :
      tunnels.map SshTunnel.identity <:+
        tunnels'.map SshTunnel.identity)
    (hIds : (tunnels'.map SshTunnel.id).Nodup)
    {tun tun' : SshTunnel}
    (hTun : tun ∈ tunnels)
    (hTun' : tun' ∈ tunnels')
    (hId : tun'.id = tun.id) :
    tun'.name = tun.name := by
  rcases List.mem_map.mp (hGrows.mem (List.mem_map_of_mem hTun))
    with ⟨found, hFound, hSame⟩
  have hSameId : found.id = tun.id := congrArg Prod.fst hSame
  have hSameName : found.name = tun.name :=
    congrArg Prod.snd hSame
  have hOne : tun' = found :=
    List.inj_on_of_nodup_map hIds hTun' hFound
      (hId.trans hSameId.symm)
  rw [hOne, hSameName]

/- What a rule means is told by its identity. -/
theorem Implements.of_identity
    {config config' : Configuration}
    (hGrows : config.Grows config')
    (hIds : (config'.tunnels.map SshTunnel.id).Nodup)
    {route route' : RouteRule}
    (hRoute : ∀ tun ∈ route.tunnels, tun ∈ config.tunnels)
    (hRoute' :
      ∀ tun ∈ route'.tunnels, tun ∈ config'.tunnels)
    (hSame : route'.identity = route.identity)
    {rule : PolicyRule}
    (hRule : Implements route rule) :
    Implements route' rule := by
  have hFields :
      route' = route.setTunnel route'.tunnel := by
    have hFirst := congrArg (fun identity =>
      identity.1.setTunnel route'.tunnel) hSame
    exact hFirst
  refine ⟨?_, ?_, ?_⟩
  · intro d requestedPort
    rw [← hRule.applies, hFields]
    exact ⟨fun h => ⟨h.1, h.2, h.3, h.4, h.5, h.6, h.7⟩,
      fun h => ⟨h.1, h.2, h.3, h.4, h.5, h.6, h.7⟩⟩
  · intro s
    rw [← hRule.performs, hFields]
    rfl
  · have hIdsSame :
        route'.tunnels.map SshTunnel.id =
          route.tunnels.map SshTunnel.id := by
      have hArrays := congrArg
        (fun identity => untilNull identity.2.toList) hSame
      dsimp only [RouteRule.identity] at hArrays
      rw [Vector.toList_map, Vector.toList_map, untilNull_map,
        untilNull_map] at hArrays
      exact hArrays
    have hNames : List.Forall₂
        (fun (tun : SshTunnel) (name : Text) =>
          tun.name.text = name)
        route.tunnels
        (route.tunnels.map fun tun => tun.name.text) :=
      List.forall₂_map_right_iff.mpr
        (List.forall₂_same.mpr fun _ _ => rfl)
    have hNames' := forall₂_of_map_eq hIdsSame
      (fun tun hTun tun' hTun' hId name hName => by
        rw [name_eq_of_identity hGrows.tunnels hIds
          (hRoute tun hTun) (hRoute' tun' hTun') hId]
        exact hName) hNames
    have hEqual := List.forall₂_map_left_iff.mpr hNames'
    rw [List.forall₂_eq_eq_eq] at hEqual
    exact hEqual.trans hRule.tunnels

------------------------------------------------------------
-- Enforcement
------------------------------------------------------------

/-
  Each proxy instance has the rules of its policy.  Instances
  and tunnels have names of their own.
-/
structure Enforces
    (load : ConfigLoad)
    (book : PolicyBook) : Prop where
  resolved : load.Resolved
  distinct : load.config.proxyNames.Nodup
  distinctTunnels : load.config.tunnelNames.Nodup
  first : load.config.proxyDefault.name.text = kwDefault
  rules : ∀ proxy ∈ load.config.proxies,
    List.Forall₂ Implements proxy.routeRuleList
      (book proxy.name.text)
  absent : ∀ name, name ∉ load.config.proxyNames →
    book name = []

/- A position of the list is a pointer. -/
theorem ConfigLoad.Resolved.of_mem
    {load : ConfigLoad}
    (hLoad : load.Resolved)
    {proxy : ProxyConfig}
    (hMem : proxy ∈ load.config.proxies) :
    proxy.Resolved load.config := by
  rcases List.mem_cons.mp hMem with rfl | hListed
  · exact hLoad.proxies .default
  · rcases List.mem_iff_getElem?.mp hListed with
      ⟨index, hIndex⟩
    have hHere :
        load.config.proxy (.listed index) = proxy := by
      apply proxy_eq_of_position
      exact hIndex
    exact hHere ▸ hLoad.proxies (.listed index)

/- Changes that add no rule, no instance and no tunnel. -/
theorem Enforces.of_outline
    {world : ConfigWorld}
    {load load' : ConfigLoad}
    {book : PolicyBook}
    (hEnforces : Enforces load book)
    (hChanges : Changes world load load')
    (hOutline :
      load'.config.outline = load.config.outline) :
    Enforces load' book := by
  have hGrows := hChanges.grows
  have hResolved := hChanges.resolved hEnforces.resolved
  have hProxies := congrArg Prod.fst hOutline
  have hNames :
      load'.config.proxyNames = load.config.proxyNames := by
    have hFirst := congrArg (List.map Prod.fst) hProxies
    dsimp only [Configuration.outline] at hFirst
    rw [List.map_map, List.map_map] at hFirst
    exact hFirst
  have hTunnels :
      load'.config.tunnelNames = load.config.tunnelNames :=
    congrArg Prod.snd hOutline
  refine
    { resolved := hResolved
      distinct := hNames ▸ hEnforces.distinct
      distinctTunnels := hTunnels ▸ hEnforces.distinctTunnels
      first := ?_
      rules := ?_
      absent := hNames ▸ hEnforces.absent }
  · rw [hGrows.proxyDefault.name]
    exact hEnforces.first
  intro proxy' hMem'
  rcases List.mem_iff_getElem?.mp hMem' with ⟨i, hProxy'⟩
  have hAt := congrArg (fun outlines => outlines[i]?) hProxies
  dsimp only [Configuration.outline] at hAt
  rw [List.getElem?_map, List.getElem?_map, hProxy'] at hAt
  rcases Option.map_eq_some_iff.mp hAt.symm with
    ⟨proxy, hProxy, hSame⟩
  have hMem := List.mem_iff_getElem?.mpr ⟨i, hProxy⟩
  rcases hGrows.proxy_at hProxy with ⟨grown, hGrown, hGrow⟩
  rw [hProxy', Option.some.injEq] at hGrown
  subst hGrown
  have hLength :
      (proxy.routeRuleList.map RouteRule.identity).length =
        (proxy'.routeRuleList.map
          RouteRule.identity).length := by
    rw [List.length_map, List.length_map]
    exact congrArg Prod.snd hSame
  have hIdentity :=
    (hGrow.rules.eq_of_length hLength).symm
  rw [hGrow.name]
  refine forall₂_of_map_eq hIdentity ?_
    (hEnforces.rules proxy hMem)
  intro route hRoute route' hRoute' hIdentity rule hRule
  exact hRule.of_identity hGrows hResolved.ids
    ((hEnforces.resolved.of_mem hMem).tunnels route hRoute)
    ((hResolved.of_mem hMem').tunnels route' hRoute')
    hIdentity

------------------------------------------------------------
-- Entries
------------------------------------------------------------

namespace Configuration

variable (config : Configuration)

/- A change of an instance that has the same outline. -/
theorem outline_updateProxy
    {f : ProxyConfig → ProxyConfig}
    (hKeeps : ∀ proxy,
      (f proxy).name = proxy.name ∧
        (f proxy).routeRuleList = proxy.routeRuleList)
    (ref : ProxyRef) :
    (config.updateProxy f ref).outline = config.outline := by
  have hTunnels :
      (config.updateProxy f ref).tunnelNames =
        config.tunnelNames := by
    cases ref <;> rfl
  refine Prod.ext ?_ hTunnels
  dsimp only [outline]
  rw [proxies_updateProxy]
  apply map_modify_keeps
  intro proxy
  rw [(hKeeps proxy).1, (hKeeps proxy).2]

/- A change of a tunnel, which the rules see. -/
theorem outline_updateSsh
    {f : SshConfig → SshConfig}
    (hKeeps : ∀ ssh, (f ssh).tunnel.name = ssh.tunnel.name)
    (id : Nat) :
    (config.updateSsh id f).outline = config.outline := by
  refine Prod.ext ?_ ?_
  · dsimp only [outline]
    have hProxies :
        (config.updateSsh id f).proxies =
          config.proxies.map
            (ProxyConfig.refresh
              (f (config.ssh id)).tunnel) := rfl
    rw [hProxies, List.map_map]
    apply List.map_congr_left
    intro proxy _
    dsimp only [Function.comp_apply, ProxyConfig.refresh]
    rw [List.length_map]
  · dsimp only [outline, tunnelNames, tunnels, updateSsh,
      updateWhere]
    rw [List.map_map, List.map_map, List.map_map]
    apply List.map_congr_left
    intro ssh _
    simp only [Function.comp_apply]
    split
    · rw [hKeeps]
    · rfl

theorem outline_setLog
    (f : LogConfig → LogConfig)
    (owner : LogOwner) :
    (config.setLog f owner).outline = config.outline := by
  cases owner with
  | main => rfl
  | proxy ref =>
      exact config.outline_updateProxy
        (f := fun proxy => { proxy with log := f proxy.log })
        (fun _ => ⟨rfl, rfl⟩) ref
  | ssh id =>
      exact config.outline_updateSsh
        (f := fun ssh => { ssh with log := f ssh.log })
        (fun _ => rfl) id

theorem outline_updateLogFile
    (address : Nat)
    (f : LogFileConfig → LogFileConfig) :
    (config.updateLogFile address f).outline =
      config.outline := by
  unfold updateLogFile
  split <;> rfl

theorem outline_findOrCreateLogFile
    (filename : Text) :
    (findOrCreateLogFile config filename).1.outline =
      config.outline := by
  unfold findOrCreateLogFile
  split <;> rfl

end Configuration

section Entries

variable {world : ConfigWorld}
variable {filename : Text}
variable {lineNum : Nat}
variable {load load' : ConfigLoad}
variable {current : Section}

/- Services are no rules. -/
theorem insertService_outline
    {ref : ProxyRef}
    {srv : Option Service}
    (hEntry : insertService load ref srv = .value load') :
    load'.config.outline = load.config.outline := by
  cases srv with
  | none => cases hEntry
  | some srv =>
      cases hEntry
      exact load.config.outline_updateProxy
        (f := fun proxy =>
          { proxy with
            serviceList := srv :: proxy.serviceList })
        (fun _ => ⟨rfl, rfl⟩) ref

/- The entries that add rules are those of `route`. -/
theorem entry_outline
    {stmt : Statement}
    (hRoute : ∀ spec, stmt ≠ .route spec)
    (hFile : ∀ name, stmt ≠ .routeFile name)
    (hDir : ∀ dir, stmt ≠ .routeDir dir)
    (hEntry :
      stmt.entry world filename lineNum load current =
        .value load') :
    load'.config.outline = load.config.outline := by
  cases stmt with
  | route spec => exact absurd rfl (hRoute spec)
  | routeFile name => exact absurd rfl (hFile name)
  | routeDir dir => exact absurd rfl (hDir dir)
  | logFilename name =>
      dsimp only [Statement.entry] at hEntry
      cases hOwner : current.logOwner with
      | none =>
          rw [hOwner] at hEntry
          cases hEntry
      | some owner =>
          rw [hOwner] at hEntry
          cases hEntry
          exact (Configuration.outline_setLog _ _ owner).trans
            (load.config.outline_findOrCreateLogFile
              name.text)
  | logVerbosity level =>
      dsimp only [Statement.entry] at hEntry
      cases hOwner : current.logOwner with
      | none =>
          rw [hOwner] at hEntry
          cases hEntry
      | some owner =>
          rw [hOwner] at hEntry
          cases hEntry
          exact Configuration.outline_setLog _ _ owner
  | ulimit n =>
      cases current with
      | main =>
          cases hEntry
          rfl
      | _ => cases hEntry
  | byteCountMax n =>
      cases current with
      | logFile address =>
          cases hEntry
          exact load.config.outline_updateLogFile address _
      | _ => cases hEntry
  | fileRotateCount n =>
      cases current with
      | logFile address =>
          cases hEntry
          exact load.config.outline_updateLogFile address _
      | _ => cases hEntry
  | socksServer spec =>
      cases current with
      | proxy ref => exact insertService_outline hEntry
      | _ => cases hEntry
  | portForward spec =>
      cases current with
      | proxy ref => exact insertService_outline hEntry
      | _ => cases hEntry
  | httpServer spec =>
      cases current with
      | proxy ref => exact insertService_outline hEntry
      | _ => cases hEntry
  | socksPort n =>
      cases current with
      | ssh id =>
          cases hEntry
          refine load.config.outline_updateSsh ?_ id
          exact fun _ => rfl
      | _ => cases hEntry
  | command commandToRun =>
      cases current with
      | ssh id =>
          cases hEntry
          refine load.config.outline_updateSsh ?_ id
          exact fun _ => rfl
      | _ => cases hEntry
  | _ => cases current <;> cases hEntry

end Entries

------------------------------------------------------------
-- Sections
------------------------------------------------------------

/- The section of a loader, and the one of a policy. -/
inductive InSection
    (config : Configuration) : Section → Option Text → Prop
| proxy
    {ref : ProxyRef}
    {proxy : ProxyConfig}
    (hRef : config.proxies[ref.position]? = some proxy) :
    InSection config (.proxy ref) (some proxy.name.text)
| other
    {current : Section}
    (hOther : ∀ ref, current ≠ .proxy ref) :
    InSection config current none

theorem InSection.of_name
    {config : Configuration}
    {ref : ProxyRef}
    {proxy : ProxyConfig}
    (hRef : config.proxies[ref.position]? = some proxy)
    {name : Text}
    (hName : proxy.name.text = name) :
    InSection config (.proxy ref) (some name) :=
  hName ▸ .proxy hRef

/- A section stays what it is. -/
theorem InSection.grows
    {config config' : Configuration}
    (hGrows : config.Grows config')
    {current : Section}
    {name : Option Text}
    (hSection : InSection config current name) :
    InSection config' current name := by
  cases hSection with
  | other hOther => exact .other hOther
  | @proxy ref proxy hRef =>
      rcases hGrows.proxy_at hRef with ⟨proxy', hRef', hGrow⟩
      rw [← hGrow.name]
      exact .proxy hRef'

structure Simulates
    (state : ConfigState)
    (policy : PolicyState) : Prop where
  inSection :
    InSection state.load.config state.current policy.current
  enforces : Enforces state.load policy.book

/- A section of a log file. -/
theorem openLogFile_outline
    (load : ConfigLoad)
    (name : Text) :
    (load.openLogFile name).load.config.outline =
        load.config.outline ∧
      ∀ ref, (load.openLogFile name).current ≠
        .proxy ref := by
  unfold ConfigLoad.openLogFile
  split
  · exact ⟨rfl, nofun⟩
  · exact ⟨load.config.outline_findOrCreateLogFile name,
      nofun⟩

/- A new proxy instance has no rules. -/
theorem Enforces.newProxy
    {load load' : ConfigLoad}
    {book : PolicyBook}
    (hEnforces : Enforces load book)
    (hResolved : load'.Resolved)
    {proxy : ProxyConfig}
    (hProxies :
      load'.config.proxies = load.config.proxies ++ [proxy])
    (hTunnels : load'.config.tunnels = load.config.tunnels)
    (hFirst :
      load'.config.proxyDefault = load.config.proxyDefault)
    (hNone : proxy.routeRuleList = [])
    (hNew : proxy.name.text ∉ load.config.proxyNames) :
    Enforces load' book := by
  have hNames :
      load'.config.proxyNames =
        load.config.proxyNames ++ [proxy.name.text] := by
    unfold Configuration.proxyNames
    rw [hProxies, List.map_append]
    rfl
  have hTunnelNames :
      load'.config.tunnelNames = load.config.tunnelNames :=
    congrArg (List.map _) hTunnels
  refine
    { resolved := hResolved
      distinct := ?_
      distinctTunnels :=
        hTunnelNames ▸ hEnforces.distinctTunnels
      first := ?_
      rules := ?_
      absent := ?_ }
  · rw [hNames, ← List.concat_eq_append, List.nodup_concat]
    exact ⟨hNew, hEnforces.distinct⟩
  · rw [hFirst]
    exact hEnforces.first
  · intro other hMem
    rw [hProxies] at hMem
    rcases List.mem_append.mp hMem with hOld | hHere
    · exact hEnforces.rules other hOld
    · rw [List.mem_singleton.mp hHere, hNone,
        hEnforces.absent proxy.name.text hNew]
      exact .nil
  · intro name hAbsent
    rw [hNames] at hAbsent
    exact hEnforces.absent name fun hMem =>
      hAbsent (List.mem_append_left _ hMem)

/- A new tunnel is named by no rule yet. -/
theorem Enforces.newTunnel
    {load load' : ConfigLoad}
    {book : PolicyBook}
    (hEnforces : Enforces load book)
    (hResolved : load'.Resolved)
    {tun : SshTunnel}
    (hProxies : load'.config.proxies = load.config.proxies)
    (hTunnels :
      load'.config.tunnels = tun :: load.config.tunnels)
    (hNew : tun.name.text ∉ load.config.tunnelNames) :
    Enforces load' book := by
  have hNames :
      load'.config.proxyNames = load.config.proxyNames :=
    congrArg (List.map _) hProxies
  have hTunnelNames :
      load'.config.tunnelNames =
        tun.name.text :: load.config.tunnelNames := by
    unfold Configuration.tunnelNames
    rw [hTunnels, List.map_cons]
  exact
    { resolved := hResolved
      distinct := hNames ▸ hEnforces.distinct
      distinctTunnels :=
        hTunnelNames ▸
          List.nodup_cons.mpr
            ⟨hNew, hEnforces.distinctTunnels⟩
      first := (List.cons.inj hProxies).1 ▸ hEnforces.first
      rules := hProxies ▸ hEnforces.rules
      absent := hNames ▸ hEnforces.absent }

/- A section of a proxy instance, which may be a new one. -/
theorem openProxy_simulates
    {world : ConfigWorld}
    {load : ConfigLoad}
    {book : PolicyBook}
    (hEnforces : Enforces load book)
    (name : Word 1024)
    (hChanges :
      Changes world load (load.openProxy name.text).load) :
    Simulates (load.openProxy name.text)
      ⟨some name.text, book⟩ := by
  have hResolved := hChanges.resolved hEnforces.resolved
  unfold ConfigLoad.openProxy at hResolved ⊢
  dsimp only at hResolved ⊢
  split at hResolved
  · rename_i hDefault
    rw [if_pos hDefault]
    refine ⟨?_, hEnforces⟩
    refine InSection.of_name ?_
      (hEnforces.first.trans hDefault.symm)
    rfl
  rename_i hOther
  rw [if_neg hOther]
  cases hFind : load.config.proxyInstanceList.findIdx?
      fun proxy => decide (proxy.name.text = name.text) with
  | some index =>
      rcases List.findIdx?_eq_some_iff_getElem.mp hFind with
        ⟨hIndex, hName, _⟩
      have hHere :
          load.config.proxyInstanceList[index].name.text =
            name.text := of_decide_eq_true hName
      refine ⟨?_, hEnforces⟩
      refine InSection.of_name ?_ hHere
      exact List.getElem?_eq_getElem hIndex
  | none =>
      rw [hFind] at hResolved
      have hNew : name.text ∉ load.config.proxyNames := by
        intro hMem
        rcases List.mem_map.mp hMem with ⟨proxy, hHere, hSame⟩
        rcases List.mem_cons.mp hHere with rfl | hListed
        · exact hOther (hSame.symm.trans hEnforces.first)
        · have hNone :=
            List.findIdx?_eq_none_iff.mp hFind proxy hListed
          rw [decide_eq_true hSame] at hNone
          cases hNone
      have hText :
          (CBuf.copy name.text : CBuf 1024).text =
            name.text := name.text_copy
      refine ⟨?_, ?_⟩
      · dsimp only
        apply InSection.of_name
        · exact List.getElem?_concat_length
        · exact hText
      · refine hEnforces.newProxy hResolved rfl rfl rfl rfl ?_
        rw [hText]
        exact hNew

/- A section of a tunnel, which may be a new one. -/
theorem openSsh_simulates
    {world : ConfigWorld}
    {load : ConfigLoad}
    {book : PolicyBook}
    (hEnforces : Enforces load book)
    (name : Word 200)
    (hChanges :
      Changes world load
        (load.openSsh world name.text).load) :
    Simulates (load.openSsh world name.text)
      ⟨none, book⟩ := by
  have hResolved := hChanges.resolved hEnforces.resolved
  unfold ConfigLoad.openSsh at hResolved ⊢
  dsimp only at hResolved ⊢
  split at hResolved
  · rename_i hDefault
    rw [if_pos hDefault]
    exact ⟨.other nofun, hEnforces⟩
  rename_i hOther
  rw [if_neg hOther]
  cases hFind : load.config.sshTunnelList.find?
      fun ssh => decide (ssh.tunnel.name.text = name.text) with
  | some ssh => exact ⟨.other nofun, hEnforces⟩
  | none =>
      rw [hFind] at hResolved
      have hText :
          (CBuf.copy name.text : CBuf 200).text = name.text :=
        name.text_copy
      refine ⟨.other nofun,
        hEnforces.newTunnel hResolved rfl rfl ?_⟩
      intro hMem
      rcases List.mem_map.mp hMem with ⟨tun, hTun, hSame⟩
      rcases List.mem_map.mp hTun with ⟨ssh, hListed, rfl⟩
      have hNone := List.find?_eq_none.mp hFind ssh hListed
      exact hNone (decide_eq_true (hSame.trans hText))

------------------------------------------------------------
-- Rules
------------------------------------------------------------

/- An instance is found by its name. -/
theorem Enforces.position_eq
    {load : ConfigLoad}
    {book : PolicyBook}
    (hEnforces : Enforces load book)
    {i j : Nat}
    {proxy other : ProxyConfig}
    (hProxy : load.config.proxies[i]? = some proxy)
    (hOther : load.config.proxies[j]? = some other)
    (hName : other.name.text = proxy.name.text) :
    i = j := by
  have hNamed :
      load.config.proxyNames[i]? =
        load.config.proxyNames[j]? := by
    unfold Configuration.proxyNames
    rw [List.getElem?_map, List.getElem?_map, hProxy, hOther,
      Option.map_some, Option.map_some, hName]
  have hInside : i < load.config.proxyNames.length := by
    unfold Configuration.proxyNames
    rw [List.length_map]
    exact (List.getElem?_eq_some_iff.mp hProxy).1
  exact (List.getElem?_inj hInside hEnforces.distinct).mp
    hNamed

/- The instance has one more rule, and so has its policy. -/
theorem Enforces.newRule
    {load load' : ConfigLoad}
    {book : PolicyBook}
    (hEnforces : Enforces load book)
    (hResolved : load'.Resolved)
    {ref : ProxyRef}
    {proxy : ProxyConfig}
    (hRef : load.config.proxies[ref.position]? = some proxy)
    {route : RouteRule}
    {rule : PolicyRule}
    (hRule : Implements route rule)
    (hConfig :
      load'.config =
        load.config.updateProxy
          (fun proxy =>
            { proxy with
              routeRuleList :=
                insertRouteRule
                  (load.config.proxy ref).routeRuleList
                  route })
          ref) :
    Enforces load' (book.add proxy.name.text rule) := by
  have hProxies := congrArg Configuration.proxies hConfig
  rw [proxies_updateProxy, proxy_eq_of_position hRef,
    insertRouteRule_eq] at hProxies
  have hNames :
      load'.config.proxyNames = load.config.proxyNames := by
    unfold Configuration.proxyNames
    rw [hProxies]
    apply map_modify_keeps
    exact fun _ => rfl
  have hTunnels :
      load'.config.tunnelNames = load.config.tunnelNames := by
    rw [hConfig]
    cases ref <;> rfl
  have hHere : proxy.name.text ∈ load.config.proxyNames :=
    List.mem_map_of_mem (List.mem_iff_getElem?.mpr ⟨_, hRef⟩)
  refine
    { resolved := hResolved
      distinct := hNames ▸ hEnforces.distinct
      distinctTunnels := hTunnels ▸ hEnforces.distinctTunnels
      first := ?_
      rules := ?_
      absent := ?_ }
  · rw [hConfig]
    cases ref <;> exact hEnforces.first
  · intro other hMem
    rw [hProxies] at hMem
    rcases List.mem_iff_getElem?.mp hMem with ⟨i, hOther⟩
    rw [List.getElem?_modify] at hOther
    rcases Option.map_eq_some_iff.mp hOther with
      ⟨before, hBefore, rfl⟩
    have hOld := hEnforces.rules before
      (List.mem_iff_getElem?.mpr ⟨i, hBefore⟩)
    by_cases hSame : ref.position = i
    · subst hSame
      rw [hRef, Option.some.injEq] at hBefore
      subst hBefore
      rw [if_pos rfl, PolicyBook.add_self]
      exact List.rel_append hOld (.cons hRule .nil)
    · have hNot : before.name.text ≠ proxy.name.text :=
        fun hName =>
          hSame (hEnforces.position_eq hRef hBefore hName)
      rw [if_neg hSame, PolicyBook.add_of_ne book hNot]
      exact hOld
  · intro name hAbsent
    rw [hNames] at hAbsent
    have hNot : name ≠ proxy.name.text := by
      rintro rfl
      exact hAbsent hHere
    rw [PolicyBook.add_of_ne book hNot]
    exact hEnforces.absent name hAbsent

section Lines

variable {world : ConfigWorld}
variable {filename : Text}
variable {stack : List Text}
variable {lineNum : Nat}
variable {state : ConfigState}
variable {policy : PolicyState}

/- A rule is added to the instance of the section. -/
theorem route_simulates
    {spec : Word stringBufLen}
    {rule : PolicyRule}
    (hText : spec.text = rule.text)
    (hState : Simulates state policy)
    {load : ConfigLoad}
    (hEntry :
      (Statement.route spec).entry world filename lineNum
          state.load state.current = .value load)
    (hChanges : Changes world state.load load) :
    Simulates { state with load }
      (policy.addRule (some rule)) := by
  have hResolved := hChanges.resolved hState.enforces.resolved
  have hStays := hState.inSection.grows hChanges.grows
  rcases state with ⟨current, before⟩
  rcases policy with ⟨name, book⟩
  cases hState.inSection with
  | @other current hOther =>
      cases current with
      | proxy ref => exact absurd rfl (hOther ref)
      | _ => cases hEntry
  | @proxy ref proxy hRef =>
      dsimp only [Statement.entry, addRules, loadRoute]
        at hEntry
      rw [hText] at hEntry
      have hPolicy := (parseRouteRuleSpec_policy
        (world.junk before.mallocs) (some filename) lineNum
        rule before.config.tunnels).2
      cases hParse : parseRouteRuleSpec
          (world.junk before.mallocs) rule.text
          (some filename) lineNum before.config.tunnels with
      | error failure =>
          rw [hParse] at hEntry
          cases failure <;> cases hEntry
      | ok route =>
          rw [hParse] at hEntry
          cases hEntry
          refine ⟨hStays, ?_⟩
          exact hState.enforces.newRule hResolved hRef
            (hPolicy route hParse) rfl

/- An entry of a section, which may be a rule. -/
theorem entry_simulates
    {stmt : Statement}
    {rule : Option PolicyRule}
    (hSpells : Spells stmt rule)
    (hState : Simulates state policy)
    {load : ConfigLoad}
    (hEntry :
      stmt.entry world filename lineNum state.load
          state.current = .value load)
    (hChanges : Changes world state.load load) :
    Simulates { state with load } (policy.addRule rule) := by
  cases hSpells with
  | route hText =>
      exact route_simulates hText hState hEntry hChanges
  | other hRoute hFile hDir =>
      have hSame : policy.addRule none = policy := by
        unfold PolicyState.addRule
        cases policy.current <;> rfl
      rw [hSame]
      exact ⟨hState.inSection.grows hChanges.grows,
        hState.enforces.of_outline hChanges
          (entry_outline hRoute hFile hDir hEntry)⟩

/- A file that returns has added its rules. -/
def ConfigResult.Enforcing
    (book : PolicyBook) : ConfigResult → Prop
| .returned _ load => Enforces load book
| _ => True

/- Files that may be included, and their policies. -/
def IncludesAlike
    (included : Option (Text → ConfigLoad → ConfigResult))
    (included' : Option (Text → PolicyBook → PolicyBook))
    (name : Text) : Prop :=
  Option.Rel
    (fun parse parse' => ∀ load book, Enforces load book →
      (parse name load).Enforcing (parse' name book))
    included included'

/- One statement, and what it does to the policies. -/
theorem run_simulates
    {stmt : Statement}
    {rule : Option PolicyRule}
    (hSpells : Spells stmt rule)
    {included : Option (Text → ConfigLoad → ConfigResult)}
    {included' : Option (Text → PolicyBook → PolicyBook)}
    (hIncluded : ∀ name, stmt = .includeFile name →
      IncludesAlike included included' name.text)
    (hState : Simulates state policy)
    (hChanges :
      (stmt.run world filename stack included lineNum
          state).Satisfies
        (fun state' => Changes world state.load state'.load)
        (ConfigResult.Makes world state.load)) :
    (stmt.run world filename stack included lineNum
        state).Satisfies
      (fun state' =>
        Simulates state'
          (stmt.policyRun stack included' rule policy))
      (fun result => ∀ book, result.Enforcing book) := by
  cases stmt with
  | includeFile name =>
      have hAlike := hIncluded name rfl
      dsimp only [Statement.run, Statement.policyRun,
        includeGuard] at hChanges ⊢
      by_cases hStack : name.text ∈ stack
      · rw [if_pos hStack, if_pos hStack]
        exact hState
      rw [if_neg hStack] at hChanges ⊢
      rw [if_neg hStack]
      cases hAlike with
      | none => exact hState
      | @some parse parse' hParse =>
          have hFile := hParse state.load policy.book
            hState.enforces
          dsimp only [Option.map_some] at hChanges ⊢
          cases hResult : parse name.text state.load with
          | crash => exact fun _ => trivial
          | exited => exact fun _ => trivial
          | returned okay load =>
              rw [hResult] at hChanges hFile
              exact ⟨hState.inSection.grows hChanges.grows,
                hFile⟩
  | main => exact ⟨.other nofun, hState.enforces⟩
  | logFile name =>
      rcases openLogFile_outline state.load name.text with
        ⟨hOutline, hOther⟩
      exact ⟨.other hOther,
        hState.enforces.of_outline hChanges hOutline⟩
  | proxy name =>
      exact openProxy_simulates hState.enforces name hChanges
  | ssh name =>
      exact openSsh_simulates hState.enforces name hChanges
  | _ =>
      dsimp only [Statement.run, Statement.header]
        at hChanges ⊢
      split
      · rename_i load hEntry
        rw [hEntry] at hChanges
        exact entry_simulates hSpells hState hEntry hChanges
      · exact fun _ => trivial
      · exact fun _ => trivial

end Lines

------------------------------------------------------------
-- Files
------------------------------------------------------------

section Files

variable {world : ConfigWorld}

/- One line after the other. -/
theorem foldLines_simulates
    {filename : Text}
    {stack : List Text}
    {included : Option (Text → ConfigLoad → ConfigResult)}
    {included' : Option (Text → PolicyBook → PolicyBook)}
    (hMakes :
      ∀ parse ∈ included, ∀ name load,
        (parse name load).Makes world load)
    {script : PolicyScript}
    (hIncluded : ∀ line ∈ script, ∀ name,
      line.written.stmt = .includeFile name →
        IncludesAlike included included' name.text)
    (lineNum : Nat)
    {state : ConfigState}
    {policy : PolicyState}
    (hState : Simulates state policy) :
    (foldLines
      (fun lineNum (written : WrittenStatement) state =>
        written.stmt.run world filename stack included
          lineNum state)
      (fun state => .returned true state.load)
      (script.map PolicyLine.written) lineNum
      state).Enforcing
      (script.foldl
        (fun (state : PolicyState) (line : PolicyLine) =>
          line.written.stmt.policyRun stack included'
            line.rule state)
        policy).book := by
  induction script generalizing lineNum state policy with
  | nil => exact hState.enforces
  | cons line script ih =>
      rw [List.forall_mem_cons] at hIncluded
      have hChanges := configFileLine_changes world filename
        stack hMakes lineNum
        (escapeText line.written.toLine.text) state .refl
      rw [configFileLine_statement] at hChanges
      have hStep := run_simulates line.spells hIncluded.1
        hState hChanges
      rw [List.map_cons, foldLines, List.foldl_cons]
      cases hRun : line.written.stmt.run world filename stack
          included lineNum state with
      | next state' =>
          rw [hRun] at hStep
          exact ih hIncluded.2 (lineNum + 1) hStep
      | stop result =>
          rw [hRun] at hStep
          exact hStep _

variable {policies : Text → Option PolicyScript}
variable (hFiles : ScriptFiles world (writtenScripts policies))

include hFiles

theorem configFileBody_enforces
    {filename : Text}
    (hNamed : policies filename = none →
      world.files filename = none)
    (stack : List Text)
    {included : Option (Text → ConfigLoad → ConfigResult)}
    {included' : Option (Text → PolicyBook → PolicyBook)}
    (hMakes :
      ∀ parse ∈ included, ∀ name load,
        (parse name load).Makes world load)
    (hIncluded : ∀ name,
      (policies name = none → world.files name = none) →
        IncludesAlike included included' name)
    {load : ConfigLoad}
    {book : PolicyBook}
    (hEnforces : Enforces load book) :
    (configFileBody world filename stack included
      load).Enforcing
      (policyBody policies filename stack included' book) := by
  have hWritten : writtenScripts policies filename = none →
      world.files filename = none := fun hNone =>
    hNamed (Option.map_eq_none_iff.mp hNone)
  rw [configFileBody_script hFiles hWritten stack
    (fun _ _ => rfl)]
  unfold scriptBody policyBody
  cases hScript : policies filename with
  | none =>
      have hNone : writtenScripts policies filename = none :=
        congrArg (Option.map _) hScript
      rw [hNone]
      exact hEnforces
  | some script =>
      have hSome : writtenScripts policies filename =
          some (script.map PolicyLine.written) :=
        congrArg (Option.map _) hScript
      rw [hSome]
      apply foldLines_simulates hMakes
      · intro line hLine name hName
        apply hIncluded
        intro hNone
        apply hFiles.included filename _ hSome line.written
          (List.mem_map_of_mem hLine) name hName
        exact congrArg (Option.map _) hNone
      · exact ⟨.other nofun, hEnforces⟩

/- What is loaded enforces what is written. -/
theorem configFileParse_enforces
    (room : Nat)
    (stack : List Text)
    {filename : Text}
    (hNamed : policies filename = none →
      world.files filename = none)
    {load : ConfigLoad}
    {book : PolicyBook}
    (hEnforces : Enforces load book) :
    (configFileParse world room stack filename
      load).Enforcing
      (policyParse policies room stack filename book) := by
  induction room generalizing stack filename load book with
  | zero =>
      apply configFileBody_enforces hFiles hNamed
      · intro parse hParse
        cases hParse
      · exact fun _ _ => .none
      · exact hEnforces
  | succ room ih =>
      apply configFileBody_enforces hFiles hNamed
      · intro parse hParse name load'
        cases hParse
        exact configFileParse_changes world room _ name load'
      · intro name hName
        refine .some fun load' book' hLoad' => ?_
        exact ih _ hName hLoad'
      · exact hEnforces

end Files

/- At the beginning no instance has a rule. -/
theorem enforces_init
    (junkLog : Nat → LogConfig) :
    Enforces (ConfigLoad.init junkLog) fun _ => [] where
  resolved := resolved_init junkLog
  distinct := List.nodup_singleton _
  distinctTunnels := by
    have hNames :
        (ConfigLoad.init junkLog).config.tunnelNames =
          [sshTunnelNull, sshTunnelSocksProxy,
            sshTunnelDirect].map fun tun => tun.name.text := rfl
    rw [hNames]
    decide
  first := by
    change (CBuf.copy (field "default") : CBuf 1024).text =
      kwDefault
    decide
  rules := by
    intro proxy hMem
    rcases List.mem_singleton.mp hMem with rfl
    exact .nil
  absent := fun _ _ => rfl

------------------------------------------------------------
-- Decisions
------------------------------------------------------------

/- A tunnel is found by its name when no other one has it. -/
theorem map_tunnelNamed
    {sshTunnelList tunnels : List SshTunnel}
    (hDistinct :
      (sshTunnelList.map fun tun => tun.name.text).Nodup)
    (hListed : ∀ tun ∈ tunnels, tun ∈ sshTunnelList) :
    (tunnels.map fun tun => tun.name.text).map
        (tunnelNamed sshTunnelList) =
      tunnels.map some := by
  rw [List.map_map]
  apply List.map_congr_left
  intro tun hTun
  dsimp only [Function.comp_apply, tunnelNamed]
  cases hFind : sshTunnelList.find? fun ssh =>
      decide (ssh.name.text = tun.name.text) with
  | none =>
      have hNone :=
        List.find?_eq_none.mp hFind tun (hListed tun hTun)
      exact absurd (decide_eq_true rfl) hNone
  | some found =>
      have hName := List.find?_some hFind
      have hSame : found = tun :=
        List.inj_on_of_nodup_map hDistinct
          (List.mem_of_find?_eq_some hFind)
          (hListed tun hTun) (of_decide_eq_true hName)
      rw [hSame]

/- The engine of an instance decides as its policy does. -/
theorem Enforces.decides
    {load : ConfigLoad}
    {book : PolicyBook}
    (hEnforces : Enforces load book)
    {proxy : ProxyConfig}
    (hProxy : proxy ∈ load.config.proxies)
    (con : ClientConnection)
    (dns : Resolver) :
    let found := (policyChain con.dstHost.port).run 0
      (book proxy.name.text) ⟨con.dstHost, dns⟩
    let out :=
      decideApplicableRule proxy.routeRuleList con dns
    (∀ k rule, found.1 = some (k, rule) →
      out.1 = 1 ∧
        ∃ route, out.2.1.route = some (.listed k route) ∧
          route.tunnels.map some =
            rule.via.map fun name =>
              tunnelNamed load.config.tunnels name.text) ∧
      (found.1 = none →
        out.1 = 0 ∧ out.2.1.route = some .defaultDirect) ∧
      out.2.1.dstHost = found.2.host ∧
      out.2.2 = found.2.dns := by
  intro found out
  rcases decideApplicableRule_policy
      (hEnforces.rules proxy hProxy) con dns with
    ⟨hSome, hNone, hHost, hDns⟩
  refine ⟨?_, hNone, hHost, hDns⟩
  intro k rule hFound
  rcases hSome k rule hFound with
    ⟨hRc, route, hHere, hRoute, hRule⟩
  refine ⟨hRc, route, hRoute, ?_⟩
  have hTunnels := (hEnforces.resolved.of_mem hProxy).tunnels
    route (List.mem_iff_getElem?.mpr ⟨k, hHere⟩)
  rw [← map_tunnelNamed hEnforces.distinctTunnels hTunnels,
    hRule.tunnels, List.map_map]
  rfl

/-
  Scripts that set up tunnels, proxy instances and rules, in
  any order and in files that include one another, are
  enforced.  For any destination the engine of an instance
  picks the rule that its policy picks, which leads through
  the tunnels that are configured under the names that the
  rule lists, with the destination that the policy makes of
  it.  Where the policy has no rule, the engine finds none.
-/
theorem configured_policy
    {world : ConfigWorld}
    {policies : Text → Option PolicyScript}
    (hFiles : ScriptFiles world (writtenScripts policies))
    (room : Nat)
    {filename : Text}
    (hNamed : policies filename = none →
      world.files filename = none)
    {okay : Bool}
    {load : ConfigLoad}
    (hParse :
      configFileParse world room [] filename
          (ConfigLoad.init world.junkLog) =
        .returned okay load)
    {proxy : ProxyConfig}
    (hProxy : proxy ∈ load.config.proxies)
    (con : ClientConnection)
    (dns : Resolver) :
    let policy := policyParse policies room [] filename
      (fun _ => []) proxy.name.text
    let found := (policyChain con.dstHost.port).run 0 policy
      ⟨con.dstHost, dns⟩
    let out :=
      decideApplicableRule proxy.routeRuleList con dns
    (∀ k rule, found.1 = some (k, rule) →
      out.1 = 1 ∧
        ∃ route, out.2.1.route = some (.listed k route) ∧
          route.tunnels.map some =
            rule.via.map fun name =>
              tunnelNamed load.config.tunnels name.text) ∧
      (found.1 = none →
        out.1 = 0 ∧ out.2.1.route = some .defaultDirect) ∧
      out.2.1.dstHost = found.2.host ∧
      out.2.2 = found.2.dns := by
  intro policy found out
  have hEnforces := configFileParse_enforces hFiles room []
    hNamed (enforces_init world.junkLog)
  rw [hParse] at hEnforces
  exact hEnforces.decides hProxy con dns

/- Statements that add rules. -/
def Statement.addsRules : Statement → Bool
| .route _ => true
| .routeFile _ => true
| .routeDir _ => true
| _ => false

/- A line that is no rule. -/
def WrittenStatement.apart
    (written : WrittenStatement)
    (hApart : written.stmt.addsRules = false) :
    PolicyLine where
  written := written
  rule := none
  spells := by
    apply Spells.other
    · intro spec hStmt
      rw [hStmt] at hApart
      cases hApart
    · intro name hStmt
      rw [hStmt] at hApart
      cases hApart
    · intro dir hStmt
      rw [hStmt] at hApart
      cases hApart

/- Connections to a port lead through a tunnel. -/
def sshRule : PolicyRule where
  terms := [.port 22]
  via := [⟨field "a", by decide, by decide, by decide,
    by decide⟩]
  distinct := by decide
  few := by decide
  nonempty := .inr (by decide)

def sshRuleLine : PolicyLine where
  written :=
    (Statement.route ⟨field "port 22 via a", by decide,
      by decide, by decide⟩).written (by decide) (by decide)
  rule := some sshRule
  spells := .route (by decide)

/- The rule is in another file than its tunnel. -/
def policyScripts
    (filename : Text) : Option PolicyScript :=
  if filename = field "config" then
    some [
      ((Statement.ssh ⟨field "a", by decide, by decide,
        by decide⟩).written
          (by decide) (by decide)).apart rfl,
      ((Statement.socksPort 1080).written
        (by decide) (by decide)).apart rfl,
      ((Statement.includeFile ⟨field "rules", by decide,
        by decide, by decide⟩).written
          (by decide) (by decide)).apart rfl]
  else if filename = field "rules" then
    some [
      ((Statement.proxy ⟨field "p", by decide, by decide,
        by decide⟩).written
          (by decide) (by decide)).apart rfl,
      sshRuleLine]
  else none

def policyWorld : ConfigWorld where
  environ := fun _ => none
  files := fun filename =>
    (writtenScripts policyScripts filename).map
      fun script => ⟨script.bytes, false⟩
  junk := fun _ => Vector.replicate _ none
  directories := fun _ => none
  junkLog := fun _ => ⟨0, none⟩

def policyLoad : ConfigLoad :=
  match configFileParse policyWorld 1 [] (field "config")
      (ConfigLoad.init policyWorld.junkLog) with
  | .returned _ load => load
  | _ => ConfigLoad.init policyWorld.junkLog

def policyProxy : ProxyConfig :=
  policyLoad.config.proxyInstanceList.headD
    policyLoad.config.proxyDefault

theorem policyScripts_files :
    ScriptFiles policyWorld (writtenScripts policyScripts) := by
  refine ⟨fun filename script hScript => ?_,
    fun filename script hScript written hMem name hName
      hNone => ?_⟩
  · exact congrArg (Option.map fun script : Script =>
      DiskFile.mk script.bytes false) hScript
  · exact congrArg (Option.map fun script : Script =>
      DiskFile.mk script.bytes false) hNone

theorem policyLoad_parsed :
    configFileParse policyWorld 1 [] (field "config")
        (ConfigLoad.init policyWorld.junkLog) =
      .returned true policyLoad := by
  decide +kernel

theorem policyProxy_mem :
    policyProxy ∈ policyLoad.config.proxies := by
  decide +kernel

theorem policyProxy_policy :
    policyParse policyScripts 1 [] (field "config")
      (fun _ => []) policyProxy.name.text = [sshRule] := by
  have hName : policyProxy.name.text = field "p" := by
    decide +kernel
  rw [hName]
  rfl

def sshConnection : ClientConnection :=
  { (default : ClientConnection) with
    dstHost := ⟨CBuf.copy (field "b"), .unspec, 22⟩ }

/- The rule that is included leads through its tunnel. -/
theorem configured_policy_ssh :
    let out := decideApplicableRule policyProxy.routeRuleList
      sshConnection default
    out.1 = 1 ∧
      ∃ route, out.2.1.route = some (.listed 0 route) ∧
        route.tunnels.map some =
          [tunnelNamed policyLoad.config.tunnels
            (field "a")] := by
  have hAdmits : sshRule.Admits sshConnection.dstHost
      sshConnection.dstHost.port := by
    intro term hMem
    rcases List.mem_singleton.mp hMem with rfl
    exact .inr (by decide)
  have hApplies :
      (policyChain sshConnection.dstHost.port).applies
        sshRule ⟨sshConnection.dstHost, default⟩ = true := by
    simpa only [policyChain, decide_eq_true_iff]
      using hAdmits
  have hFinal :
      (policyChain sshConnection.dstHost.port).final
        sshRule = true := by
    simp [policyChain, sshRule]
  have hFound :
      ((policyChain sshConnection.dstHost.port).run 0 [sshRule]
        ⟨sshConnection.dstHost, default⟩).1 =
          some (0, sshRule) := by
    rw [RuleChain.run, if_pos ⟨hApplies, hFinal⟩]
  rcases configured_policy policyScripts_files 1
    (fun hNone => absurd hNone (by decide)) policyLoad_parsed
    policyProxy_mem sshConnection default with ⟨hSome, _⟩
  rw [policyProxy_policy] at hSome
  exact hSome 0 sshRule hFound

end SmartSOCKSProxy
