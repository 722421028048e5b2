import MsysHal.Python.Provider
import MsysHal.Spec.Enumeration
import MsysHal.Spec.Accepted
import MsysHal.Spec.Linux

/-!
# What a provider says of itself, and what the manager makes of it

The constructor of `ProviderService` and `HalManager._describe_candidate` check the same
texts with bounds that are written down twice. What the constructor lets through, the
manager accepts, and it ends up with the domains and the capabilities of the service.

## Key results

- `init_ready`: what the constructor makes sure of
- `init_linux`: over Linux backends it makes a service that answers for their inventories
- `describe_accepted`: the manager accepts every description whose name can be written
-/

namespace MsysHal.Provider

open Python (Value Runtime)

/-! ## The constructor -/

/-- What is known of the domains while the constructor goes through the backends. -/
structure DomainsOk (domains : List String) : Prop where
  distinct : domains.Nodup
  checked : ∀ d ∈ domains, ∀ label, domain (.str d) label = .ok d

theorem normalizedBackends_ok {rt : Runtime} {items : List BackendItem} {acc domains : List String}
    (h : normalizedBackends rt items acc = .ok domains) (hacc : DomainsOk acc) :
    DomainsOk domains ∧ domains.length ≤ acc.length + items.length ∧
      (items ≠ [] ∨ acc ≠ [] → domains ≠ []) := by
  induction items generalizing acc with
  | nil =>
    obtain rfl := Except.ok.inj h
    exact ⟨hacc, by simp, by simp⟩
  | cons item items ih =>
    rw [normalizedBackends, Except.bind_eq_ok_iff] at h
    obtain ⟨key, hkey, h⟩ := h
    rw [Except.mapError_eq_ok_iff] at hkey
    split at h
    · exact nomatch h
    · by_cases hmem : acc.contains key = true
      · rw [if_pos hmem] at h
        obtain ⟨hok, hlen, hne⟩ := ih h hacc
        have hacc' : acc ≠ [] := by
          rintro rfl
          simp at hmem
        refine ⟨hok, ?_, fun _ => hne (.inr hacc')⟩
        rw [List.length_cons]
        omega
      · rw [if_neg hmem] at h
        have hnot : key ∉ acc := by simpa using hmem
        have hok' : DomainsOk (acc ++ [key]) := by
          refine ⟨?_, ?_⟩
          · rw [List.nodup_append]
            refine ⟨hacc.distinct, List.nodup_singleton key, ?_⟩
            rintro a ha b hb rfl
            exact hnot (List.mem_singleton.mp hb ▸ ha)
          · rw [List.forall_mem_append, List.forall_mem_singleton]
            exact ⟨hacc.checked, matching_again hkey⟩
        obtain ⟨hok, hlen, hne⟩ := ih h hok'
        refine ⟨hok, ?_, fun _ => hne (.inr (by simp))⟩
        rw [List.length_append, List.length_singleton] at hlen
        rw [List.length_cons]
        omega

/-- What is known of the capabilities while the constructor goes through the declared ones. -/
structure CapabilitiesOk (domains capabilities : List String) : Prop where
  distinct : capabilities.Nodup
  checked : ∀ c ∈ capabilities, ∀ label, capability (.str c) label = .ok c
  bounded : ∀ c ∈ capabilities, ∀ label, boundedString (.str c) label 128 = .ok c
  prefixed : ∀ c ∈ capabilities, hasPrefix domains c = true

theorem normalizedCapabilities_ok {rt : Runtime} {domains : List String} {index : Nat}
    {items : List Value} {acc capabilities : List String}
    (h : normalizedCapabilities rt domains index items acc = .ok capabilities)
    (hacc : CapabilitiesOk domains acc) :
    CapabilitiesOk domains capabilities ∧ (∀ c ∈ acc, c ∈ capabilities) ∧
      ∀ c, Value.str c ∈ items → c ∈ capabilities := by
  induction items generalizing index acc with
  | nil =>
    obtain rfl := Except.ok.inj h
    exact ⟨hacc, fun _ hc => hc, fun _ hc => nomatch hc⟩
  | cons raw items ih =>
    rw [normalizedCapabilities, Except.bind_eq_ok_iff] at h
    obtain ⟨item, hitem, h⟩ := h
    rw [Except.mapError_eq_ok_iff] at hitem
    obtain ⟨rfl, -, -, -⟩ := matching_ok hitem
    split at h
    · exact nomatch h
    · next hprefix =>
      have hprefix : hasPrefix domains item = true := by simpa using hprefix
      by_cases hmem : acc.contains item = true
      -- A capability that is there already is not added again.
      · rw [if_pos hmem] at h
        obtain ⟨hok, hkeep, hall⟩ := ih h hacc
        refine ⟨hok, hkeep, fun c hc => ?_⟩
        cases List.mem_cons.mp hc with
        | inl heq =>
          rw [Value.str.injEq] at heq
          exact heq ▸ hkeep item (by simpa using hmem)
        | inr hc => exact hall c hc
      · rw [if_neg hmem] at h
        have hnot : item ∉ acc := by simpa using hmem
        -- A new one was checked and has the prefix of a domain.
        have hok' : CapabilitiesOk domains (acc ++ [item]) := by
          refine ⟨?_, ?_, ?_, ?_⟩
          · rw [List.nodup_append]
            refine ⟨hacc.distinct, List.nodup_singleton item, ?_⟩
            rintro a ha b hb rfl
            exact hnot (List.mem_singleton.mp hb ▸ ha)
          · rw [List.forall_mem_append, List.forall_mem_singleton]
            exact ⟨hacc.checked, matching_again hitem⟩
          · rw [List.forall_mem_append, List.forall_mem_singleton]
            exact ⟨hacc.bounded, matching_bounded hitem⟩
          · rw [List.forall_mem_append, List.forall_mem_singleton]
            exact ⟨hacc.prefixed, hprefix⟩
        obtain ⟨hok, hkeep, hall⟩ := ih h hok'
        refine ⟨hok, fun c hc => hkeep c (List.mem_append_left _ hc), fun c hc => ?_⟩
        cases List.mem_cons.mp hc with
        | inl heq =>
          rw [Value.str.injEq] at heq
          exact heq ▸ hkeep item (List.mem_append_right _ List.mem_cons_self)
        | inr hc => exact hall c hc

/-- A service as the constructor leaves it. -/
structure Ready (service : ProviderService) : Prop where
  domains : DomainsOk service.domains
  domains_le : service.domains.length ≤ 8
  domains_ne : service.domains ≠ []
  providerId : Plain 192 service.providerId
  component : matchesComponent service.providerId = true
  name : textOutside service.name 128 = some false
  version : ∀ label, semanticVersion (.str service.version) label = .ok service.version
  capabilities : CapabilitiesOk service.domains service.capabilities
  capabilities_le : service.capabilities.length ≤ 32
  ordered : service.capabilities.Pairwise (· ≤ ·)
  base : ∀ c ∈ baseCapabilities (sortStrings service.domains), c ∈ service.capabilities

theorem mem_sortStrings {items : List String} {s : String} : s ∈ sortStrings items ↔ s ∈ items :=
  List.mem_insertionSort _

/-- The base capabilities are declared first, whatever the caller adds. -/
theorem declaredCapabilities_base {domains : List String} {capabilities : Option Value}
    {declared : List Value} (h : declaredCapabilities domains capabilities = .ok declared) :
    ∀ c ∈ baseCapabilities (sortStrings domains), Value.str c ∈ declared := by
  have hbase :
      ∀ c ∈ baseCapabilities (sortStrings domains), Value.str c ∈ baseDeclared domains := by
    intro c hc
    obtain ⟨d, hd, hc⟩ := List.mem_flatMap.mp hc
    rw [baseDeclared, List.mem_append, List.mem_map, List.mem_map]
    cases List.mem_cons.mp hc with
    | inl heq => exact .inl ⟨d, hd, by rw [heq]⟩
    | inr hc => exact .inr ⟨d, hd, by rw [List.mem_singleton.mp hc]⟩
  unfold declaredCapabilities at h
  split at h
  · obtain rfl := Except.ok.inj h
    exact hbase
  · obtain rfl := Except.ok.inj h
    exact hbase
  · split at h
    · exact nomatch h
    · obtain rfl := Except.ok.inj h
      exact fun c hc => List.mem_append_left _ (hbase c hc)
  · exact nomatch h

theorem init_ready {rt : Runtime} {backends : List BackendItem} {providerId name version : Value}
    {capabilities : Option Value} {service : ProviderService}
    (h : ProviderService.init rt backends providerId name version capabilities = .ok service) :
    Ready service := by
  -- The checks of the constructor, in their order.
  unfold ProviderService.init at h
  split at h
  · exact nomatch h
  next hne =>
  split at h
  · exact nomatch h
  next hlen =>
  obtain ⟨domains, hdomains, h⟩ := Except.bind_eq_ok_iff.mp h
  obtain ⟨id, hid, h⟩ := Except.bind_eq_ok_iff.mp h
  obtain ⟨text, hname, h⟩ := Except.bind_eq_ok_iff.mp h
  obtain ⟨semver, hversion, h⟩ := Except.bind_eq_ok_iff.mp h
  obtain ⟨declared, hdeclared, h⟩ := Except.bind_eq_ok_iff.mp h
  obtain ⟨normalized, hnormalized, h⟩ := Except.bind_eq_ok_iff.mp h
  rw [Except.mapError_eq_ok_iff] at hid hname hversion
  split at h
  · exact nomatch h
  next hcount =>
  obtain rfl := Except.ok.inj h
  obtain ⟨hok, hle, hnonempty⟩ := normalizedBackends_ok hdomains ⟨List.nodup_nil, by simp⟩
  obtain ⟨hcaps, -, hall⟩ := normalizedCapabilities_ok hnormalized
    ⟨List.nodup_nil, by simp, by simp, by simp⟩
  obtain ⟨-, hidlen, hidnul, hcomponent⟩ := matching_ok hid
  obtain ⟨hnamed, rfl⟩ := boundedText_ok_iff.mp hname
  have hmax : backends.length ≤ 8 := not_lt.mp hlen
  rw [List.length_nil] at hle
  exact {
    domains := hok
    domains_le := by simp only; omega
    domains_ne := hnonempty (.inl (by simpa using hne))
    providerId := ⟨hidlen, hidnul⟩
    component := hcomponent
    name := hnamed
    version := matching_again hversion
    capabilities := {
      distinct := (List.perm_insertionSort _ _).nodup_iff.mpr hcaps.distinct
      checked := fun c hc => hcaps.checked c (mem_sortStrings.mp hc)
      bounded := fun c hc => hcaps.bounded c (mem_sortStrings.mp hc)
      prefixed := fun c hc => hcaps.prefixed c (mem_sortStrings.mp hc) }
    capabilities_le := by
      simp only [sortStrings, List.length_insertionSort]
      exact not_lt.mp hcount
    ordered := List.pairwise_insertionSort _ _
    base := fun c hc => mem_sortStrings.mpr (hall c (declaredCapabilities_base hdeclared c hc)) }

/-! ## The service of the Linux backends -/

/-- The item of a Linux backend. -/
def backendItem (backend : LinuxBackend) : BackendItem :=
  ⟨.str backend.domain, some (.str backend.domain)⟩

theorem normalizedBackends_linux (rt : Runtime) (backends : List LinuxBackend) (acc : List String)
    (h : (acc ++ backends.map (·.domain)).Nodup) :
    normalizedBackends rt (backends.map backendItem) acc =
      .ok (acc ++ backends.map (·.domain)) := by
  induction backends generalizing acc with
  | nil => simp [normalizedBackends]
  | cons backend backends ih =>
    have hnew : acc.contains backend.domain = false := by
      rw [List.contains_eq_mem, decide_eq_false_iff_not]
      intro hmem
      exact List.disjoint_of_nodup_append h hmem List.mem_cons_self
    have hkey : domain (.str backend.domain) "backend domain" = .ok backend.domain :=
      (request_accepted backend).1 _
    have hdomain : isText backend.domain (backendItem backend).domain = true := beq_self_eq_true _
    rw [List.map_cons, List.append_cons] at h
    have hrest := ih (acc ++ [backend.domain]) h
    rw [List.map_cons, normalizedBackends,
      show (backendItem backend).key = .str backend.domain from rfl, hkey]
    simp only [bind, Except.bind, Except.mapError, hdomain, hnew, Bool.not_true, Bool.false_eq_true,
      if_false]
    rw [hrest, List.map_cons, List.append_assoc, List.singleton_append]

theorem init_domains {rt : Runtime} {backends : List BackendItem} {providerId name version : Value}
    {capabilities : Option Value} {service : ProviderService}
    (h : ProviderService.init rt backends providerId name version capabilities = .ok service) :
    normalizedBackends rt backends [] = .ok service.domains := by
  unfold ProviderService.init at h
  split at h
  · exact nomatch h
  split at h
  · exact nomatch h
  obtain ⟨domains, hdomains, h⟩ := Except.bind_eq_ok_iff.mp h
  obtain ⟨id, -, h⟩ := Except.bind_eq_ok_iff.mp h
  obtain ⟨text, -, h⟩ := Except.bind_eq_ok_iff.mp h
  obtain ⟨semver, -, h⟩ := Except.bind_eq_ok_iff.mp h
  obtain ⟨declared, -, h⟩ := Except.bind_eq_ok_iff.mp h
  obtain ⟨normalized, -, h⟩ := Except.bind_eq_ok_iff.mp h
  split at h
  · exact nomatch h
  · obtain rfl := Except.ok.inj h
    exact hdomains

/-- A service that is constructed over Linux backends is one that answers for their inventories:
    with the same id, and for the domains that it describes. -/
theorem init_linux {rt : Runtime} {backends : List LinuxBackend} {providerId name version : Value}
    {capabilities : Option Value} {service : ProviderService}
    (hdistinct : (backends.map (·.domain)).Nodup)
    (h : ProviderService.init rt (backends.map backendItem) providerId name version capabilities =
      .ok service) :
    ∃ linux : MsysHal.ProviderService, linux.backends = backends ∧
      linux.providerId = service.providerId ∧ linux.backends.map (·.domain) = service.domains := by
  have hready := init_ready h
  have hdomains := init_domains h
  rw [normalizedBackends_linux rt backends [] hdistinct, List.nil_append] at hdomains
  exact ⟨⟨backends, service.providerId, hdistinct, hready.component, hready.providerId.1⟩, rfl, rfl,
    Except.ok.inj hdomains⟩

/-! ## The description is accepted -/

/-- The identity in a description. -/
def identity (service : ProviderService) : List (String × Value) :=
  [("id", .str service.providerId), ("name", service.name), ("version", .str service.version)]

/-- The members of a description. -/
def description (service : ProviderService) : List (String × Value) :=
  [("schema", .str providerInterface), ("provider", .object (identity service)),
    ("domains", strings (sortStrings service.domains)),
    ("capabilities", strings service.capabilities)]

variable {service : ProviderService} {text : String}

theorem Ready.plain_name (h : Ready service) (hname : service.name = .str text) :
    Plain 128 text := by
  have hbounds := h.name
  rw [hname] at hbounds
  exact (textOutside_str.mp hbounds).2

theorem Ready.plain_version (h : Ready service) : Plain 64 service.version := by
  obtain ⟨-, hlen, hnul, -⟩ := matching_ok (h.version "")
  exact ⟨hlen, hnul⟩

theorem Ready.plain_domains (h : Ready service) : ∀ d ∈ sortStrings service.domains,
    Plain 64 d := by
  intro d hd
  obtain ⟨-, hlen, hnul, -⟩ := matching_ok (h.domains.checked d (mem_sortStrings.mp hd) "")
  exact ⟨hlen, hnul⟩

theorem Ready.plain_capabilities (h : Ready service) : ∀ c ∈ service.capabilities, Plain 128 c :=
  fun c hc => (boundedString_ok (h.capabilities.bounded c hc "")).2

theorem shaped_identity (h : Ready service) (hname : service.name = .str text) :
    Shaped 1 (.object (identity service)) := by
  refine shaped_object ["id", "name", "version"] (h := 0) rfl (by decide) ?_
  simp only [identity, List.forall_mem_cons, List.not_mem_nil, false_imp_iff,
    implies_true, and_true]
  rw [hname]
  exact ⟨shaped_str h.providerId (by omega), shaped_str (h.plain_name hname) (by omega),
    shaped_str h.plain_version (by omega)⟩

theorem shaped_description (h : Ready service) (hname : service.name = .str text) :
    Shaped 2 (.object (description service)) := by
  have hinterface : Plain 64 providerInterface := ⟨by decide, by decide⟩
  have hdomains : (sortStrings service.domains).length ≤ 256 := by
    rw [sortStrings, List.length_insertionSort]
    exact h.domains_le.trans (by omega)
  refine shaped_object ["schema", "provider", "domains", "capabilities"] (h := 1) rfl (by decide) ?_
  simp only [description, List.forall_mem_cons, List.not_mem_nil, false_imp_iff, implies_true,
    and_true]
  exact ⟨(shaped_str hinterface (by omega)).mono (by omega), shaped_identity h hname,
    shaped_strings hdomains h.plain_domains (by omega),
    shaped_strings (h.capabilities_le.trans (by omega)) h.plain_capabilities (by omega)⟩

theorem size_identity (h : Ready service) (hname : service.name = .str text) :
    (Value.object (identity service)).size ≤ 2550 := by
  have hid := memberSize_str_le "id" 2 (by decide) (size_str_le h.providerId.1)
  have hsize := memberSize_str_le "name" 4 (by decide) (size_str_le (h.plain_name hname).1)
  have hversion := memberSize_str_le "version" 7 (by decide)
    (size_str_le h.plain_version.1)
  rw [Value.object, Python.size_dict]
  simp only [identity, hname, List.map_cons, List.map_nil, List.sum_cons, List.sum_nil,
    List.length_cons, List.length_nil]
  omega

theorem bounded_identity (h : Ready service) (hname : service.name = .str text) :
    Bounded 6 512 (.object (identity service)) := by
  have hshaped := shaped_identity h hname
  have hnodes : (Value.object (identity service)).nodes = 4 := by
    rw [identity, hname]
    rfl
  exact ⟨by omega, hshaped.height.trans (by omega), hshaped.wellFormed, hshaped.dumpable,
    (size_identity h hname).trans (by decide)⟩

theorem size_description (h : Ready service) (hname : service.name = .str text) :
    (Value.object (description service)).size ≤ 33000 := by
  have hlen : (sortStrings service.domains).length ≤ 8 := by
    rw [sortStrings, List.length_insertionSort]
    exact h.domains_le
  have hinterface : (Value.str providerInterface).size ≤ 6 * 64 + 2 := size_str_le (by decide)
  have hschema := memberSize_str_le "schema" 6 (by decide)
    hinterface
  have hprovider := memberSize_str_le "provider" 8 (by decide) (size_identity h hname)
  have hdomains := memberSize_str_le "domains" 7 (by decide)
    (size_strings_le hlen fun d hd => (h.plain_domains d hd).1)
  have hcapabilities := memberSize_str_le "capabilities" 12 (by decide)
    (size_strings_le h.capabilities_le fun c hc => (h.plain_capabilities c hc).1)
  rw [Value.object, Python.size_dict]
  simp only [description, List.map_cons, List.map_nil, List.sum_cons, List.sum_nil,
    List.length_cons, List.length_nil]
  omega

theorem nodes_description (h : Ready service) (hname : service.name = .str text) :
    (Value.object (description service)).nodes ≤ 48 := by
  have hdomains := h.domains_le
  have hcapabilities := h.capabilities_le
  have hlen : (sortStrings service.domains).length = service.domains.length :=
    List.length_insertionSort _ _
  simp only [Value.object, Value.nodes, Python.nodesMembers, description, identity, hname,
    List.map_cons, List.map_nil, nodes_strings, hlen]
  omega

/-- A description is far within the bounds of every check on its way. -/
theorem bounded_description (h : Ready service) (hname : service.name = .str text) :
    Bounded 6 512 (.object (description service)) := by
  have hshaped := shaped_description h hname
  have hsize := size_description h hname
  have hnodes := nodes_description h hname
  exact ⟨by omega, hshaped.height.trans (by omega), hshaped.wellFormed, hshaped.dumpable,
    hsize.trans (by decide)⟩

/-! ## The candidate -/

theorem describedDomains_checked {items : List String}
    (h : ∀ d ∈ items, domain (.str d) "provider domain" = .ok d) :
    ∃ hvalid, describedDomains items = .ok ⟨items, hvalid⟩ := by
  induction items with
  | nil => exact ⟨_, rfl⟩
  | cons item items ih =>
    obtain ⟨hvalid, hrest⟩ := ih fun d hd => h d (List.mem_cons_of_mem _ hd)
    have hitem := h item List.mem_cons_self
    refine ⟨List.forall_mem_cons.mpr ⟨domain_ok hitem, hvalid⟩, ?_⟩
    rw [describedDomains]
    split
    · next herror => exact nomatch hitem.symm.trans herror
    · next d hd =>
      obtain rfl := Except.ok.inj (hitem.symm.trans hd)
      rw [hrest]
      rfl

theorem checkedCapabilities_checked {items : List String} (index : Nat)
    (h : ∀ c ∈ items, ∀ label, capability (.str c) label = .ok c) :
    checkedCapabilities index items = .ok items := by
  induction items generalizing index with
  | nil => rfl
  | cons item items ih =>
    rw [checkedCapabilities, h item List.mem_cons_self,
      ih (index + 1) fun c hc => h c (List.mem_cons_of_mem _ hc)]
    rfl

theorem describedIdentity_checked {raw : Value} {info : List (Value × Value)} {component : String}
    (h : objectPayload raw ["id", "name", "version"] ["id", "name", "version"] "provider identity" =
      .ok info) (hid : isText component (Value.lookup "id" info) = true) :
    ∃ hplain, describedIdentity component raw = .ok ⟨info, hplain⟩ := by
  refine ⟨plain_of_isText h hid, ?_⟩
  rw [describedIdentity]
  split
  · next herror => exact nomatch h.symm.trans herror
  · next found hfound =>
    obtain rfl := Except.ok.inj (h.symm.trans hfound)
    rw [dif_pos hid]

/-- Sorted texts without a repetition are what sorting a permutation of them gives. -/
theorem sortStrings_eq {items sorted : List String} (hperm : items.Perm sorted)
    (hsorted : sorted.Pairwise (· ≤ ·)) : sortStrings items = sorted :=
  List.Perm.eq_of_pairwise' (List.pairwise_insertionSort _ _) hsorted
    ((List.perm_insertionSort _ _).trans hperm)

/-- The capabilities in a description stay as they are: the base ones are declared already. -/
theorem describedCapabilities_checked (h : Ready service) :
    describedCapabilities (some (strings service.capabilities)) (sortStrings service.domains) =
      .ok service.capabilities := by
  have hitems : stringList (strings service.capabilities) "provider capabilities" 32 128 =
      .ok service.capabilities :=
    stringList_strings h.capabilities_le h.capabilities.distinct h.capabilities.bounded
  have hperm : (service.capabilities ++ baseCapabilities (sortStrings service.domains)).dedup.Perm
      service.capabilities := by
    rw [List.perm_ext_iff_of_nodup (List.nodup_dedup _) h.capabilities.distinct]
    intro c
    rw [List.mem_dedup, List.mem_append]
    exact ⟨fun hc => hc.elim id (h.base c), .inl⟩
  have hprefixed : service.capabilities.any (fun c => !(sortStrings service.domains).any fun d =>
      (d ++ ".").toList.isPrefixOf c.toList) = false := by
    rw [List.any_eq_false]
    intro c hc
    obtain ⟨d, hd, hprefix⟩ := List.any_eq_true.mp (h.capabilities.prefixed c hc)
    rw [Bool.not_eq_true, Bool.not_eq_false', List.any_eq_true]
    exact ⟨d, mem_sortStrings.mpr hd, hprefix⟩
  have hlen := hperm.length_eq
  have hle := h.capabilities_le
  rw [strings] at hitems ⊢
  rw [describedCapabilities]
  · simp only [hitems, checkedCapabilities_checked 0 h.capabilities.checked, hprefixed, bind,
      Except.bind, Bool.false_eq_true, if_false, pure, Except.pure, hlen]
    rw [if_neg (by omega), sortStrings_eq hperm h.ordered]
  · exact fun h => nomatch h

section Lookup

theorem description_schema :
    Value.lookup "schema" ((description service).map fun m => (.str m.1, m.2)) =
    some (.str providerInterface) := by
  simp [description, Value.lookup, Value.isKey]

theorem description_provider :
    Value.lookup "provider" ((description service).map fun m => (.str m.1, m.2)) =
      some (.object (identity service)) := by
  simp [description, Value.lookup, Value.isKey]

theorem description_domains :
    Value.lookup "domains" ((description service).map fun m => (.str m.1, m.2)) =
      some (strings (sortStrings service.domains)) := by
  simp [description, Value.lookup, Value.isKey]

theorem description_capabilities :
    Value.lookup "capabilities" ((description service).map fun m => (.str m.1, m.2)) =
      some (strings service.capabilities) := by
  simp [description, Value.lookup, Value.isKey]

theorem identity_name : Value.lookup "name" ((identity service).map fun m => (.str m.1, m.2)) =
    some service.name := by
  simp [identity, Value.lookup, Value.isKey]

theorem identity_version :
    Value.lookup "version" ((identity service).map fun m => (.str m.1, m.2)) =
    some (.str service.version) := by
  simp [identity, Value.lookup, Value.isKey]

end Lookup

/-- What the manager makes of the description of a service. -/
theorem candidateOf_description (h : Ready service) (hname : service.name = .str text)
    {spec : ProviderSpec} (hspec : spec.component = service.providerId) :
    ∃ candidate, candidateOf spec ((description service).map fun m => (.str m.1, m.2)) =
      .ok candidate ∧ candidate.component = service.providerId ∧ candidate.name = text ∧
      candidate.version = service.version ∧ candidate.domains = sortStrings service.domains ∧
      candidate.capabilities = service.capabilities := by
  -- The manager checks the shape of the description and of the identity.
  have hfields : objectPayload (.dict ((description service).map fun m => (.str m.1, m.2)))
      ["schema", "provider", "domains", "capabilities"] ["schema", "provider", "domains"]
      "provider description" = .ok _ :=
    objectPayload_object ["schema", "provider", "domains", "capabilities"] rfl (by decide)
      (bounded_description h hname)
  have hidentity : objectPayload (.object (identity service)) ["id", "name", "version"]
      ["id", "name", "version"] "provider identity" = .ok _ :=
    objectPayload_object ["id", "name", "version"] rfl (by decide) (bounded_identity h hname)
  have hcomponent : isText spec.component
      (Value.lookup "id" ((identity service).map fun m => (.str m.1, m.2))) = true := by
    rw [hspec]
    exact beq_self_eq_true service.providerId
  obtain ⟨hplain, hinfo⟩ := describedIdentity_checked hidentity hcomponent
  -- The domains are sorted already, so sorting them again changes nothing.
  have hsorted : (sortStrings service.domains).Pairwise (· ≤ ·) := List.pairwise_insertionSort _ _
  have hagain := sortStrings_eq (List.Perm.refl _) hsorted
  have hdomains : stringList (strings (sortStrings service.domains)) "provider domains" 8 =
      .ok (sortStrings service.domains) := by
    apply stringList_strings
    · rw [sortStrings, List.length_insertionSort]
      exact h.domains_le
    · exact (List.perm_insertionSort _ _).nodup_iff.mpr h.domains.distinct
    · exact fun d hd => matching_bounded (h.domains.checked d (mem_sortStrings.mp hd) "")
  obtain ⟨hvalid, hdescribed⟩ := describedDomains_checked fun d hd =>
    h.domains.checked d (mem_sortStrings.mp hd) "provider domain"
  have hne : (sortStrings service.domains).isEmpty = false := by
    rw [List.isEmpty_eq_false_iff_exists_mem]
    obtain ⟨d, hd⟩ := List.exists_mem_of_ne_nil _ h.domains_ne
    exact ⟨d, mem_sortStrings.mpr hd⟩
  have hcapabilities := describedCapabilities_checked h
  have hnamed : boundedString service.name "provider name" 128 = .ok text :=
    boundedString_ok_iff.mpr ⟨hname, hname ▸ h.name⟩
  have hversion := h.version "provider version"
  rw [← hagain] at hcapabilities
  refine ⟨{
    component := spec.component
    target := "component:" ++ spec.component
    priority := spec.priority
    domains := sortStrings (sortStrings service.domains)
    name := text
    version := service.version
    capabilities := service.capabilities
    target_eq := rfl
    component_valid := spec.valid
    component_plain := hplain
    domains_valid := fun d hd => hvalid d (mem_sortStrings.mp hd) }, ?_, hspec, rfl,
    rfl, hagain, rfl⟩
  rw [candidateOf, hfields]
  simp only [bind, Except.bind, description_schema, description_provider, description_domains,
    description_capabilities, identity_name, identity_version, Option.getD_some, isText,
    beq_self_eq_true, Bool.not_true, Bool.false_eq_true, if_false, hdomains, hdescribed, hne, hinfo,
    hnamed, hversion, hcapabilities]
  rfl

/-! ## The description on its way -/

theorem returnPacket_type (id : Int) (result : Value) :
    (Server.returnPacket id result).get? "type" = some (.str "return") := rfl

theorem returnPacket_payload (id : Int) (result : Value) :
    (Server.returnPacket id result).get? "payload" = some result := rfl

theorem strictly_sorted {items : List String} (hsorted : items.Pairwise (· ≤ ·))
    (hdistinct : items.Nodup) : items.Pairwise (· < ·) := by
  have hboth := hsorted.and hdistinct
  exact hboth.imp fun hab => lt_of_le_of_ne hab.1 hab.2

/-- A payload with room for a packet around it can be sent as a result. -/
theorem returnPacket_bounded {id : Int} (hid : Python.shortInt id = true) {payload : Value}
    (hshaped : Shaped 9 payload) (hnodes : payload.nodes ≤ 2045) (hsize : payload.size ≤ 100000) :
    Bounded 10 2048 (Server.returnPacket id payload) := by
  have hpacket : Shaped 10 (Server.returnPacket id payload) := by
    refine shaped_object ["type", "id", "payload"] (h := 9) rfl (by decide) ?_
    simp only [List.forall_mem_cons, List.not_mem_nil, false_imp_iff, implies_true, and_true]
    exact ⟨⟨Nat.zero_le _, by decide, rfl⟩, ⟨Nat.zero_le _, rfl, hid⟩, hshaped⟩
  have htext := Python.utf8Len_le (Python.intText id)
  have hidText := Python.length_intText_le hid
  have hreturn : (Value.str "return").size ≤ 6 * 6 + 2 := size_str_le (by decide)
  have htype := memberSize_str_le "type" 4 (by decide) hreturn
  have hidSize : (Value.int id).size ≤ 4 * (Python.intText id).length := htext
  have hidMember := memberSize_str_le "id" 2 (by decide) hidSize
  have hmember := memberSize_str_le "payload" 7 (by decide) hsize
  refine ⟨?_, hpacket.height, hpacket.wellFormed, hpacket.dumpable, ?_⟩
  · simp only [Server.returnPacket, Value.object, List.map_cons, List.map_nil, Value.nodes,
      Python.nodesMembers]
    omega
  · rw [Server.returnPacket, Value.object, Python.size_dict]
    simp only [List.map_cons, List.map_nil, List.sum_cons, List.sum_nil, List.length_cons,
      List.length_nil]
    rw [Python.maxStrDigits] at hidText
    rw [maxHalJson]
    omega

theorem handle_describe (service : ProviderService)
    (others : String → Value → Except PyError Value) :
    service.handle others "describe" (.dict []) = .ok (.object (description service)) := by
  have hbounded : Bounded 6 512 (.object []) := ⟨by decide, by decide, rfl, rfl, by decide⟩
  have hempty : objectPayload (.object []) [] = .ok [] :=
    objectPayload_object [] rfl (by decide) hbounded
  rw [Value.object, List.map_nil] at hempty
  rw [ProviderService.handle, if_pos rfl, ProviderService.describe, hempty]
  rfl

/-! ### A name with lone surrogates -/

/-- A description has the shape of the same one with another name. -/
theorem wellFormed_description (h : Ready service) :
    (Value.object (description service)).nodes ≤ 48 ∧
    (Value.object (description service)).height ≤ 2 ∧
      wellFormed (.object (description service)) = true := by
  have hnamed : Ready { service with name := .str "x" } :=
    ⟨h.domains, h.domains_le, h.domains_ne, h.providerId, h.component, rfl, h.version,
      h.capabilities, h.capabilities_le, h.ordered, h.base⟩
  have hnodes := nodes_description hnamed rfl
  have hshaped := shaped_description hnamed rfl
  have hheight := hshaped.height
  have hwell := hshaped.wellFormed
  have hname :
      service.name.nodes = 1 ∧ service.name.height = 0 ∧ wellFormed service.name = true := by
    have hbounds := h.name
    cases hvalue : service.name with
    | str s =>
      rw [hvalue] at hbounds
      obtain ⟨-, hlen, hnul⟩ := textOutside_str.mp hbounds
      exact ⟨rfl, rfl, by rw [wellFormed, plainText, hnul, decide_eq_true (by omega)]; rfl⟩
    | lone codes =>
      rw [hvalue] at hbounds
      simp only [textOutside, Option.some.injEq, Bool.or_eq_false_iff,
        decide_eq_false_iff_not] at hbounds
      exact ⟨rfl, rfl, by rw [wellFormed, hbounds.2, decide_eq_true (by omega)]; rfl⟩
    | _ => rw [hvalue] at hbounds; cases hbounds
  simp only [Value.object, description, identity, List.map_cons, List.map_nil, Value.nodes,
    Python.nodesMembers] at hnodes ⊢
  simp only [Value.object, description, identity, List.map_cons, List.map_nil, Value.height,
    Python.heightMembers] at hheight ⊢
  simp only [Value.object, description, identity, List.map_cons, List.map_nil, wellFormed,
    wellFormedMembers] at hwell ⊢
  rw [hname.1, hname.2.1, hname.2.2]
  exact ⟨hnodes, hheight, hwell⟩

/-- A value that passes the walk but has no text. -/
theorem ensureBoundedJson_undumpable {v : Value} {maxDepth maxItems : Nat} (label : String)
    (hnodes : v.nodes ≤ maxItems) (hheight : v.height ≤ maxDepth) (hwell : wellFormed v = true)
    (hdump : v.dumpable = false) : ensureBoundedJson v label maxDepth maxItems =
      .error (.validation s!"{label} is not valid JSON") := by
  have hwalk : walk label maxDepth maxItems v 0 0 = .ok v.nodes :=
    (walk_ok_iff _ _ _ _ _ _ _).mpr ⟨by omega, by omega, by omega, hwell⟩
  rw [ensureBoundedJson, hwalk]
  simp only [bind, Except.bind, Python.dumps, hdump, Bool.false_eq_true, if_false]

/-- A name of characters: the server returns the description, and the manager accepts it. -/
private theorem describe_returned {rtManager : Runtime} (h : Ready service) {text : String}
    (hvalue : service.name = .str text) (others : String → Value → Except PyError Value)
    {message : Value} (hid : Python.shortInt (Server.requestId message) = true) {nowMs : Int}
    (hcall : Server.checkCall nowMs message = .ok ("describe", .dict [])) (server : Server)
    {spec : ProviderSpec} (hspec : spec.component = service.providerId) (operation : String) :
    ∃ reply candidate,
      Server.dispatch (service.handle others) nowMs (Server.requestId message) message server =
        ⟨server.free + 1, server.sent ++ [Server.returnPacket (Server.requestId message) reply]⟩ ∧
      (replyPayload rtManager operation
        (.response (Server.returnPacket (Server.requestId message) reply)) >>= candidateOf spec) =
        .ok candidate ∧
      candidate.component = service.providerId ∧ candidate.name = text ∧
      candidate.version = service.version ∧ candidate.domains = sortStrings service.domains ∧
      candidate.capabilities = service.capabilities ∧
      candidate.domains.Pairwise (· < ·) ∧ candidate.capabilities.Pairwise (· < ·) := by
  obtain ⟨candidate, hcandidate, hcomponent, hname, hversion, hdomains, hcapabilities⟩ :=
    candidateOf_description h hvalue hspec
  have hbounded := bounded_description h hvalue
  have hshaped := shaped_description h hvalue
  have hpayload : Bounded 8 2048 (.object (description service)) :=
    ⟨hbounded.nodes.trans (by omega), hbounded.height.trans (by omega), hbounded.wellFormed,
      hbounded.dumpable, hbounded.size⟩
  have hpacket := returnPacket_bounded hid (hshaped.mono (by omega))
    ((nodes_description h hvalue).trans (by omega)) ((size_description h hvalue).trans (by omega))
  have hresult := (ensureBoundedJson_ok_iff _ "result" _ _).mpr hpayload
  have hresponse := (ensureBoundedJson_ok_iff _ s!"{operation} response" _ _).mpr hpayload
  have hsent := (Server.send_ok_iff server _ _).mpr ⟨hpacket, rfl⟩
  rw [Value.object] at hresult hresponse
  refine ⟨.object (description service), candidate, ?_, ?_, hcomponent, hname, hversion, hdomains,
    hcapabilities, ?_, ?_⟩
  -- The component server checks the result and sends it.
  · have hchecked : Server.checkResult (.object (description service)) =
        .ok (.object (description service)) := by
      rw [Value.object, Server.checkResult, hresult]
    simp only [Server.dispatch, Server.answer, hcall, bind, Except.bind, Except.mapError,
      handle_describe, hchecked, hsent]
  -- The manager unwraps the packet and reads the description again.
  · have hunwrap : unwrap rtManager (Server.returnPacket (Server.requestId message)
        (.object (description service))) operation =
          .ok ((description service).map fun m => (.str m.1, m.2)) := by
      have htype : isText "return" (some (.str "return")) = true := by decide
      simp only [unwrap, returnPacket_type, returnPacket_payload, htype, if_true, Value.object]
      rw [hresponse]
      rfl
    rw [replyPayload, hunwrap]
    exact hcandidate
  · have hdistinct : (sortStrings service.domains).Nodup :=
      (List.perm_insertionSort _ _).nodup_iff.mpr h.domains.distinct
    rw [hdomains]
    exact strictly_sorted (List.pairwise_insertionSort _ _) hdistinct
  · rw [hcapabilities]
    exact strictly_sorted h.ordered h.capabilities.distinct

/-- A lone surrogate in the name passes `bounded_string`, but the description has no text. -/
private theorem describe_failed (h : Ready service) {codes : List Nat}
    (hvalue : service.name = .lone codes) (others : String → Value → Except PyError Value)
    {message : Value} (hid : Python.shortInt (Server.requestId message) = true) {nowMs : Int}
    (hcall : Server.checkCall nowMs message = .ok ("describe", .dict [])) (server : Server) :
    Server.dispatch (service.handle others) nowMs (Server.requestId message) message server =
      ⟨server.free + 1, server.sent ++ [Server.errorPacket (Server.requestId message)
        (.validation "result is not valid JSON")]⟩ := by
  obtain ⟨hnodes, hheight, hwell⟩ := wellFormed_description h
  have hdump : (Value.object (description service)).dumpable = false := by
    simp [Value.object, description, identity, Value.dumpable, Python.dumpableMembers, hvalue]
  have hresult : ensureBoundedJson (.object (description service)) "result" 8 2048 =
      .error (.validation "result is not valid JSON") :=
    ensureBoundedJson_undumpable "result" (hnodes.trans (by decide)) (hheight.trans (by decide))
      hwell hdump
  have hplain : PlainError (.validation ("result" ++ " is not valid JSON")) :=
    validation_plain (by decide) (by decide)
  have hfits := Server.errorFits_of_plain hplain hid
  have hsent := (Server.send_ok_iff server _ _).mpr
    ⟨(Server.errorPacket_bounded_iff hid _).mpr hfits, rfl⟩
  have hchecked : Server.checkResult (.object (description service)) =
      .error (.hal (.validation "result is not valid JSON")) := by
    rw [Value.object] at hresult ⊢
    rw [Server.checkResult, hresult]
  simp only [Server.dispatch, Server.answer, hcall, bind, Except.bind, Except.mapError,
    handle_describe, hchecked, Server.answerError]
  rw [show Server.send server (Server.errorPacket (Server.requestId message)
    (.validation "result is not valid JSON")) = _ from hsent]
  rfl

/-- Every service that can be built answers a call of `describe`. Where its name is a text of
    characters, the manager makes of the answer a candidate with its name, its version, its
    domains and its capabilities; a name with a lone surrogate turns the answer into an error. -/
theorem describe_accepted {rt rtServer rtManager : Runtime} {backends : List BackendItem}
    {providerId name version : Value} {capabilities : Option Value}
    (hinit : ProviderService.init rt backends providerId name version capabilities = .ok service)
    (others : String → Value → Except PyError Value) {data : ByteArray} {message : Value}
    (hmessage : decodePacket rtServer data = .ok message) {nowMs : Int}
    (hcall : Server.checkCall nowMs message = .ok ("describe", .dict [])) (server : Server)
    {spec : ProviderSpec} (hspec : spec.component = service.providerId) (operation : String) :
    (∃ text reply candidate, service.name = .str text ∧
      Server.dispatch (service.handle others) nowMs (Server.requestId message) message server =
        ⟨server.free + 1, server.sent ++ [Server.returnPacket (Server.requestId message) reply]⟩ ∧
      (replyPayload rtManager operation
        (.response (Server.returnPacket (Server.requestId message) reply)) >>= candidateOf spec) =
        .ok candidate ∧
      candidate.component = service.providerId ∧ candidate.name = text ∧
      candidate.version = service.version ∧ candidate.domains = sortStrings service.domains ∧
      candidate.capabilities = service.capabilities ∧
      candidate.domains.Pairwise (· < ·) ∧ candidate.capabilities.Pairwise (· < ·)) ∨
    ∃ codes, service.name = .lone codes ∧
      Server.dispatch (service.handle others) nowMs (Server.requestId message) message server =
        ⟨server.free + 1, server.sent ++ [Server.errorPacket (Server.requestId message)
          (.validation "result is not valid JSON")]⟩ := by
  -- What the constructor checked bounds every field of the description.
  have h := init_ready hinit
  have hid := Server.shortInt_requestId hmessage
  cases hvalue : service.name with
  | str text =>
    obtain ⟨reply, candidate, hreplied, haccepted⟩ :=
      describe_returned h hvalue others hid hcall server hspec operation
    exact .inl ⟨text, reply, candidate, rfl, hreplied, haccepted⟩
  | lone codes => exact .inr ⟨codes, rfl, describe_failed h hvalue others hid hcall server⟩
  | _ =>
    -- bounded_string lets nothing but a text through.
    have hbounds := h.name
    rw [hvalue] at hbounds
    cases hbounds

namespace Sample

/-- A call of `describe`. -/
def call : String := "\x7b\"type\":\"call\",\"id\":7,\"method\":\"describe\"\x7d"

/-- The constructor for one backend and a capability of its own. -/
def power : Except PyError ProviderService :=
  ProviderService.init Runtime.sample [⟨.str "power", some (.str "power")⟩]
    (.str "org.msys.hal.linux:power") (.str "Linux safe provider") (.str "0.2.20")
    (some (.list [.str "power.battery", .str "power.inventory"]))

end Sample

private theorem described_power :
    (match Sample.power, decodePacket Runtime.sample Sample.call.toUTF8 with
    | .ok service, .ok message =>
      (match Server.checkCall 0 message with
        | .ok (method, .dict []) => method == "describe"
        | _ => false) && service.providerId == "org.msys.hal.linux:power" &&
        isText "Linux safe provider" (some service.name) &&
        service.capabilities == ["power.battery", "power.inventory", "power.state.read"]
    | _, _ => false) = true := by
  decide +kernel

/-- The provider of the batteries is described with its capabilities. -/
theorem describe_accepted_power : ∃ service message reply candidate,
    Sample.power = .ok service ∧
    decodePacket Runtime.sample Sample.call.toUTF8 = .ok message ∧
    Server.dispatch (service.handle fun _ _ => .ok .null) 0 (Server.requestId message)
      message ⟨11, []⟩ = ⟨12, [Server.returnPacket (Server.requestId message) reply]⟩ ∧
    (replyPayload Runtime.sample "describe"
      (.response (Server.returnPacket (Server.requestId message) reply)) >>=
        candidateOf ⟨"org.msys.hal.linux:power", 0, by decide⟩) = .ok candidate ∧
    candidate.name = "Linux safe provider" ∧
    candidate.capabilities = ["power.battery", "power.inventory", "power.state.read"] := by
  have heval := described_power
  split at heval
  · next service message hservice hmessage =>
    simp only [Bool.and_eq_true, beq_iff_eq] at heval
    obtain ⟨⟨⟨hcall, hid⟩, hname⟩, hcapabilities⟩ := heval
    split at hcall
    · next method hmethod =>
      rw [beq_iff_eq] at hcall
      subst hcall
      have hspec : (⟨"org.msys.hal.linux:power", 0, by decide⟩ : ProviderSpec).component =
          service.providerId := hid.symm
      rcases describe_accepted hservice (fun _ _ => .ok .null) hmessage hmethod ⟨11, []⟩ hspec
        "describe" with ⟨text, reply, candidate, htext, hsent, hcandidate, -,
          hnamed, -, -, hcaps, -⟩ |
          ⟨codes, hlone, -⟩
      · rw [htext, isText, beq_iff_eq] at hname
        exact ⟨service, message, reply, candidate, hservice, hmessage, hsent, hcandidate,
          hnamed.trans hname, hcaps.trans hcapabilities⟩
      · rw [hlone] at hname
        cases hname
    · cases hcall
  · cases heval

end MsysHal.Provider
