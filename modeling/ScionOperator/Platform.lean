import ScionOperator.Availability
import ScionOperator.RegistrarSync

/-!
# Whether Pods Keep their Source Addresses

On OpenShift the operator looks up whether traffic of pods leaves a node with the address of the
pod (`internal/operator/controller`, `platform.go`): OVN-Kubernetes must route it through the
host, route advertisements must be enabled, and an accepted one must export the pod network. The
configuration is read from objects of other APIs, which may be absent, forbidden or unreadable.

What comes of that is true, false or unknown. Only what was read makes it false: an API that
fails makes it unknown. And an unknown platform is not told from a verified one by anything that
is persisted (`unknown_leaves_no_trace`): there is no condition for the platform, and the other
conditions ask only whether it is false. The only trace is that the reconcile is repeated every
five minutes.

## Main results

* `platform_spec`: **when the platform is found to keep the addresses, and when to lose them.**
* `unknown_leaves_no_trace`: **a reconcile on an unknown platform persists what it would persist
  on a verified one.**
-/

namespace ScionOperator.Platform

open Text Json Status

/-! ### Access to unstructured objects -/

/-- What is found at a path: a value, nothing, or something that cannot be what is looked for. -/
inductive Nested (α : Type)
  | found (a : α)
  | absent
  | invalid

/-- The value at a path (`NestedFieldNoCopy`); null on the way is nothing. -/
def nestedFieldNoCopy : Value → List Str → Nested Value
  | v, [] => .found v
  | .obj ms, f :: fs =>
      match GoMap.lastValue f ms with
      | none => .absent
      | some v => nestedFieldNoCopy v fs
  | .null, _ :: _ => .absent
  | _, _ :: _ => .invalid

/-- The Boolean at a path (`NestedBool`). -/
def nestedBoolean (obj : Value) (path : List Str) : Nested Bool :=
  match nestedFieldNoCopy obj path with
  | .found (.bool b) => .found b
  | .found _ => .invalid
  | .absent => .absent
  | .invalid => .invalid

/-- Whether a value is an object with a member that is a given string. -/
def hasField (v : Value) (key value : Str) : Bool :=
  match v with
  | .obj ms =>
      match GoMap.lastValue key ms with
      | some (.str s) => s = value
      | _ => false
  | _ => false

/-- The value that is found is the one that is found when errors are ignored. -/
theorem nestedFieldNoCopy_eq_found {v a : Value} {path : List Str} :
    nestedFieldNoCopy v path = .found a ↔ nestedField v path = some a := by
  induction path generalizing v with
  | nil => simp [nestedFieldNoCopy, nestedField]
  | cons f fs ih =>
      cases v with
      | obj ms =>
          rw [nestedFieldNoCopy, nestedField]
          cases GoMap.lastValue f ms with
          | none => simp
          | some v => exact ih
      | null | bool | num | str | arr => simp [nestedFieldNoCopy, nestedField]

/-- The switch is found to be on exactly if it is on when errors are ignored. -/
theorem nestedBoolean_eq_found_true {v : Value} {path : List Str} :
    nestedBoolean v path = .found true ↔ nestedBool v path = true := by
  rw [nestedBoolean, nestedBool]
  cases h : nestedFieldNoCopy v path with
  | found a =>
      rw [nestedFieldNoCopy_eq_found] at h
      rw [h]
      cases a <;> simp
  | absent | invalid =>
      have hnone : nestedField v path = none := by
        by_contra hsome
        obtain ⟨a, ha⟩ := Option.ne_none_iff_exists'.mp hsome
        rw [nestedFieldNoCopy_eq_found.mpr ha] at h
        cases h
      simp [hnone]

/-! ### The probe -/

/-- What the probes of the platform give. -/
structure Probes where
  /-- the network configuration of the OpenShift operator -/
  network : Except ApiError Value
  /-- the route advertisements of OVN-Kubernetes -/
  routes : Except ApiError (List Value)
  /-- the IP pools of Calico can be listed -/
  calicoPresent : Bool
  /-- the nodes of Cilium can be listed -/
  ciliumPresent : Bool

/-- The path of the kind of the default network. -/
def networkTypePath : List Str :=
  ["spec".toList, "defaultNetwork".toList, "type".toList]

/-- The path of the switch for routing through the host. -/
def routingViaHostPath : List Str :=
  ["spec".toList, "defaultNetwork".toList, "ovnKubernetesConfig".toList,
    "gatewayConfig".toList, "routingViaHost".toList]

/-- The path of the switch for route advertisements. -/
def routeAdvertisementsPath : List Str :=
  ["spec".toList, "defaultNetwork".toList, "ovnKubernetesConfig".toList,
    "routeAdvertisements".toList]

/-- A platform about which nothing was found out. -/
def platformUnverified (message : Str) : PodEgressPlatform :=
  ⟨.conditionUnknown, "PlatformUnverified".toList, message⟩

/-- A platform whose probe failed. -/
def platformDetectionFailed (err : Str) : PodEgressPlatform :=
  ⟨.conditionUnknown, "PlatformDetectionFailed".toList, err⟩

/-- A platform that does not route through the host. -/
def hostRoutingDisabled (message : Str) : PodEgressPlatform :=
  ⟨.conditionFalse, "HostRoutingDisabled".toList, message⟩

/-- A platform on which pods lose their addresses. -/
def sourcePreservationDisabled (message : Str) : PodEgressPlatform :=
  ⟨.conditionFalse, "SourcePreservationDisabled".toList, message⟩

/-- A platform that routes through the host. -/
def hostRoutingEnabled (message : Str) : PodEgressPlatform :=
  ⟨.conditionTrue, "HostRoutingEnabled".toList, message⟩

/-- A hint at what to check on other platforms. -/
def vanillaPlatformMessage (p : Probes) : Str :=
  "OpenShift OVN-Kubernetes gateway configuration is not available".toList ++
  if p.calicoPresent then
    "; Calico detected — source preservation requires prefixes ".toList ++
      ("accepted from remote ASes to be covered by a disabled IPPool with ".toList ++
        "disableBGPExport (see docs/install.md, Vanilla Kubernetes)".toList)
  else if p.ciliumPresent then
    "; Cilium detected — source preservation requires a ".toList ++
      ("masquerade exclusion (BPF ip-masq-agent nonMasqueradeCIDRs) for ".toList ++
        "prefixes accepted from remote ASes (see docs/install.md, Vanilla Kubernetes)".toList)
  else
    "; ensure the CNI excludes prefixes accepted from remote ASes ".toList ++
      "from pod-egress masquerade (see docs/install.md, Vanilla Kubernetes)".toList

/-- What the network configuration tells. -/
def classifyPodEgressPlatform (network : Value) : PodEgressPlatform :=
  if nestedString network networkTypePath ≠ "OVNKubernetes".toList then
    platformUnverified ("default network type ".toList ++
      (Sync.quoted (nestedString network networkTypePath) ++ " is not OVN-Kubernetes".toList))
  else
    match nestedBoolean network routingViaHostPath with
    | .invalid => hostRoutingDisabled "OVN-Kubernetes routingViaHost has an invalid value".toList
    | .absent | .found false =>
        hostRoutingDisabled ("OVN-Kubernetes shared-gateway mode bypasses host routes; ".toList ++
          "set spec.defaultNetwork.ovnKubernetesConfig.gatewayConfig.routingViaHost=true".toList)
    | .found true =>
        hostRoutingEnabled
          "OVN-Kubernetes routes pod egress through the node host routing table".toList

/-- Whether route advertisements are accepted, by their status or by a condition. -/
def routeAdvertisementAccepted (item : Value) : Bool :=
  nestedString item ["status".toList, "status".toList] = "Accepted".toList ||
    (nestedSlice item ["status".toList, "conditions".toList]).any fun condition =>
      hasField condition "type".toList "Accepted".toList &&
        hasField condition "status".toList "True".toList

/-- Whether route advertisements export the pods of the default network. -/
def exportsDefaultPods (item : Value) : Bool :=
  (nestedStringSlice item ["spec".toList, "advertisements".toList]).contains
      "PodNetwork".toList &&
    (nestedSlice item ["spec".toList, "networkSelectors".toList]).any fun selector =>
      hasField selector "networkSelectionType".toList "DefaultNetwork".toList

/-- Whether accepted route advertisements export the pods of the default network. -/
def hasAcceptedDefaultPodAdvertisement (items : List Value) : Bool :=
  items.any fun item => routeAdvertisementAccepted item && exportsDefaultPods item

/-- Find out whether pods keep their addresses. -/
def detectPodEgressPlatform (p : Probes) : PodEgressPlatform :=
  match p.network with
  | .error (.other err) =>
      platformDetectionFailed ("read OpenShift network operator config: ".toList ++ err)
  | .error _ => platformUnverified (vanillaPlatformMessage p)
  | .ok network =>
      let platform := classifyPodEgressPlatform network
      if platform.status ≠ .conditionTrue then platform
      else if nestedString network routeAdvertisementsPath ≠ "Enabled".toList then
        sourcePreservationDisabled
          "OVN routeAdvertisements must be Enabled to preserve pod source addresses".toList
      else
        match p.routes with
        | .error .notFound | .error .noMatch =>
            sourcePreservationDisabled "OVN RouteAdvertisements API is not available".toList
        | .error .forbidden =>
            platformUnverified "OVN RouteAdvertisements are not readable by the operator".toList
        | .error (.other err) =>
            platformDetectionFailed ("list OVN RouteAdvertisements: ".toList ++ err)
        | .ok items =>
            if hasAcceptedDefaultPodAdvertisement items then
              hostRoutingEnabled ("OVN-Kubernetes routes pod egress through the host ".toList ++
                "with pod source preservation".toList)
            else
              sourcePreservationDisabled
                "no accepted RouteAdvertisements exports PodNetwork for the default network".toList

/-! ### What the documents say -/

/-- A value stands at a path of a document: at each step there is an object with this member. -/
inductive At : Value → List Str → Value → Prop
  | here (v : Value) : At v [] v
  | member {ms : List (Str × Value)} {f : Str} {fs : List Str} {v w : Value} :
      GoMap.lastValue f ms = some v → At v fs w → At (.obj ms) (f :: fs) w

/-- Route advertisements that are accepted: by the status, or by a condition. -/
def IsAccepted (item : Value) : Prop :=
  At item ["status".toList, "status".toList] (.str "Accepted".toList) ∨
    ∃ conditions, At item ["status".toList, "conditions".toList] (.arr conditions) ∧
      ∃ condition ∈ conditions, At condition ["type".toList] (.str "Accepted".toList) ∧
        At condition ["status".toList] (.str "True".toList)

/-- Route advertisements that export the pods of the default network: pods are among what they
advertise, which is a list of strings, and one of their selectors is for the default network. -/
def ExportsPods (item : Value) : Prop :=
  (∃ advertised, At item ["spec".toList, "advertisements".toList] (.arr advertised) ∧
      .str "PodNetwork".toList ∈ advertised ∧ ∀ v ∈ advertised, ∃ text, v = .str text) ∧
    ∃ selectors, At item ["spec".toList, "networkSelectors".toList] (.arr selectors) ∧
      ∃ selector ∈ selectors,
        At selector ["networkSelectionType".toList] (.str "DefaultNetwork".toList)

/-- The default network is one of OVN-Kubernetes. -/
def IsOVN (network : Value) : Prop :=
  At network networkTypePath (.str "OVNKubernetes".toList)

/-- OVN-Kubernetes routes through the host, and route advertisements are enabled. -/
def Configured (network : Value) : Prop :=
  At network routingViaHostPath (.bool true) ∧
    At network routeAdvertisementsPath (.str "Enabled".toList)

/-- Pods were found to keep their addresses: OVN-Kubernetes is configured as it must be, and there
are accepted route advertisements that export the pods. -/
def KeepsSources (p : Probes) : Prop :=
  ∃ network items, p.network = .ok network ∧ IsOVN network ∧ Configured network ∧
    p.routes = .ok items ∧ ∃ item ∈ items, IsAccepted item ∧ ExportsPods item

/-- Pods were found to lose their addresses: OVN-Kubernetes is not configured as it must be, or
route advertisements do not exist, or none that is accepted exports the pods. -/
def LosesSources (p : Probes) : Prop :=
  ∃ network, p.network = .ok network ∧ IsOVN network ∧
    (¬ Configured network ∨ p.routes = .error .notFound ∨ p.routes = .error .noMatch ∨
      ∃ items, p.routes = .ok items ∧ ∀ item ∈ items, ¬ (IsAccepted item ∧ ExportsPods item))

section Documents

variable {v w : Value} {path : List Str}

/-- What is found at a path stands there. -/
theorem nestedField_eq_some_iff : nestedField v path = some w ↔ At v path w := by
  constructor
  · intro h
    induction path generalizing v with
    | nil =>
        obtain rfl := Option.some.inj h
        exact .here v
    | cons f fs ih =>
        cases v with
        | obj ms =>
            obtain ⟨u, hu, hrest⟩ := Option.bind_eq_some_iff.mp h
            exact .member hu (ih hrest)
        | null | bool | num | str | arr => cases h
  · intro h
    induction h with
    | here v => rfl
    | member hu _ ih =>
        rw [nestedField, hu, Option.bind_some]
        exact ih

/-- The string that is found, if it is not empty. -/
theorem nestedString_eq_iff {text : Str} (htext : text ≠ []) :
    nestedString v path = text ↔ At v path (.str text) := by
  rw [nestedString, ← nestedField_eq_some_iff]
  cases nestedField v path with
  | none => simpa using htext.symm
  | some w => cases w <;> simp [asString, htext.symm]

/-- A switch that is found to be on. -/
theorem nestedBool_eq_true_iff : nestedBool v path = true ↔ At v path (.bool true) := by
  rw [nestedBool, ← nestedField_eq_some_iff]
  cases nestedField v path with
  | none => simp
  | some w => cases w <;> simp

/-- What is found in the list at a path. -/
theorem mem_nestedSlice_iff : w ∈ nestedSlice v path ↔ ∃ l, At v path (.arr l) ∧ w ∈ l := by
  simp only [nestedSlice, ← nestedField_eq_some_iff]
  cases nestedField v path with
  | none => simp
  | some u => cases u <;> simp

/-- A list that is read as strings holds strings only. -/
theorem exists_str_of_mapM_asString {l : List Value} {texts : List Str}
    (h : l.mapM asString = some texts) : ∀ u ∈ l, ∃ t, u = .str t := by
  induction l generalizing texts with
  | nil => simp
  | cons u l ih =>
      simp only [List.mapM_cons, Option.bind_eq_bind, Option.bind_eq_some_iff] at h
      obtain ⟨t, ht, rest, hrest, -⟩ := h
      exact List.forall_mem_cons.mpr ⟨⟨t, asString_eq_some.mp ht⟩, ih hrest⟩

/-- What is found in the list of strings at a path. -/
theorem mem_nestedStringSlice_iff {text : Str} :
    text ∈ nestedStringSlice v path ↔
      ∃ l, At v path (.arr l) ∧ .str text ∈ l ∧ ∀ u ∈ l, ∃ t, u = .str t := by
  have hslice : ∀ l, At v path (.arr l) → nestedSlice v path = l := fun l h => by
    rw [nestedSlice, nestedField_eq_some_iff.mpr h]
  constructor
  · intro h
    cases htexts : (nestedSlice v path).mapM asString with
    | none =>
        rw [nestedStringSlice, htexts] at h
        cases h
    | some texts =>
        have hall := exists_str_of_mapM_asString htexts
        have hstrings : StringsAt v path := fun u hu => by
          obtain ⟨t, rfl⟩ := hall u hu
          rfl
        obtain ⟨l, hl, hmem⟩ := mem_nestedSlice_iff.mp ((mem_nestedStringSlice hstrings).mp h)
        exact ⟨l, hl, hmem, hslice l hl ▸ hall⟩
  · rintro ⟨l, hl, hmem, hall⟩
    have hstrings : StringsAt v path := fun u hu => by
      rw [hslice l hl] at hu
      obtain ⟨t, rfl⟩ := hall u hu
      rfl
    rw [mem_nestedStringSlice hstrings, hslice l hl]
    exact hmem

/-- A member that is found to be a string. -/
theorem hasField_iff {key text : Str} : hasField v key text = true ↔ At v [key] (.str text) := by
  rw [← nestedField_eq_some_iff]
  cases v with
  | obj ms =>
      rw [hasField, nestedField]
      cases GoMap.lastValue key ms with
      | none => simp
      | some u => cases u <;> simp [nestedField]
  | null | bool | num | str | arr => simp [hasField, nestedField]

/-- The code finds the route advertisements that are accepted. -/
theorem routeAdvertisementAccepted_iff :
    routeAdvertisementAccepted v = true ↔ IsAccepted v := by
  simp only [routeAdvertisementAccepted, IsAccepted, Bool.or_eq_true, decide_eq_true_eq,
    List.any_eq_true, Bool.and_eq_true, hasField_iff, mem_nestedSlice_iff,
    nestedString_eq_iff (show "Accepted".toList ≠ [] by decide)]
  refine or_congr_right ?_
  constructor
  · rintro ⟨condition, ⟨conditions, hat, hmem⟩, hfields⟩
    exact ⟨conditions, hat, condition, hmem, hfields⟩
  · rintro ⟨conditions, hat, condition, hmem, hfields⟩
    exact ⟨condition, ⟨conditions, hat, hmem⟩, hfields⟩

/-- The code finds the route advertisements that export the pods. -/
theorem exportsDefaultPods_iff : exportsDefaultPods v = true ↔ ExportsPods v := by
  simp only [exportsDefaultPods, ExportsPods, Bool.and_eq_true, List.contains_iff_mem,
    List.any_eq_true, hasField_iff, mem_nestedSlice_iff, mem_nestedStringSlice_iff]
  refine and_congr_right fun _ => ?_
  constructor
  · rintro ⟨selector, ⟨selectors, hat, hmem⟩, hfield⟩
    exact ⟨selectors, hat, selector, hmem, hfield⟩
  · rintro ⟨selectors, hat, selector, hmem, hfield⟩
    exact ⟨selector, ⟨selectors, hat, hmem⟩, hfield⟩

end Documents

/-- The code finds out whether one of the route advertisements is accepted and exports the
pods. -/
theorem hasAcceptedDefaultPodAdvertisement_iff {items : List Value} :
    hasAcceptedDefaultPodAdvertisement items = true ↔
      ∃ item ∈ items, IsAccepted item ∧ ExportsPods item := by
  simp only [hasAcceptedDefaultPodAdvertisement, List.any_eq_true, Bool.and_eq_true,
    routeAdvertisementAccepted_iff, exportsDefaultPods_iff]

/-! ### What is found out -/

/-- What the configuration tells: nothing about other networks, and otherwise whether traffic is
routed through the host. -/
theorem status_classifyPodEgressPlatform (network : Value) :
    (¬ IsOVN network ∧ (classifyPodEgressPlatform network).status = .conditionUnknown) ∨
      (IsOVN network ∧ (classifyPodEgressPlatform network).status =
        if nestedBool network routingViaHostPath then .conditionTrue else .conditionFalse) := by
  rw [classifyPodEgressPlatform, IsOVN, ← nestedString_eq_iff (by decide)]
  split_ifs with htype hhost hhost
  · exact .inl ⟨htype, rfl⟩
  · exact .inl ⟨htype, rfl⟩
  · rw [not_not] at htype
    rw [nestedBoolean_eq_found_true.mpr hhost]
    exact .inr ⟨htype, rfl⟩
  · rw [not_not] at htype
    refine .inr ⟨htype, ?_⟩
    rw [← nestedBoolean_eq_found_true] at hhost
    split
    · rfl
    · rfl
    · rfl
    · rename_i htrue
      exact absurd htrue hhost

/-- Pods do not both keep and lose their addresses. -/
theorem KeepsSources.not_losesSources {p : Probes} (h : KeepsSources p) : ¬ LosesSources p := by
  obtain ⟨network, items, hnetwork, -, hconfigured, hroutes, hexports⟩ := h
  rintro ⟨network', hnetwork', -, hloses⟩
  obtain rfl := Except.ok.inj (hnetwork.symm.trans hnetwork')
  rw [hroutes] at hloses
  rcases hloses with h | h | h | ⟨items', hitems, hnone⟩
  · exact h hconfigured
  · cases h
  · cases h
  · obtain rfl := Except.ok.inj hitems
    obtain ⟨item, hitem, hexports⟩ := hexports
    exact hnone item hitem hexports

section Neither

variable {p : Probes} {network : Value} {err : ApiError}

/-- A configuration that cannot be read tells nothing. -/
theorem neither_of_network_error (hnetwork : p.network = .error err) :
    ¬ KeepsSources p ∧ ¬ LosesSources p := by
  constructor
  · rintro ⟨network, items, hok, -⟩
    cases hnetwork.symm.trans hok
  · rintro ⟨network, hok, -⟩
    cases hnetwork.symm.trans hok

/-- Nor does one of another network. -/
theorem neither_of_not_isOVN (hnetwork : p.network = .ok network) (hovn : ¬ IsOVN network) :
    ¬ KeepsSources p ∧ ¬ LosesSources p := by
  constructor
  · rintro ⟨network', items, hok, hovn', -⟩
    obtain rfl := Except.ok.inj (hnetwork.symm.trans hok)
    exact hovn hovn'
  · rintro ⟨network', hok, hovn', -⟩
    obtain rfl := Except.ok.inj (hnetwork.symm.trans hok)
    exact hovn hovn'

/-- Nor do route advertisements that exist and cannot be read, if all is configured as it must
be. -/
theorem neither_of_routes_error (hnetwork : p.network = .ok network)
    (hconfigured : Configured network) (hroutes : p.routes = .error err)
    (hfound : err ≠ .notFound) (hmatch : err ≠ .noMatch) :
    ¬ KeepsSources p ∧ ¬ LosesSources p := by
  constructor
  · rintro ⟨network', items, -, -, -, hok, -⟩
    cases hroutes.symm.trans hok
  · rintro ⟨network', hok, -, hloses⟩
    obtain rfl := Except.ok.inj (hnetwork.symm.trans hok)
    rw [hroutes] at hloses
    rcases hloses with h | h | h | ⟨items, h, -⟩
    · exact h hconfigured
    · exact hfound (Except.error.inj h)
    · exact hmatch (Except.error.inj h)
    · cases h

end Neither

/-- The three outcomes. -/
theorem detectPodEgressPlatform_cases (p : Probes) :
    ((detectPodEgressPlatform p).status = .conditionTrue ∧ KeepsSources p) ∨
      ((detectPodEgressPlatform p).status = .conditionFalse ∧ LosesSources p) ∨
      ((detectPodEgressPlatform p).status = .conditionUnknown ∧ ¬ KeepsSources p ∧
        ¬ LosesSources p) := by
  have hadvertises : ∀ network, nestedString network routeAdvertisementsPath = "Enabled".toList ↔
      At network routeAdvertisementsPath (.str "Enabled".toList) := fun _ =>
    nestedString_eq_iff (by decide)
  rw [detectPodEgressPlatform]
  cases hnetwork : p.network with
  | error err => cases err <;> exact .inr (.inr ⟨rfl, neither_of_network_error hnetwork⟩)
  | ok network =>
      dsimp only
      rcases status_classifyPodEgressPlatform network with ⟨hovn, hunknown⟩ | ⟨hovn, hhost⟩
      · rw [hunknown, if_pos (by decide)]
        exact .inr (.inr ⟨hunknown, neither_of_not_isOVN hnetwork hovn⟩)
      · by_cases hvia : nestedBool network routingViaHostPath = true
        · rw [if_pos hvia] at hhost
          rw [hhost, if_neg (by decide)]
          split_ifs with hadvertised
          · exact .inr (.inl ⟨rfl, network, hnetwork, hovn, .inl fun h =>
              hadvertised ((hadvertises network).mpr h.2)⟩)
          · rw [not_not] at hadvertised
            have hconfigured : Configured network :=
              ⟨nestedBool_eq_true_iff.mp hvia, (hadvertises network).mp hadvertised⟩
            -- what is left depends on the route advertisements only
            cases hroutes : p.routes with
            | error err =>
                have hneither := neither_of_routes_error hnetwork hconfigured hroutes
                cases err with
                | notFound =>
                    exact .inr (.inl ⟨rfl, network, hnetwork, hovn, .inr (.inl hroutes)⟩)
                | noMatch =>
                    exact .inr (.inl ⟨rfl, network, hnetwork, hovn, .inr (.inr (.inl hroutes))⟩)
                | forbidden => exact .inr (.inr ⟨rfl, hneither (by decide) (by decide)⟩)
                | other m =>
                    exact .inr (.inr ⟨rfl, hneither (fun h => by cases h) fun h => by cases h⟩)
            | ok items =>
                dsimp only
                split_ifs with hexports
                · exact .inl ⟨rfl, network, items, hnetwork, hovn, hconfigured, hroutes,
                    hasAcceptedDefaultPodAdvertisement_iff.mp hexports⟩
                · refine .inr (.inl ⟨rfl, network, hnetwork, hovn,
                    .inr (.inr (.inr ⟨items, hroutes, fun item hitem h => hexports ?_⟩))⟩)
                  exact hasAcceptedDefaultPodAdvertisement_iff.mpr ⟨item, hitem, h⟩
        · rw [if_neg hvia] at hhost
          rw [hhost, if_pos (by decide)]
          exact .inr (.inl ⟨hhost, network, hnetwork, hovn, .inl fun h =>
            hvia (nestedBool_eq_true_iff.mpr h.1)⟩)

/-- **What the probes tell.** The platform is true exactly if the probes found that pods keep
their addresses, and false exactly if they found that pods lose them. -/
theorem platform_spec (p : Probes) :
    ((detectPodEgressPlatform p).status = .conditionTrue ↔ KeepsSources p) ∧
      ((detectPodEgressPlatform p).status = .conditionFalse ↔ LosesSources p) := by
  rcases detectPodEgressPlatform_cases p with ⟨hs, hkeeps⟩ | ⟨hs, hloses⟩ | ⟨hs, hk, hl⟩
  · exact ⟨iff_of_true hs hkeeps,
      iff_of_false (by rw [hs]; decide) hkeeps.not_losesSources⟩
  · exact ⟨iff_of_false (by rw [hs]; decide) fun h => h.not_losesSources hloses,
      iff_of_true hs hloses⟩
  · exact ⟨iff_of_false (by rw [hs]; decide) hk, iff_of_false (by rw [hs]; decide) hl⟩

/-! ### What is told about it -/

/-- What a reconcile observes, on another platform. -/
def withPlatform (o : Observed) (platform : PodEgressPlatform) : Observed :=
  { o with platform := platform }

/-- A reconcile on another platform. -/
def onPlatform (call : Call) (platform : PodEgressPlatform) : Call :=
  { call with observed := withPlatform call.observed platform }

section Stages

variable (w : World) (call : Call)

/-- A reconcile that cannot start. -/
theorem reconcile_of_not_started (h : (call.getFails || call.addFinalizerFails) = true) :
    reconcile w call = ⟨w, false, .failed⟩ := by
  rw [reconcile]
  cases hget : call.getFails with
  | true => rfl
  | false =>
      rw [hget, Bool.false_or] at h
      rw [h]
      rfl

variable (hstarts : (call.getFails || call.addFinalizerFails) = false)

include hstarts

/-- A reconcile that fails before the status is summed up. -/
theorem reconcile_of_failure {message : Str} (h : call.failure = some message) :
    reconcile w call = ⟨markApplyFailed w call message, call.write.isPersisted, .failed⟩ := by
  rw [Bool.or_eq_false_iff] at hstarts
  rw [reconcile, hstarts.1, hstarts.2, h]
  rfl

/-- A reconcile that sums up the status and is answered. -/
theorem reconcile_of_answered {w' : World} {available : Bool} (h : call.failure = none)
    (hupdate : updateStatus w call (discoverISDAS call w.status) = (w', some available)) :
    reconcile w call = ⟨w', true, call.result available⟩ := by
  rw [Bool.or_eq_false_iff] at hstarts
  rw [reconcile, hstarts.1, hstarts.2, h, hupdate]
  rfl

/-- A reconcile whose update of the status fails. -/
theorem reconcile_of_unanswered {w' : World} (h : call.failure = none)
    (hupdate : updateStatus w call (discoverISDAS call w.status) = (w', none)) :
    reconcile w call = ⟨w', !call.listPodsFails && call.write.isPersisted,
      if !call.listPodsFails && call.write = .conflict then .requeue else .failed⟩ := by
  rw [Bool.or_eq_false_iff] at hstarts
  rw [reconcile, hstarts.1, hstarts.2, h, hupdate]
  rfl

end Stages

section NotFalse

variable {platform platform' : PodEgressPlatform} (h : platform.status ≠ .conditionFalse)
  (h' : platform'.status ≠ .conditionFalse)

include h h'

/-- Whether the network is degraded does not depend on a platform that is not false. -/
theorem degradedReason_withPlatform (o : Observed) (backend : Str) :
    (withPlatform o platform).degradedReason backend =
      (withPlatform o platform').degradedReason backend := by
  simp only [Observed.degradedReason, degradedReason, withPlatform, h, h', if_false]
  rfl

/-- Nor does whether it is available. -/
theorem available_withPlatform (o : Observed) :
    (withPlatform o platform).available = (withPlatform o platform').available := by
  simp only [Observed.available, withPlatform, ne_eq, h, h', not_false_eq_true, decide_true]
  rfl

/-- Nor does the status. -/
theorem status_withPlatform (o : Observed) (generation : ℕ) (backend : Str)
    (status : NetworkStatus) :
    (withPlatform o platform).status generation backend status =
      (withPlatform o platform').status generation backend status := by
  have havailable : (withPlatform o platform).availableCond generation =
      (withPlatform o platform').availableCond generation := by
    have hfalse : ∀ {q : PodEgressPlatform}, q.status ≠ .conditionFalse →
        (withPlatform o q).availableCond generation =
          setCond generation "Available" (withPlatform o q).available "NodeAgents".toList
            o.readyMsg := fun hq => by
      rw [Observed.availableCond, if_neg]
      · rfl
      · rw [Bool.and_eq_true, decide_eq_true_eq]
        exact fun hand => hq hand.2
    rw [hfalse h, hfalse h', available_withPlatform h h' o]
  rw [Observed.status, Observed.status, degradedReason_withPlatform h h' o backend, havailable]
  rfl

/-- Nor does what an update persists and returns. -/
theorem updateStatus_onPlatform (w : World) (call : Call) (status : NetworkStatus) :
    updateStatus w (onPlatform call platform) status =
      updateStatus w (onPlatform call platform') status := by
  simp only [updateStatus, onPlatform, status_withPlatform h h', degradedReason_withPlatform h h',
    available_withPlatform h h']
  rfl

end NotFalse

/-- What is returned on an unknown platform, and on a verified one. -/
theorem result_onPlatform {unknown verified : PodEgressPlatform}
    (hunknown : unknown.status = .conditionUnknown) (hverified : verified.status = .conditionTrue)
    (call : Call) (available : Bool) :
    (onPlatform call unknown).result available =
      if (onPlatform call verified).result available = .done then .requeueAfter 300
      else (onPlatform call verified).result available := by
  simp only [Call.result, onPlatform, withPlatform, hunknown, hverified]
  cases call.observed.regFailed <;> cases available <;> decide

/-- Two reconciles leave the same, but the first is repeated where the second is done. -/
structure SameButLater (probed verified : Outcome) : Prop where
  world : probed.world = verified.world
  persisted : probed.persisted = verified.persisted
  result : probed.result = if verified.result = .done then .requeueAfter 300 else verified.result

/-- **An unknown platform leaves no trace.** If the probes found out nothing, a reconcile persists
the same status, and sets the same metric, as it would on a verified platform. It returns the
same, too, except that it is to be repeated after five minutes instead of being done. -/
theorem unknown_leaves_no_trace (p : Probes) (hkeeps : ¬ KeepsSources p)
    (hloses : ¬ LosesSources p) (w : World) (call : Call) (message : Str) :
    let probed := reconcile w (onPlatform call (detectPodEgressPlatform p))
    let verified := reconcile w (onPlatform call (hostRoutingEnabled message))
    probed.world = verified.world ∧ probed.persisted = verified.persisted ∧
      probed.result =
        if verified.result = .done then .requeueAfter 300 else verified.result := by
  have hunknown : (detectPodEgressPlatform p).status = .conditionUnknown := by
    rcases detectPodEgressPlatform_cases p with ⟨-, h⟩ | ⟨-, h⟩ | ⟨h, -, -⟩
    · exact absurd h hkeeps
    · exact absurd h hloses
    · exact h
  generalize detectPodEgressPlatform p = unknown at hunknown ⊢
  have hverified : (hostRoutingEnabled message).status = .conditionTrue := rfl
  generalize hostRoutingEnabled message = verified at hverified ⊢
  have hne : unknown.status ≠ .conditionFalse := by
    rw [hunknown]
    decide
  have hne' : verified.status ≠ .conditionFalse := by
    rw [hverified]
    decide
  have hupdate := updateStatus_onPlatform hne hne' w call (discoverISDAS call w.status)
  suffices h : SameButLater (reconcile w (onPlatform call unknown))
      (reconcile w (onPlatform call verified)) from ⟨h.world, h.persisted, h.result⟩
  -- up to the update the platform is not looked at
  cases hstarts : call.getFails || call.addFinalizerFails with
  | true =>
      have hnot : ∀ q, reconcile w (onPlatform call q) = ⟨w, false, .failed⟩ :=
        fun q => reconcile_of_not_started w (onPlatform call q) hstarts
      rw [hnot, hnot]
      exact ⟨rfl, rfl, rfl⟩
  | false =>
      cases hfailure : call.failure with
      | some m =>
          have hfails : ∀ q, reconcile w (onPlatform call q) =
              ⟨markApplyFailed w call m, call.write.isPersisted, .failed⟩ :=
            fun q => reconcile_of_failure w (onPlatform call q) hstarts hfailure
          rw [hfails, hfails]
          exact ⟨rfl, rfl, rfl⟩
      | none =>
          rcases hv : updateStatus w (onPlatform call verified) (discoverISDAS call w.status) with
            ⟨w', _ | available⟩
          · rw [reconcile_of_unanswered w (onPlatform call unknown) hstarts hfailure
                (hupdate.trans hv),
              reconcile_of_unanswered w (onPlatform call verified) hstarts hfailure hv]
            have hnotDone : ∀ b : Bool, (if b then Result.requeue else .failed) ≠ .done := by
              decide
            exact ⟨rfl, rfl, (if_neg (hnotDone _)).symm⟩
          · rw [reconcile_of_answered w (onPlatform call unknown) hstarts hfailure
                (hupdate.trans hv),
              reconcile_of_answered w (onPlatform call verified) hstarts hfailure hv]
            exact ⟨rfl, rfl, result_onPlatform hunknown hverified call available⟩

/-- On another Kubernetes, with a ready agent on each of two nodes: the status and the metric are as
on a verified platform, and the reconcile asks to be repeated. -/
theorem unknown_leaves_no_trace_of_vanilla :
    let call := callWithAgents [readyAgent "worker-1", readyAgent "worker-2"]
    let unknown := reconcile ⟨emptyStatus, 0⟩ (onPlatform call
      (detectPodEgressPlatform ⟨.error .noMatch, .error .noMatch, true, false⟩))
    unknown.world = (reconcile ⟨emptyStatus, 0⟩ (onPlatform call (hostRoutingEnabled []))).world ∧
      unknown.world.status.nodes.ready = 2 ∧ unknown.result = .requeueAfter 300 := by
  intro call unknown
  have hkeeps : ¬ KeepsSources ⟨.error .noMatch, .error .noMatch, true, false⟩ := by
    rintro ⟨network, items, h, -⟩
    cases h
  have hloses : ¬ LosesSources ⟨.error .noMatch, .error .noMatch, true, false⟩ := by
    rintro ⟨network, h, -⟩
    cases h
  obtain ⟨hworld, -, hresult⟩ :=
    unknown_leaves_no_trace _ hkeeps hloses ⟨emptyStatus, 0⟩ call []
  exact ⟨hworld, by decide +kernel, hresult.trans (by decide +kernel)⟩

end ScionOperator.Platform
