import ScionOperator.StatusUpdate
import ScionOperator.Transition

/-!
# The Certificate of the Metrics Endpoint

On clusters other than OpenShift the operator issues the serving certificate of the agents'
metrics itself (`internal/operator/controller`, `metrics_tls.go`). It keeps the certificate with
its key and its CA in a Secret and publishes the CA in a ConfigMap, for scrapers to pin. A call
looks at the Secret only: if the certificate in it is good for another thirty days, nothing is
done. So a ConfigMap that could not be written after the Secret was is not written by the
following calls either, until the certificate is renewed (`unpublished_until_renewal`). And a
call that fails to read the Secret issues a certificate all the same, so that a usable one of
another issuer may be overwritten (`usable_secret_replaced`).

Certificates are an interface here: what is parsed of a byte string, and what is generated. Reads
may come from a cache that lacks the last versions of an object; a write after such a read is
refused.

## Main results

* `ensureMetricsTLS_cases`: what one call does to the two objects.
* `matched_step`: a call that writes both objects, or none, keeps them matching.
* `published_of_run`: **after a call that returns nil the published CA is the one in the
  Secret**, if no call wrote the Secret alone.
* `secret_kept_iff`: **a usable certificate is kept** exactly if the call reads it, or cannot
  write.
-/

namespace ScionOperator.MetricsTLS

open Text Status

/-! ### Certificates -/

/-- What is read of a certificate. -/
structure Certificate where
  notAfter : ℤ
  dnsNames : List Str
  deriving DecidableEq

/-- How long a certificate is valid: 365 days, in nanoseconds. -/
def metricsCertValidity : ℤ :=
  365 * 24 * 3600 * 1000000000

/-- How long before it expires a certificate is renewed: 30 days. -/
def metricsCertRenewBefore : ℤ :=
  30 * 24 * 3600 * 1000000000

/-- The name of the metrics Service in the cluster. -/
def metricsServiceName : Str :=
  "scion-node-agent-metrics.scion-system.svc".toList

/-- The names a scraper may know the Service by. -/
def metricsServiceDNS : List Str :=
  [metricsServiceName, "scion-node-agent-metrics.scion-system.svc.cluster.local".toList]

/-- The data of the Secret, and what a generation yields. -/
structure KeyPair (β : Type) where
  tlsCrt : β
  tlsKey : β
  caCrt : β
  deriving DecidableEq

/-- Certificates as byte strings: `x509.ParseCertificate` on a PEM block, `VerifyHostname`, and
`generateMetricsCert`, which may fail. Nothing is assumed about what is generated. -/
structure Pki (β : Type) where
  parse : β → Option Certificate
  verifyHostname : Certificate → Str → Bool
  /-- what is generated at a time, by the randomness that is used -/
  generate : ℤ → ℕ → Option (KeyPair β)

variable {β : Type} (pki : Pki β)

/-- Whether a stored certificate covers the name of the Service and does not expire soon. -/
def metricsCertUsable (now : ℤ) (crt : β) : Bool :=
  match pki.parse crt with
  | none => false
  | some cert =>
      if now + metricsCertRenewBefore > cert.notAfter then false
      else pki.verifyHostname cert metricsServiceName

/-! ### Calls -/

/-- How creating or updating an object goes. -/
structure Apply where
  /-- how many of the last versions the cache lacks -/
  behind : ℕ
  getFails : Bool
  /-- the object has another controller -/
  ownerFails : Bool
  write : Write

/-- Whether a version gets written: the object is read, the version that was read is the
current one, and the API server persists the write. -/
def Apply.persists {α : Type} (a : Apply) (versions : List α) : Bool :=
  !a.getFails && !a.ownerFails && (versions.drop a.behind).length = versions.length &&
    a.write.isPersisted

/-- Create or update an object; its versions, the last one first, and whether that succeeded.
What is written is new, so that there is always something to update. -/
def applyObject {α : Type} (a : Apply) (data : α) (versions : List α) : List α × Bool :=
  if a.persists versions then (data :: versions, a.write = .persisted) else (versions, false)

/-- One call. -/
structure Call where
  now : ℤ
  seed : ℕ
  getFails : Bool
  /-- how many of the last versions of the Secret the cache lacks -/
  behind : ℕ
  secret : Apply
  configMap : Apply

/-- The versions of the two objects, the last one first. -/
structure Objects (β : Type) where
  secrets : List (KeyPair β)
  configMaps : List β

/-- Why a call failed. -/
inductive EnsureError
  /-- generate metrics serving certificate -/
  | generate
  /-- apply metrics TLS secret -/
  | applySecret
  /-- apply metrics CA configmap -/
  | applyConfigMap
  deriving DecidableEq

/-- The Secret as a call reads it. -/
def Call.read (c : Call) (o : Objects β) : Option (KeyPair β) :=
  if c.getFails then none else (o.secrets.drop c.behind).head?

/-- Provide the serving certificate of the metrics; the error that is returned, or nil. -/
def ensureMetricsTLS (c : Call) (o : Objects β) : Objects β × Option EnsureError :=
  if (c.read o).any fun pair => metricsCertUsable pki c.now pair.tlsCrt then (o, none)
  else
    match pki.generate c.now c.seed with
    | none => (o, some .generate)
    | some pair =>
        match applyObject c.secret pair o.secrets with
        | (secrets, false) => ({ o with secrets := secrets }, some .applySecret)
        | (secrets, true) =>
            match applyObject c.configMap pair.caCrt o.configMaps with
            | (configMaps, false) => (⟨secrets, configMaps⟩, some .applyConfigMap)
            | (configMaps, true) => (⟨secrets, configMaps⟩, none)

/-- The objects, and whether the last call returned nil. -/
structure State (β : Type) where
  objects : Objects β
  returnedNil : Bool

/-- Neither object exists. -/
def State.initial : State β :=
  ⟨⟨[], []⟩, false⟩

/-- One step is one call. -/
def step (s : State β) (c : Call) : Option (State β) :=
  let result := ensureMetricsTLS pki c s.objects
  some ⟨result.1, result.2.isNone⟩

/-! ### What is published -/

/-- The CA in the Secret is published: both objects exist, with the same CA. -/
def Objects.Published (o : Objects β) : Prop :=
  ∃ pair, o.secrets.head? = some pair ∧ o.configMaps.head? = some pair.caCrt

/-- A call gets as far as writing: it reads no usable certificate, and one is generated. -/
def Call.issues (c : Call) (o : Objects β) : Bool :=
  !((c.read o).any fun pair => metricsCertUsable pki c.now pair.tlsCrt) &&
    (pki.generate c.now c.seed).isSome

/-- The Secret is not written alone: if a call gets as far as writing it and it is written, the
answer to that is not lost and the ConfigMap is written as well. -/
def Together (s : State β) (c : Call) : Prop :=
  c.issues pki s.objects = true → c.secret.persists s.objects.secrets = true →
    c.secret.write = .persisted ∧ c.configMap.persists s.objects.configMaps = true

instance (s : State β) (c : Call) : Decidable (Together pki s c) :=
  inferInstanceAs (Decidable (_ → _))

/-- A Secret is there only with its CA published, and after a call that returned nil it is. -/
structure State.Matched (s : State β) : Prop where
  published : s.objects.secrets ≠ [] → s.objects.Published
  exists_of_nil : s.returnedNil = true → s.objects.secrets ≠ []

variable {pki}

/-- A Secret that is read exists. -/
theorem secrets_ne_nil_of_read {c : Call} {o : Objects β} {pair : KeyPair β}
    (h : c.read o = some pair) : o.secrets ≠ [] := by
  rw [Call.read] at h
  split_ifs at h
  intro hnil
  rw [hnil, List.drop_nil] at h
  cases h

/-- **What one call does.** It leaves both objects as they are, and returns nil only if there is
a Secret; or it gets as far as writing and writes the Secret, and the ConfigMap unless the answer
to that is lost or the ConfigMap is not persisted. -/
theorem ensureMetricsTLS_cases (pki : Pki β) (c : Call) (o : Objects β) :
    ((ensureMetricsTLS pki c o).1 = o ∧
        ((ensureMetricsTLS pki c o).2 = none → o.secrets ≠ [])) ∨
      ∃ pair, c.issues pki o = true ∧ c.secret.persists o.secrets = true ∧
        (ensureMetricsTLS pki c o).1.secrets = pair :: o.secrets ∧
        (c.secret.write = .persisted → c.configMap.persists o.configMaps = true →
          (ensureMetricsTLS pki c o).1.configMaps = pair.caCrt :: o.configMaps) := by
  rw [ensureMetricsTLS]
  split_ifs with husable
  · refine .inl ⟨rfl, fun _ => ?_⟩
    cases hread : c.read o with
    | none =>
        rw [hread] at husable
        cases husable
    | some pair => exact secrets_ne_nil_of_read hread
  · cases hgenerate : pki.generate c.now c.seed with
    | none => exact .inl ⟨rfl, nofun⟩
    | some pair =>
        by_cases hsecret : c.secret.persists o.secrets = true
        · have hissues : c.issues pki o = true := by simp [Call.issues, husable, hgenerate]
          refine .inr ⟨pair, hissues, hsecret, ?_⟩
          by_cases hanswered : c.secret.write = .persisted
          · simp only [applyObject, hsecret, hanswered, if_true, decide_true]
            by_cases hconfigMap : c.configMap.persists o.configMaps = true
            · by_cases hlost : c.configMap.write = .persisted <;> simp [hconfigMap, hlost]
            · simp [hconfigMap]
          · simp [applyObject, hsecret, hanswered]
        · simp [applyObject, hsecret]

/-- A call that writes both objects, or none, keeps them matching. -/
theorem matched_step (s : State β) (c : Call) (s' : State β) (h : s.Matched)
    (htogether : Together pki s c) (hstep : step pki s c = some s') : s'.Matched := by
  obtain rfl := Option.some.inj hstep
  rcases ensureMetricsTLS_cases pki c s.objects with
    ⟨hsame, hnil⟩ | ⟨pair, hissues, hsecret, hsecrets, hconfigMaps⟩
  · refine ⟨?_, fun hnone => ?_⟩
    · rw [hsame]
      exact h.published
    · rw [hsame]
      exact hnil (Option.isNone_iff_eq_none.mp hnone)
  · obtain ⟨hanswered, hconfigMap⟩ := htogether hissues hsecret
    have hwritten := hconfigMaps hanswered hconfigMap
    refine ⟨fun _ => ⟨pair, ?_, ?_⟩, fun _ => ?_⟩
    · rw [hsecrets, List.head?_cons]
    · rw [hwritten, List.head?_cons]
    · rw [hsecrets]
      exact List.cons_ne_nil _ _

/-- **The published CA.** After any calls that did not write the Secret alone, if the last one
returned nil then the ConfigMap exists and has the CA of the Secret. -/
theorem published_of_run (pki : Pki β) (calls : List Call) (s : State β)
    (hrun : Transition.run (step pki) .initial calls = some s)
    (htogether : Transition.Always (step pki) (Together pki) .initial calls)
    (hnil : s.returnedNil = true) : s.objects.Published := by
  have hinitial : (State.initial : State β).Matched := ⟨fun h => absurd rfl h, nofun⟩
  have hmatched := Transition.run_invariant matched_step hinitial htogether hrun
  exact hmatched.published (hmatched.exists_of_nil hnil)

/-! ### A ConfigMap that is missing -/

/-- **Until renewal a call does nothing.** Whatever the ConfigMap holds, calls that read a Secret
whose certificate is not to be renewed yet return nil and leave both objects as they are. -/
theorem unpublished_until_renewal {pair : KeyPair β} {s s' : State β} {calls : List Call}
    (hs : s.objects.secrets.head? = some pair)
    (hcalls : ∀ c ∈ calls, c.getFails = false ∧ c.behind = 0 ∧
      metricsCertUsable pki c.now pair.tlsCrt = true)
    (hrun : Transition.run (step pki) s calls = some s') :
    s'.objects = s.objects ∧ (calls ≠ [] → s'.returnedNil = true) := by
  induction calls generalizing s with
  | nil =>
      obtain rfl := Option.some.inj hrun
      exact ⟨rfl, fun h => absurd rfl h⟩
  | cons c calls ih =>
      obtain ⟨t, ht, hrun⟩ := Transition.run_cons_eq_some.mp hrun
      rw [List.forall_mem_cons] at hcalls
      obtain ⟨⟨hget, hbehind, husable⟩, hcalls⟩ := hcalls
      have hread : c.read s.objects = some pair := by
        rw [Call.read, hget, hbehind, if_neg Bool.false_ne_true, List.drop_zero, hs]
      have ht' : t = ⟨s.objects, true⟩ := by
        rw [step, ensureMetricsTLS, hread, Option.any_some, if_pos husable] at ht
        exact (Option.some.inj ht).symm
      subst ht'
      obtain ⟨hobjects, hnil⟩ := ih (s := ⟨s.objects, true⟩) hs hcalls hrun
      refine ⟨hobjects, fun _ => ?_⟩
      cases calls with
      | nil =>
          obtain rfl := Option.some.inj hrun
          rfl
      | cons c' calls => exact hnil (List.cons_ne_nil _ _)

/-- The time at which a certificate ends that is generated now, in whole seconds. -/
def notAfter (now : ℤ) : ℤ :=
  (now + metricsCertValidity) / 1000000000 * 1000000000

/-- Certificates as what is parsed of them, with a number. -/
def samplePki : Pki (Option Certificate × ℕ) where
  parse := Prod.fst
  verifyHostname c name := c.dnsNames.contains name
  generate now seed :=
    some ⟨(some ⟨notAfter now, metricsServiceDNS⟩, seed), (none, seed), (none, seed)⟩

/-- A call at some time in which writing the ConfigMap ends in some way. -/
def sampleCall (now : ℤ) (write : Write) : Call :=
  ⟨now, 0, false, 0, ⟨0, false, false, .persisted⟩, ⟨0, false, false, write⟩⟩

/-- A call that writes both objects, and another one. -/
theorem published_of_two_calls :
    ∃ s, Transition.run (step samplePki) .initial
        [sampleCall 0 .persisted, sampleCall 1 .persisted] = some s ∧
      s.objects.Published := by
  have hnil : (Transition.run (step samplePki) .initial
      [sampleCall 0 .persisted, sampleCall 1 .persisted]).map State.returnedNil = some true := by
    decide +kernel
  obtain ⟨s, hs, hnil⟩ := Option.map_eq_some_iff.mp hnil
  exact ⟨s, hs, published_of_run samplePki _ s hs (by decide +kernel) hnil⟩

/-- **A CA that is not published.** If the ConfigMap cannot be created after the Secret was, the
next call returns nil all the same. -/
theorem unpublished_after_failed_write :
    ∃ s, Transition.run (step samplePki) .initial
        [sampleCall 0 .failed, sampleCall 1 .persisted] = some s ∧
      s.returnedNil = true ∧ s.objects.configMaps = [] ∧ ¬ s.objects.Published := by
  have hstate : (Transition.run (step samplePki) .initial
      [sampleCall 0 .failed, sampleCall 1 .persisted]).map
        (fun s => (s.returnedNil, s.objects.configMaps)) = some (true, []) := by
    decide +kernel
  obtain ⟨s, hs, hstate⟩ := Option.map_eq_some_iff.mp hstate
  obtain ⟨hnil, hempty⟩ := Prod.mk.inj hstate
  refine ⟨s, hs, hnil, hempty, ?_⟩
  rintro ⟨pair, -, hpublished⟩
  rw [hempty] at hpublished
  cases hpublished

/-! ### A usable certificate -/

/-- The Secret that a call reads first is there, and its certificate is usable. -/
def Call.SeesUsable (pki : Pki β) (c : Call) (o : Objects β) : Prop :=
  ∃ seen, c.read o = some seen ∧ metricsCertUsable pki c.now seen.tlsCrt = true

/-- The test of a call. -/
theorem seesUsable_iff {c : Call} {o : Objects β} :
    c.SeesUsable pki o ↔
      ((c.read o).any fun pair => metricsCertUsable pki c.now pair.tlsCrt) = true := by
  rw [Call.SeesUsable, Option.any_eq_true]

/-- What becomes of the Secret: nothing if a usable certificate is seen or none is generated,
and otherwise what applying the generated one does. -/
theorem secrets_ensureMetricsTLS {c : Call} {o : Objects β} :
    (c.SeesUsable pki o ∨ pki.generate c.now c.seed = none →
      (ensureMetricsTLS pki c o).1.secrets = o.secrets) ∧
    ∀ new, ¬ c.SeesUsable pki o → pki.generate c.now c.seed = some new →
      (ensureMetricsTLS pki c o).1.secrets = (applyObject c.secret new o.secrets).1 := by
  rw [ensureMetricsTLS, seesUsable_iff]
  refine ⟨?_, fun new hnot hnew => ?_⟩
  · rintro (husable | hnone)
    · rw [if_pos husable]
    · split_ifs
      · rfl
      · rw [hnone]
  · rw [if_neg hnot, hnew]
    dsimp only
    rcases applyObject c.secret new o.secrets with ⟨secrets, _ | _⟩
    · rfl
    · rcases applyObject c.configMap new.caCrt o.configMaps with ⟨configMaps, _ | _⟩ <;> rfl

/-- The first read of a call succeeds, with the last version of the Secret, or with an earlier one
whose certificate is usable. -/
def Call.GetsUsable (pki : Pki β) (c : Call) (o : Objects β) : Prop :=
  c.getFails = false ∧ (c.behind = 0 ∨ ∃ old, (o.secrets.drop c.behind).head? = some old ∧
    metricsCertUsable pki c.now old.tlsCrt = true)

/-- If the last version is usable, it is enough that the read succeeds and is not behind. -/
theorem seesUsable_iff_getsUsable {c : Call} {o : Objects β} {stored : KeyPair β}
    (hstored : o.secrets.head? = some stored)
    (husable : metricsCertUsable pki c.now stored.tlsCrt = true) :
    c.SeesUsable pki o ↔ c.GetsUsable pki o := by
  rw [Call.SeesUsable, Call.GetsUsable, Call.read]
  cases c.getFails with
  | true => exact iff_of_false (fun ⟨_, h, _⟩ => nomatch h) fun h => nomatch h.1
  | false =>
      rw [if_neg Bool.false_ne_true, and_iff_right rfl]
      refine ⟨.inr, ?_⟩
      rintro (hbehind | h)
      · exact ⟨stored, by rw [hbehind, List.drop_zero, hstored], husable⟩
      · exact h

/-- **A usable certificate is kept.** A call leaves the data of a Secret with a usable
certificate as it is exactly if its first read gets a usable certificate, or it cannot write the
Secret, or generates nothing else. -/
theorem secret_kept_iff (pki : Pki β) (c : Call) (o : Objects β) (stored : KeyPair β)
    (hstored : o.secrets.head? = some stored)
    (husable : metricsCertUsable pki c.now stored.tlsCrt = true) :
    (ensureMetricsTLS pki c o).1.secrets.head? = some stored ↔
      c.GetsUsable pki o ∨ c.secret.persists o.secrets = false ∨
        ∀ new, pki.generate c.now c.seed = some new → new = stored := by
  rw [← seesUsable_iff_getsUsable hstored husable]
  obtain ⟨hsame, happly⟩ := @secrets_ensureMetricsTLS β pki c o
  by_cases hsees : c.SeesUsable pki o
  · rw [hsame (.inl hsees), hstored]
    exact iff_of_true rfl (.inl hsees)
  cases hgen : pki.generate c.now c.seed with
  | none =>
      rw [hsame (.inr hgen), hstored]
      exact iff_of_true rfl (.inr (.inr nofun))
  | some new =>
      rw [happly new hsees hgen, applyObject]
      by_cases hpersists : c.secret.persists o.secrets = true
      · simp [hpersists, hsees]
      · simp [hpersists, hstored]

/-- A Secret with a certificate of another issuer, for the name of the Service. -/
def serviceCASecret : KeyPair (Option Certificate × ℕ) :=
  ⟨(some ⟨metricsCertValidity, [metricsServiceName]⟩, 7), (none, 7), (none, 7)⟩

/-- The call at a time, in which the first read of the Secret fails or not. -/
def readingCall (getFails : Bool) : Call :=
  { sampleCall 0 .persisted with getFails := getFails }

/-- A call that reads the certificate keeps it. -/
theorem secret_kept_of_read :
    metricsCertUsable samplePki 0 serviceCASecret.tlsCrt = true ∧
      (ensureMetricsTLS samplePki (readingCall false) ⟨[serviceCASecret], []⟩).1.secrets.head? =
        some serviceCASecret := by
  have husable : metricsCertUsable samplePki 0 serviceCASecret.tlsCrt = true := by decide +kernel
  exact ⟨husable, (secret_kept_iff samplePki (readingCall false) ⟨[serviceCASecret], []⟩
    serviceCASecret rfl husable).mpr (.inl ⟨rfl, .inl rfl⟩)⟩

/-- **A usable certificate is replaced.** If the first read fails and the second one does not,
the certificate of another issuer is overwritten. -/
theorem usable_secret_replaced :
    metricsCertUsable samplePki 0 serviceCASecret.tlsCrt = true ∧
      (ensureMetricsTLS samplePki (readingCall true) ⟨[serviceCASecret], []⟩).2 = none ∧
      (ensureMetricsTLS samplePki (readingCall true) ⟨[serviceCASecret], []⟩).1.secrets.head? =
        samplePki.generate 0 0 ∧
      samplePki.generate 0 0 ≠ some serviceCASecret := by
  refine ⟨?_, ?_, ?_, ?_⟩ <;> decide +kernel

end ScionOperator.MetricsTLS
