import Mathlib
import UpdatePosture.Proofs.Subscription
import UpdatePosture.Report

/-!
# What a subscription is read from

Services of every name are listed in a status document, and names of all buckets are understood, but only those of the
two services that need a subscription get through. So a subscription says of each of these two what some service of
that name says in the document, and nothing else (`ReadFrom`). How often and in which order the services are listed
makes no difference, and nor do services of other names (`Change`). Main statement: `readFrom_of_ask`.
-/

namespace UpdatePosture

open Dialogue

theorem Bucket.isEsm_iff {bucket : Bucket} : bucket.isEsm ↔ bucket = .esmInfra ∨ bucket = .esmApps := by
  cases bucket <;> decide

/-! ## Equal subscriptions -/

theorem BucketSet.eq_of_mem_iff {first second : BucketSet} (h : ∀ bucket, bucket ∈ first ↔ bucket ∈ second) :
    first = second := by
  have hlists : ofList first.toList = ofList second.toList := by
    rw [ofList, ofList, mk.injEq]
    exact List.filter_congr fun bucket _ => by simp only [mem_toList, h]
  rwa [ofList_toList, ofList_toList] at hlists

namespace Subscription

theorem eq_of_mem_iff {first second : Subscription} (hattached : first.attached = second.attached)
    (henabled : ∀ service, service ∈ first.enabled ↔ service ∈ second.enabled)
    (hentitled : ∀ service, service ∈ first.entitled ↔ service ∈ second.entitled) : first = second := by
  obtain ⟨attached, enabled, entitled⟩ := first
  obtain ⟨attached', enabled', entitled'⟩ := second
  obtain rfl : attached = attached' := hattached
  obtain rfl := BucketSet.eq_of_mem_iff henabled
  obtain rfl := BucketSet.eq_of_mem_iff hentitled
  rfl

/-! ## What an update needs -/

/-- Nothing stands between the machine and an update of a service that needs a subscription exactly if the machine is
attached and the service is switched on. -/
theorem availability_eq_upgradeAvailable_iff {subscription : Subscription} {service : Bucket} (hesm : service.isEsm) :
    subscription.availability service = .upgradeAvailable ↔
      subscription.attached ∧ service ∈ subscription.enabled := by
  have hstandard : service ≠ .standardSecurity := by
    rintro rfl
    cases hesm
  unfold availability
  rw [if_neg hstandard]
  by_cases hopen : subscription.attached ∧ service ∈ subscription.enabled
  · simp [hopen]
  · rw [if_neg hopen]
    split
    · simp [hopen]
    · split <;> simp [hopen]

end Subscription

theorem Report.availability_of_mem_entries {table : OriginTable} {packages : List InstalledPackage}
    {subscription : Subscription} {entry : ReportEntry} (h : entry ∈ (build table packages subscription).entries) :
    entry.availability = subscription.availability entry.service := by
  obtain ⟨group, -, hentry⟩ := List.mem_flatMap.mp h
  obtain ⟨update, -, rfl⟩ := List.mem_map.mp hentry
  rfl

/-! ## Exact reading -/

/-- The subscription says what the document says of the two services that need a subscription. -/
structure Subscription.ReadFrom (subscription : Subscription) (document : StatusDocument) : Prop where
  attached : subscription.attached = document.attached
  entitled : ∀ bucket, bucket ∈ subscription.entitled ↔
    document.attached ∧ (bucket = .esmInfra ∨ bucket = .esmApps) ∧
      ∃ service ∈ document.services, service.name = bucket.name ∧ service.entitled = some "yes"
  enabled : ∀ bucket, bucket ∈ subscription.enabled ↔
    document.attached ∧ (bucket = .esmInfra ∨ bucket = .esmApps) ∧
      ∃ service ∈ document.services, service.name = bucket.name ∧ service.status = some "enabled"
  /-- Updates of these services are marked as open in every report. -/
  upgradeAvailable : ∀ (table : OriginTable) (packages : List InstalledPackage),
    ∀ entry ∈ (Report.build table packages subscription).entries,
      entry.service = .esmInfra ∨ entry.service = .esmApps →
        (entry.availability = .upgradeAvailable ↔
          document.attached ∧
            ∃ service ∈ document.services, service.name = entry.service.name ∧ service.status = some "enabled")

namespace StatusDocument

theorem says_isEntitled_iff {document : StatusDocument} {bucket : Bucket} :
    document.Says (·.isEntitled) bucket ↔
      ∃ service ∈ document.services, service.name = bucket.name ∧ service.entitled = some "yes" := by
  simp [Says, ListedService.isEntitled]

theorem says_isEnabled_iff {document : StatusDocument} {bucket : Bucket} :
    document.Says (·.isEnabled) bucket ↔
      ∃ service ∈ document.services, service.name = bucket.name ∧ service.status = some "enabled" := by
  simp [Says, ListedService.isEnabled]

theorem readFrom_subscription (document : StatusDocument) : document.subscription.ReadFrom document where
  attached := attached_subscription document
  entitled := fun bucket => by rw [mem_entitled_subscription, Bucket.isEsm_iff, says_isEntitled_iff]
  enabled := fun bucket => by rw [mem_enabled_subscription, Bucket.isEsm_iff, says_isEnabled_iff]
  upgradeAvailable := by
    intro table packages entry hentry hesm
    rw [Report.availability_of_mem_entries hentry,
      Subscription.availability_eq_upgradeAvailable_iff (Bucket.isEsm_iff.mpr hesm), attached_subscription,
      mem_enabled_subscription, says_isEnabled_iff]
    simp [Bucket.isEsm_iff.mpr hesm]

/-! ## Other ways to list the same services -/

/-- One change to a list of services. -/
inductive Change : List ListedService → List ListedService → Prop
  | reordered {services services' : List ListedService} : services.Perm services' → Change services services'
  | repeated {services : List ListedService} {service : ListedService} : service ∈ services →
      Change services (service :: services)
  /-- A service is added that has another name than the two that need a subscription. -/
  | added {services : List ListedService} {service : ListedService} :
      service.name ≠ Bucket.esmInfra.name → service.name ≠ Bucket.esmApps.name →
      Change services (service :: services)

/-- The documents agree on whether the machine is attached. If it is, the services of the one come from those of the
other by any number of changes, each made or undone. -/
def SaysTheSame (document document' : StatusDocument) : Prop :=
  document.attached = document'.attached ∧
    (document.attached → Relation.EqvGen Change document.services document'.services)

theorem Change.says_iff {services services' : List ListedService} (h : Change services services') {bucket : Bucket}
    (hesm : bucket.isEsm) (attached : Bool) (remark : ListedService → Bool) :
    Says ⟨attached, services⟩ remark bucket ↔ Says ⟨attached, services'⟩ remark bucket := by
  cases h with
  | reordered hperm => simp only [Says, hperm.mem_iff]
  | @repeated service hlisted =>
    simp only [Says, List.mem_cons, exists_eq_or_imp]
    exact ⟨.inr, fun hsays => hsays.elim (fun hsays => ⟨service, hlisted, hsays⟩) id⟩
  | added hinfra happs =>
    simp only [Says, List.mem_cons, exists_eq_or_imp]
    refine ⟨.inr, fun hsays => hsays.resolve_left fun ⟨hname, _⟩ => ?_⟩
    rcases Bucket.isEsm_iff.mp hesm with rfl | rfl
    · exact hinfra hname
    · exact happs hname

theorem Change.subscription_eq {services services' : List ListedService} (h : Change services services')
    (attached : Bool) :
    (StatusDocument.mk attached services).subscription = (StatusDocument.mk attached services').subscription := by
  refine Subscription.eq_of_mem_iff ?_ (fun service => ?_) (fun service => ?_)
  · rw [attached_subscription, attached_subscription]
  · rw [mem_enabled_subscription, mem_enabled_subscription]
    exact and_congr_right fun _ => and_congr_right fun hesm => h.says_iff hesm attached _
  · rw [mem_entitled_subscription, mem_entitled_subscription]
    exact and_congr_right fun _ => and_congr_right fun hesm => h.says_iff hesm attached _

theorem SaysTheSame.subscription_eq {document document' : StatusDocument} (h : document.SaysTheSame document') :
    document.subscription = document'.subscription := by
  obtain ⟨attached, services⟩ := document
  obtain ⟨attached', services'⟩ := document'
  obtain ⟨rfl, hchanges⟩ := h
  cases attached with
  | false => rfl
  | true =>
    exact Setoid.eqvGen_le (s := Setoid.ker fun services => (StatusDocument.mk true services).subscription)
      (fun _ _ hchange => hchange.subscription_eq true) (hchanges rfl)

end StatusDocument

/-! ## Asking for the subscription -/

section Ask

variable {Q : Type} {reader : StatusReader} {status : Dialogue Q String} {asked asked' : List Q} {text : String}
  {document : StatusDocument}

theorem runFrom_ask_of_reader (htext : runFrom status asked = (.ok text, asked'))
    (hread : reader text = .ok document) :
    runFrom (Subscription.ask reader status) asked = (.ok document.subscription, asked') := by
  rw [Subscription.ask, runFrom_logging, runFrom_bind, htext]
  simp only [hread]
  rfl

/-- From a document that is accepted the subscription is read exactly, and the same subscription from every document
that says the same. Nothing is assumed of the reader of documents but that it accepts this one. -/
theorem readFrom_of_ask (htext : runFrom status asked = (.ok text, asked')) (hread : reader text = .ok document) :
    runFrom (Subscription.ask reader status) asked = (.ok document.subscription, asked') ∧
      document.subscription.ReadFrom document ∧
      ∀ document', document.SaysTheSame document' → document'.subscription = document.subscription :=
  ⟨runFrom_ask_of_reader htext hread, document.readFrom_subscription,
    fun _ hsame => hsame.subscription_eq.symm⟩

end Ask

/-! ## A service that is listed twice -/

/-- Of the two mentions of one service each says one half, and a component of the archive is listed among them. -/
def scatteredStatus : String :=
  "\x7b\"attached\":true,\"services\":[" ++
    "\x7b\"name\":\"esm-infra\",\"entitled\":\"no\",\"status\":\"enabled\"\x7d," ++
    "\x7b\"name\":\"main\",\"entitled\":\"yes\",\"status\":\"enabled\"\x7d," ++
    "\x7b\"name\":\"esm-infra\",\"entitled\":\"yes\"\x7d]\x7d"

def switchedOn : ListedService := ⟨"esm-infra", some "no", some "enabled"⟩

def component : ListedService := ⟨"main", some "yes", some "enabled"⟩

def covered : ListedService := ⟨"esm-infra", some "yes", none⟩

def scattered : StatusDocument := ⟨true, [switchedOn, component, covered]⟩

/-- The component is left out, the other two have changed places, and one of them is there twice. -/
def rearranged : StatusDocument := ⟨true, [covered, covered, switchedOn]⟩

theorem plainReader_scatteredStatus : StatusDocument.plainReader scatteredStatus = .ok scattered := by
  cbv

theorem saysTheSame_rearranged : scattered.SaysTheSame rearranged := by
  refine ⟨rfl, fun _ => ?_⟩
  have hmoved : StatusDocument.Change [switchedOn, component, covered] [component, covered, switchedOn] :=
    .reordered (by decide)
  have hadded : StatusDocument.Change [covered, switchedOn] [component, covered, switchedOn] :=
    .added (by decide) (by decide)
  have hrepeated : StatusDocument.Change [covered, switchedOn] [covered, covered, switchedOn] :=
    .repeated List.mem_cons_self
  exact .trans _ _ _ (.rel _ _ hmoved) (.trans _ _ _ (.symm _ _ (.rel _ _ hadded)) (.rel _ _ hrepeated))

theorem readFrom_scattered :
    runFrom (Subscription.ask StatusDocument.plainReader (pure scatteredStatus : Dialogue Request String)) [] =
        (.ok ⟨true, .ofList [.esmInfra], .ofList [.esmInfra]⟩, []) ∧
      scattered.subscription.ReadFrom scattered ∧ rearranged.subscription = scattered.subscription := by
  obtain ⟨hask, hread, hsame⟩ :=
    readFrom_of_ask (runFrom_pure scatteredStatus ([] : List Request)) plainReader_scatteredStatus
  exact ⟨hask, hread, hsame rearranged saysTheSame_rearranged⟩

end UpdatePosture
