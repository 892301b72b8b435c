import Mathlib
import UpdatePosture.Proofs.Dialogue
import UpdatePosture.Subscription.Document

/-!
# What is known of a subscription

A subscription that is read from a document names only services that need one, and none at all where the machine
is not attached. Whether a service is switched on and whether the subscription covers it are read from different
remarks, so that only the document can see to it that what is switched on is covered. Main statements:
`consistent_iff_of_ask`, and `not_consistent_uncoveredStatus` for a document that does not see to it.
-/

namespace UpdatePosture

open Dialogue

theorem Bucket.ofName?_eq_some_iff {text : String} {bucket : Bucket} :
    Bucket.ofName? text = some bucket ↔ text = bucket.name := by
  constructor
  · intro h
    unfold ofName? at h
    have hname := List.find?_some h
    exact (beq_iff_eq.mp hname).symm
  · rintro rfl
    exact ofName?_name bucket

/-! ## What a document says -/

namespace StatusDocument

/-- Of the services that are listed under the name of the bucket, the remark is true of one. -/
def Says (document : StatusDocument) (remark : ListedService → Bool) (bucket : Bucket) : Prop :=
  ∃ service ∈ document.services, service.name = bucket.name ∧ remark service

theorem mem_named {document : StatusDocument} {remark : ListedService → Bool} {bucket : Bucket} :
    bucket ∈ document.named remark ↔ document.Says remark bucket := by
  rw [named, List.mem_filterMap]
  constructor
  · rintro ⟨service, hservice, hname⟩
    obtain ⟨hlisted, hremark⟩ := List.mem_filter.mp hservice
    exact ⟨service, hlisted, Bucket.ofName?_eq_some_iff.mp hname, hremark⟩
  · rintro ⟨service, hlisted, hname, hremark⟩
    exact ⟨service, List.mem_filter.mpr ⟨hlisted, hremark⟩, Bucket.ofName?_eq_some_iff.mpr hname⟩

theorem attached_subscription (document : StatusDocument) : document.subscription.attached = document.attached := by
  cases hattached : document.attached <;>
    simp [subscription, hattached, Subscription.unattached, Subscription.ofServices]

theorem mem_enabled_subscription {document : StatusDocument} {bucket : Bucket} :
    bucket ∈ document.subscription.enabled ↔
      document.attached ∧ bucket.isEsm ∧ document.Says (·.isEnabled) bucket := by
  cases hattached : document.attached with
  | false => simp [subscription, hattached, Subscription.unattached]
  | true => simp [subscription, hattached, Subscription.ofServices, mem_named, and_comm]

theorem mem_entitled_subscription {document : StatusDocument} {bucket : Bucket} :
    bucket ∈ document.subscription.entitled ↔
      document.attached ∧ bucket.isEsm ∧ document.Says (·.isEntitled) bucket := by
  cases hattached : document.attached with
  | false => simp [subscription, hattached, Subscription.unattached]
  | true => simp [subscription, hattached, Subscription.ofServices, mem_named, and_comm]

/-- Every service that is switched on is covered, going by what is listed under its name. -/
def CoversEnabled (document : StatusDocument) : Prop :=
  ∀ bucket : Bucket, bucket.isEsm → document.Says (·.isEnabled) bucket → document.Says (·.isEntitled) bucket

end StatusDocument

/-! ## What a subscription should be like -/

namespace Subscription

/-- Services are covered before they are switched on, only services that need a subscription are covered, and
without a subscription there are none. -/
structure Consistent (subscription : Subscription) : Prop where
  enabled_entitled : ∀ service ∈ subscription.enabled, service ∈ subscription.entitled
  entitled_esm : ∀ service ∈ subscription.entitled, service.isEsm
  unattached : subscription.attached = false →
    (∀ service, service ∉ subscription.enabled) ∧ ∀ service, service ∉ subscription.entitled

/-- What is consistent about every subscription that is read. -/
structure Restricted (subscription : Subscription) : Prop where
  enabled_esm : ∀ service ∈ subscription.enabled, service.isEsm
  entitled_esm : ∀ service ∈ subscription.entitled, service.isEsm
  unattached : subscription.attached = false →
    (∀ service, service ∉ subscription.enabled) ∧ ∀ service, service ∉ subscription.entitled

end Subscription

namespace StatusDocument

theorem restricted_subscription (document : StatusDocument) : document.subscription.Restricted where
  enabled_esm := fun _ h => (mem_enabled_subscription.mp h).2.1
  entitled_esm := fun _ h => (mem_entitled_subscription.mp h).2.1
  unattached := by
    intro hunattached
    rw [attached_subscription] at hunattached
    refine ⟨fun service h => ?_, fun service h => ?_⟩
    · exact absurd (mem_enabled_subscription.mp h).1 (by simp [hunattached])
    · exact absurd (mem_entitled_subscription.mp h).1 (by simp [hunattached])

theorem consistent_subscription_iff (document : StatusDocument) :
    document.subscription.Consistent ↔ (document.attached → document.CoversEnabled) := by
  constructor
  · intro h hattached bucket hesm henabled
    have hentitled := h.enabled_entitled bucket (mem_enabled_subscription.mpr ⟨hattached, hesm, henabled⟩)
    exact (mem_entitled_subscription.mp hentitled).2.2
  · intro h
    refine ⟨fun service henabled => ?_, (restricted_subscription document).entitled_esm,
      (restricted_subscription document).unattached⟩
    obtain ⟨hattached, hesm, hsays⟩ := mem_enabled_subscription.mp henabled
    exact mem_entitled_subscription.mpr ⟨hattached, hesm, h hattached service hesm hsays⟩

end StatusDocument

/-! ## Asking for the subscription -/

section Ask

variable {Q : Type} {reader : StatusReader} {status : Dialogue Q String} {asked asked' : List Q}
  {subscription : Subscription}

theorem exists_of_runFrom_ask (h : runFrom (Subscription.ask reader status) asked = (.ok subscription, asked')) :
    ∃ text document, runFrom status asked = (.ok text, asked') ∧ reader text = .ok document ∧
      subscription = document.subscription := by
  rw [Subscription.ask, runFrom_logging] at h
  obtain ⟨text, between, htext, h⟩ := exists_of_runFrom_bind h
  cases hread : reader text with
  | error reason =>
    rw [hread] at h
    cases h
  | ok document =>
    rw [hread] at h
    cases h
    exact ⟨text, document, htext, hread, rfl⟩

/-- Whatever is read of a subscription is about services that need one, and nothing without one. It is consistent
exactly when its document lists no service as switched on without listing it as covered. Nothing is assumed of the
reader of documents, whatever it accepts and whatever it makes of it. -/
theorem consistent_iff_of_ask (h : runFrom (Subscription.ask reader status) asked = (.ok subscription, asked')) :
    ∃ text document, runFrom status asked = (.ok text, asked') ∧ reader text = .ok document ∧
      subscription.Restricted ∧ (subscription.Consistent ↔ (document.attached → document.CoversEnabled)) := by
  obtain ⟨text, document, htext, hread, rfl⟩ := exists_of_runFrom_ask h
  exact ⟨text, document, htext, hread, document.restricted_subscription, document.consistent_subscription_iff⟩

end Ask

/-- A service is switched on that the subscription does not cover. -/
def uncoveredStatus : String :=
  "\x7b\"attached\":true,\"services\":[\x7b\"name\":\"esm-infra\",\"entitled\":\"no\",\"status\":\"enabled\"\x7d]\x7d"

def uncovered : Subscription := ⟨true, .ofList [.esmInfra], ∅⟩

/-- Asks for the subscription where the document says this. -/
def askUncovered : Dialogue Request Subscription :=
  Subscription.ask StatusDocument.plainReader (pure uncoveredStatus)

theorem runFrom_askUncovered : runFrom askUncovered [] = (.ok uncovered, []) := by
  cbv

theorem consistent_uncovered_iff :
    ∃ document, StatusDocument.plainReader uncoveredStatus = .ok document ∧ uncovered.Restricted ∧
      (uncovered.Consistent ↔ (document.attached → document.CoversEnabled)) := by
  obtain ⟨text, document, htext, hread, hrestricted, hconsistent⟩ := consistent_iff_of_ask runFrom_askUncovered
  cases htext
  exact ⟨document, hread, hrestricted, hconsistent⟩

/-- Nothing but the document keeps a service from being switched on without being covered. -/
theorem not_consistent_uncoveredStatus :
    runFrom askUncovered [] = (.ok uncovered, []) ∧ ¬uncovered.Consistent := by
  refine ⟨runFrom_askUncovered, fun h => ?_⟩
  exact absurd (h.enabled_entitled .esmInfra (by decide)) (by decide)

end UpdatePosture
