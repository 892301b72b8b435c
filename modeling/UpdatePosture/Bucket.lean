import Std.Data.TreeMap

/-!
# Buckets

The groups that installed packages and their updates are counted in: the services that publish security
updates, the components of the archive, and two groups for what comes from elsewhere.
-/

namespace UpdatePosture

inductive Bucket where
  | standardSecurity
  | esmInfra
  | esmApps
  | mainComponent
  | restrictedComponent
  | universeComponent
  | multiverseComponent
  | thirdParty
  | unknown
  deriving DecidableEq, Repr

namespace Bucket

/-- Every bucket, in the order that reports list them in. -/
def all : List Bucket :=
  [standardSecurity, esmInfra, esmApps, mainComponent, restrictedComponent, universeComponent,
   multiverseComponent, thirdParty, unknown]

/-- Buckets are ordered as reports list them. -/
instance : Ord Bucket := ⟨compareOn Bucket.ctorIdx⟩

instance : Std.TransOrd Bucket := inferInstanceAs (Std.TransCmp (compareOn Bucket.ctorIdx))

instance : Std.LawfulEqOrd Bucket where
  compare_self {bucket} := by cases bucket <;> rfl
  eq_of_compare {first second} := by cases first <;> cases second <;> decide

theorem mem_all (bucket : Bucket) : bucket ∈ all := by
  cases bucket <;> decide

def name : Bucket → String
  | standardSecurity => "standard-security"
  | esmInfra => "esm-infra"
  | esmApps => "esm-apps"
  | mainComponent => "main"
  | restrictedComponent => "restricted"
  | universeComponent => "universe"
  | multiverseComponent => "multiverse"
  | thirdParty => "third-party"
  | unknown => "unknown"

instance : ToString Bucket := ⟨name⟩

/-- The bucket with this name. -/
def ofName? (text : String) : Option Bucket :=
  all.find? fun bucket => bucket.name == text

theorem ofName?_name (bucket : Bucket) : ofName? bucket.name = some bucket := by
  cases bucket <;> decide +kernel

/-- Whether the bucket is a service that only a subscription gives access to. -/
def isEsm : Bucket → Bool
  | esmInfra | esmApps => true
  | _ => false

/-- The bucket of a component of the archive. -/
def ofComponent? (component : String) : Option Bucket :=
  [mainComponent, restrictedComponent, universeComponent, multiverseComponent].find? fun bucket =>
    bucket.name == component

end Bucket

/-- A set of buckets, listed in the order of `Bucket.all`. -/
structure BucketSet where
  toList : List Bucket
  canonical : toList = Bucket.all.filter (· ∈ toList)
  deriving DecidableEq, Repr

namespace BucketSet

/-- The buckets that occur in the list. -/
def ofList (buckets : List Bucket) : BucketSet where
  toList := Bucket.all.filter (· ∈ buckets)
  canonical := by
    refine List.filter_congr fun bucket _ => ?_
    simp [Bucket.mem_all]

instance : EmptyCollection BucketSet := ⟨ofList []⟩

instance : Inhabited BucketSet := ⟨∅⟩

instance : Membership Bucket BucketSet := ⟨fun set bucket => bucket ∈ set.toList⟩

instance (bucket : Bucket) (set : BucketSet) : Decidable (bucket ∈ set) :=
  inferInstanceAs (Decidable (bucket ∈ set.toList))

theorem mem_toList {bucket : Bucket} {set : BucketSet} : bucket ∈ set.toList ↔ bucket ∈ set :=
  Iff.rfl

@[simp] theorem mem_ofList {bucket : Bucket} {buckets : List Bucket} :
    bucket ∈ ofList buckets ↔ bucket ∈ buckets := by
  rw [← mem_toList]
  simp [ofList, Bucket.mem_all]

@[simp] theorem not_mem_empty {bucket : Bucket} : bucket ∉ (∅ : BucketSet) :=
  fun h => List.not_mem_nil (mem_ofList.1 h)

@[simp] theorem ofList_toList (set : BucketSet) : ofList set.toList = set := by
  obtain ⟨toList, canonical⟩ := set
  simp only [ofList, mk.injEq]
  exact canonical.symm

end BucketSet

end UpdatePosture
