import UpdatePosture.ByBucket
import UpdatePosture.Classification

/-!
# Partition of the installed packages

Every installed package is placed in one bucket. A partition keeps the packages in their order and, filed under
each bucket, the positions of the packages in it, so that a bucket is read by looking up its positions.
-/

namespace UpdatePosture

structure Partition where
  packages : List InstalledPackage
  positions : ByBucket Nat

namespace Partition

/-- The positions of the packages in a bucket. -/
def indices (partition : Partition) (bucket : Bucket) : List Nat :=
  partition.positions.under bucket

/-- The packages in a bucket. -/
def bucket (partition : Partition) (bucket : Bucket) : List InstalledPackage :=
  (partition.indices bucket).map fun position => partition.packages[position]!

/-- The number of packages in a bucket. -/
def count (partition : Partition) (bucket : Bucket) : Nat :=
  (partition.indices bucket).length

/-- The packages in several buckets, bucket by bucket. -/
def inBuckets (partition : Partition) (buckets : List Bucket) : List InstalledPackage :=
  buckets.flatMap partition.bucket

end Partition

namespace OriginTable

/-- Files the position of a package under the bucket that the package is classified in. -/
def place (table : OriginTable) (positions : ByBucket Nat) (placed : InstalledPackage × Nat) : ByBucket Nat :=
  positions.push (table.classify placed.1) placed.2

/-- Places every package in the bucket it is classified in. -/
def partition (table : OriginTable) (packages : List InstalledPackage) : Partition where
  packages := packages
  positions := packages.zipIdx.foldl table.place ∅

/-- What is logged of the packages when they are placed. -/
def partitionLog (table : OriginTable) (packages : List InstalledPackage) : List LogEvent :=
  packages.flatMap table.classifyLog

end OriginTable

end UpdatePosture
