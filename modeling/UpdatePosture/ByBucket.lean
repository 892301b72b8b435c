import Std.Data.TreeMap.Lemmas
import UpdatePosture.Bucket

/-!
# Items by bucket

Items are filed under buckets one after the other. A bucket has an entry once something is filed under it, and
entries are listed in the order of the buckets.
-/

namespace UpdatePosture

abbrev ByBucket (α : Type) := Std.TreeMap Bucket (List α)

namespace ByBucket

variable {α : Type}

/-- Files an item under a bucket, behind those that are there. -/
def push (filed : ByBucket α) (bucket : Bucket) (item : α) : ByBucket α :=
  filed.alter bucket fun items => some (items.getD [] ++ [item])

/-- What is filed under a bucket. -/
def under (filed : ByBucket α) (bucket : Bucket) : List α :=
  filed.getD bucket []

@[simp] theorem under_empty (bucket : Bucket) : under (∅ : ByBucket α) bucket = [] :=
  Std.TreeMap.getD_emptyc

theorem under_push (filed : ByBucket α) (bucket other : Bucket) (item : α) :
    (filed.push bucket item).under other =
      if bucket = other then filed.under other ++ [item] else filed.under other := by
  unfold push under
  rw [Std.TreeMap.getD_alter]
  by_cases h : bucket = other
  · subst h
    simp [Std.TreeMap.getD_eq_getD_getElem?]
  · simp [h]

end ByBucket

end UpdatePosture
