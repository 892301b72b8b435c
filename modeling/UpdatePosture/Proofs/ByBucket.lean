import Mathlib
import UpdatePosture.ByBucket

/-!
# What is filed under a bucket

Items that are filed one after the other stand under their bucket in the order in which they came
(`under_foldl_push`). No bucket has an entry without items (`Filled`), so that the entries are all buckets that have
any, in the order of the buckets (`toList_eq_of_filled`).
-/

namespace UpdatePosture

theorem Bucket.pairwise_all : all.Pairwise fun first second => compare first second = .lt := by
  decide

namespace ByBucket

variable {α β : Type}

theorem under_foldl_push (key : β → Bucket) (image : β → α) (items : List β) (filed : ByBucket α) (bucket : Bucket) :
    (items.foldl (fun filed item => filed.push (key item) (image item)) filed).under bucket =
      filed.under bucket ++ (items.filter (key · == bucket)).map image := by
  induction items generalizing filed with
  | nil => simp
  | cons item items ih =>
    rw [List.foldl_cons, ih, under_push]
    by_cases h : key item = bucket <;> simp [h]

/-- Every bucket that has an entry has items. -/
def Filled (filed : ByBucket α) : Prop :=
  ∀ bucket : Bucket, filed[bucket]? ≠ some []

theorem filled_empty : Filled (∅ : ByBucket α) := by
  intro bucket
  simp

theorem Filled.push {filed : ByBucket α} (h : Filled filed) (bucket : Bucket) (item : α) :
    Filled (filed.push bucket item) := by
  intro other
  rw [ByBucket.push, Std.TreeMap.getElem?_alter]
  split
  · simp
  · exact h other

theorem filled_foldl_push (key : β → Bucket) (image : β → α) (items : List β) {filed : ByBucket α} (h : Filled filed) :
    Filled (items.foldl (fun filed item => filed.push (key item) (image item)) filed) := by
  induction items generalizing filed with
  | nil => exact h
  | cons item items ih => exact ih (h.push _ _)

/-- A bucket that has an entry has the items that are under it. -/
theorem getElem?_eq_some_iff {filed : ByBucket α} (h : Filled filed) {bucket : Bucket} {items : List α} :
    filed[bucket]? = some items ↔ filed.under bucket = items ∧ items ≠ [] := by
  rw [under, Std.TreeMap.getD_eq_getD_getElem?]
  cases hentry : filed[bucket]? with
  | none => simp +contextual [eq_comm]
  | some entry =>
    have hentry' : entry ≠ [] := fun hempty => h bucket (hempty ▸ hentry)
    constructor
    · rintro ⟨⟩
      exact ⟨rfl, hentry'⟩
    · rintro ⟨rfl, -⟩
      rfl

theorem toList_eq_of_filled {filed : ByBucket α} (h : Filled filed) :
    filed.toList =
      (Bucket.all.map fun bucket => (bucket, filed.under bucket)).filter fun group => !group.2.isEmpty := by
  let before (first second : Bucket × List α) : Prop := compare first.1 second.1 = .lt
  have hirrefl : Std.Irrefl before := ⟨fun group => by simp [before]⟩
  have hasymm : Std.Asymm before :=
    ⟨fun first second hlt hgt => by simp [before, Std.OrientedCmp.eq_swap (a := first.1), hgt] at hlt⟩
  have hall : ((Bucket.all.map fun bucket => (bucket, filed.under bucket)).filter fun group =>
      !group.2.isEmpty).Pairwise before :=
    (List.pairwise_map.mpr Bucket.pairwise_all).filter _
  refine List.Pairwise.eq_of_mem_iff Std.TreeMap.ordered_keys_toList hall fun group => ?_
  obtain ⟨bucket, items⟩ := group
  rw [Std.TreeMap.mem_toList_iff_getElem?_eq_some, getElem?_eq_some_iff h]
  simp [Bucket.mem_all]

end ByBucket

end UpdatePosture
