import UpdatePosture.Text.Utf8
import UpdatePosture.Version.Basic
import UpdatePosture.Version.Fragment

/-!
# The order of package versions

Epochs decide first, then upstream parts, then revisions. Versions that are written differently may be
equal in this order, as `1.0` and `1.00` are.
-/

namespace UpdatePosture.Version

/-- The order of versions; fragments compare by their UTF-8 bytes. -/
def order (left right : Version) : Ordering :=
  ((compare left.epoch right.epoch).then
    (compareFragments (Text.Utf8.encode left.upstream) (Text.Utf8.encode right.upstream))).then
    (compareFragments (Text.Utf8.encode left.revision) (Text.Utf8.encode right.revision))

/-- The order of two written versions, if both can be read. -/
def compare? (left right : String) : Option Ordering := do
  return order (← parse? left) (← parse? right)

end UpdatePosture.Version
