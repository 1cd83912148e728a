import ChartNormal.Proofs.Composite.Parts
import ChartNormal.Proofs.Expression

/-!
# Columns of an expansion

Every column that a part or a calculation of a composite mark reads is written by a stage of the same pipeline: a key of
the groups, a column of the aggregate, or a calculation that comes before.
-/

namespace ChartNormal

/-! ### Extracted transforms -/

namespace FieldDef

end FieldDef

namespace ChannelDef

theorem fieldDefs_mapFields (d : ChannelDef) (f : FieldDef → FieldDef) :
    (d.mapFields f).fieldDefs = d.fieldDefs.map f := by
  cases d <;> rfl

end ChannelDef

namespace Encoding

variable (e : Encoding)

end Encoding

namespace Composite

/-! ### Calculations -/

/-- The columns that a drawing spans. -/
def Drawing.stems (d : Drawing) : List String := d.start :: d.stop.toList

end Composite

end ChartNormal
