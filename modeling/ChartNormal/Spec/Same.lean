import ChartNormal.Spec.Basic

/-!
# Equality of specifications

`Spec.same` compares node by node. The order of channels and of free-form properties does not count, a bare tag differs
from a definition of the same type, and an integer differs from a number with a fraction.
-/

namespace ChartNormal

variable {κ α : Type}

def OrderedMap.same [DecidableEq κ] (eq : α → α → Bool) (m n : OrderedMap κ α) : Bool :=
  m.size = n.size && m.entries.all fun e => (n.get? e.1).any (eq e.2)

def Object.same (m n : Object) : Bool := OrderedMap.same Json.same m n

/-- Both missing, or both present and equal. -/
def sameOption (eq : α → α → Bool) : Option α → Option α → Bool
  | none, none => true
  | some a, some b => eq a b
  | _, _ => false

def sameList (eq : α → α → Bool) (a b : List α) : Bool :=
  a.length = b.length && (a.zip b).all fun p => eq p.1 p.2

def Extent.same : Extent → Extent → Bool
  | .scalar a, .scalar b => a.same b
  | .named a, .named b => a = b
  | _, _ => false

def Bin.same : Bin → Bin → Bool
  | .flag a, .flag b => a = b
  | .binned, .binned => true
  | .params a, .params b => Object.same a b
  | _, _ => false

def MarkDef.same (a b : MarkDef) : Bool :=
  a.type = b.type && a.orient = b.orient && sameOption Extent.same a.extent b.extent && a.center = b.center &&
    a.color = b.color && sameOption Double.same a.opacity b.opacity && a.filled = b.filled && a.style = b.style &&
    a.interpolate = b.interpolate && sameOption Double.same a.tension b.tension && Object.same a.props b.props

def Mark.same : Mark → Mark → Bool
  | .tag a, .tag b => a = b
  | .defined a, .defined b => a.same b
  | _, _ => false

def FieldDef.same (a b : FieldDef) : Bool :=
  a.field = b.field && a.type = b.type && sameOption Bin.same a.bin b.bin && a.timeUnit = b.timeUnit &&
    a.aggregate = b.aggregate && sameOption Json.same a.scale b.scale && sameOption Json.same a.axis b.axis &&
    sameOption Json.same a.legend b.legend && sameOption Json.same a.sort b.sort && a.title = b.title &&
    a.stack = b.stack && Object.same a.props b.props

def ChannelDef.same : ChannelDef → ChannelDef → Bool
  | .fields a, .fields b => sameList FieldDef.same a b
  | .field a, .field b => a.same b
  | .value a, .value b => a.same b
  | _, _ => false

def Transform.same : Transform → Transform → Bool
  | .bin a, .bin b => a.bin.same b.bin && a.field = b.field && a.as = b.as
  | .impute f k g v, .impute f' k' g' v' => f = f' && k = k' && g = g' && sameOption Json.same v v'
  | .other a, .other b => Object.same a b
  | a, b => a = b

def UnitSpec.same (a b : UnitSpec) : Bool :=
  sameList Transform.same a.transform b.transform && a.mark.same b.mark &&
    OrderedMap.same ChannelDef.same a.encoding b.encoding && Object.same a.outer b.outer

def FacetMapping.same (a b : FacetMapping) : Bool :=
  sameOption FieldDef.same a.row b.row && sameOption FieldDef.same a.column b.column

namespace Spec

mutual

def same : Spec → Spec → Bool
  | .unit a, .unit b => a.same b
  | .layer t ls o, .layer t' ls' o' => sameList Transform.same t t' && sameAll ls ls' && Object.same o o'
  | .facet t m c o, .facet t' m' c' o' =>
    sameList Transform.same t t' && m.same m' && c.same c' && Object.same o o'
  | _, _ => false

def sameAll : List Spec → List Spec → Bool
  | [], [] => true
  | a :: as, b :: bs => a.same b && sameAll as bs
  | _, _ => false

end

end Spec

end ChartNormal
