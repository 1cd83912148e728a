import ChartNormal.Json.Basic

/-!
# Merging JSON values

Objects merge key by key and at every depth; any other value on top replaces what is below it.
-/

namespace ChartNormal

namespace Json

mutual

def merge (base : Json) : Json → Json
  | .obj top =>
    match base with
    | .obj below => .obj (mergeMembers below top)
    | _ => .obj top
  | top => top

def mergeMembers (below : Members) : Members → Members
  | [] => below
  | (k, j) :: rest =>
    let merged := match below.lookup k with
      | some old => merge old j
      | none => j
    mergeMembers (OrderedMap.place k merged below) rest

end

end Json

end ChartNormal
