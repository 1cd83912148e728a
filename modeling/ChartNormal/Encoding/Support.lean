import ChartNormal.Encoding.Basic
import ChartNormal.Report

/-!
# What a mark makes of an encoding

A primitive mark keeps the channels that it supports, and of these the definitions that refer to data or are constants.
What is dropped is noted, in the order of the encoding.
-/

namespace ChartNormal

namespace ChannelDef

/-- What is left of a definition on a channel that the mark supports. -/
def settled? (c : Channel) : ChannelDef → Option ChannelDef
  | fields defs =>
    let kept := defs.filter FieldDef.hasField
    if c.acceptsList && !kept.isEmpty then some (fields kept) else none
  | field d => if d.hasField then some (field d) else none
  | value v => some (value v)

/-- The warnings about what is dropped of it. -/
def dropped (c : Channel) : ChannelDef → List Warning
  | fields defs =>
    if c.acceptsList then (defs.filter fun d => !d.hasField).map fun _ => .emptyField c else [.listNotSupported c]
  | field d => if d.hasField then [] else [.emptyField c]
  | value _ => []

end ChannelDef

namespace Encoding

/-- What a primitive mark draws of an encoding. -/
def settle (e : Encoding) (mark : Primitive) : Encoding :=
  e.filterMapValues fun c d => if c.supports mark then d.settled? c else none

def settleWarnings (e : Encoding) (mark : Primitive) : List Warning :=
  e.entries.flatMap fun b =>
    if b.1.supports mark then b.2.dropped b.1 else [.incompatibleChannel b.1 mark.name]

/-- The primary channel takes the place of the secondary one where it is missing. -/
def promoted (e : Encoding) (c : Channel) : Channel :=
  match c with
  | .x2 => if e.contains .x then .x2 else .x
  | .y2 => if e.contains .y then .y2 else .y
  | c => c

def promoteSecondary (e : Encoding) : Encoding := .ofList (e.entries.map fun b => (e.promoted b.1, b.2))

end Encoding

end ChartNormal
