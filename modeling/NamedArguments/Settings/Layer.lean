import NamedArguments.Value.Member

/-!
Layers of settings. Laying one object over another gives a new object with the
members of both: where both hold objects these are laid over one another in
turn, and anywhere else the upper layer's value stands as it is. Members are
read and assigned as members of objects are, so a member under the parent's
name replaces the parent of the object being made unless that object already
has a member so called. An object may come to have a parent that refuses a member
that follows; then the layer cannot be laid.
-/
namespace NamedArguments.Settings

mutual

/-- The value of a member after a layer that gives it `new` is laid over one
where it reads as `old`. -/
def overlay (old : Value) : Value → Value
  | .object identity parent members =>
    if old.isRecord then overlayMembers (.ancestor .record) old.ownMembers members
    else .object identity parent members
  | .ancestor family =>
    if old.isRecord && (Value.ancestor family).isRecord then Value.plain .merged old.ownMembers
    else .ancestor family
  | new => new
termination_by structural new => new

/-- Assigns an upper layer's members, one after the other, to an object in the
making. -/
def overlayMembers (parent : Value) (made : Members) : List (String × Value) → Value
  | [] => .object .merged parent made
  | (name, new) :: rest =>
    let before := Value.object .merged parent made
    let after := before.assign name (overlay (before.member name) new)
    overlayMembers after.parent after.ownMembers rest
termination_by structural members => members

end

/-- A layer laid over another. The lower one is copied with its own members
only; the upper one may be any value that has members. -/
def layer (lower upper : Value) : Value :=
  overlayMembers (.ancestor .record) lower.ownMembers upper.enumerable

mutual

/-- Whether laying a value over another meets a member that may not be read or
assigned. -/
def overlayRefused (old : Value) : Value → Bool
  | .object _ _ members =>
    old.isRecord && membersRefused (.ancestor .record) old.ownMembers members
  | _ => false
termination_by structural new => new

/-- Whether one of the members assigned to an object in the making may not be
read or assigned there. -/
def membersRefused (parent : Value) (made : Members) : List (String × Value) → Bool
  | [] => false
  | (name, new) :: rest =>
    let before := Value.object .merged parent made
    let after := before.assign name (overlay (before.member name) new)
    before.refusesReading name || overlayRefused (before.member name) new ||
      before.settles name || membersRefused after.parent after.ownMembers rest
termination_by structural members => members

end

/-- Whether a layer cannot be laid over another. -/
def layerRefused (lower upper : Value) : Bool :=
  membersRefused (.ancestor .record) lower.ownMembers upper.enumerable

/-- A layer without members. -/
def empty : Value := Value.plain .merged []

end NamedArguments.Settings
