import ContractMeter.Tree.Node

/-!
# ContractMeter.Sanitizer

Renaming of identifiers. Every identifier a contract writes gets a prefix, so a contract cannot
reach the names of its runtime. Two things keep their names: excluded identifiers, and plain
member accesses on the host namespace.

* `Sanitizer.isHostAccess` — `Host.name` is exempt, `Host[expression]` is not.
* `Sanitizer.rename` — the new name of an identifier.
* `Sanitizer.sanitize` — the renamed tree.
-/

namespace ContractMeter

structure Sanitizer where
  excluded : List String
  /-- What a renamed identifier starts with. -/
  marker : String
  host : String
  maxDepth : Int

namespace Sanitizer

/-- A plain access to a member of the host namespace. -/
def isHostAccess (s : Sanitizer) (member : Value) : Bool :=
  let object := member.field "object"
  !(member.field "computed").truthy && object.hasKind "Identifier" &&
    (object.field "name").isText s.host

/-- The prefix before a name; a name that is no text is displayed. -/
def prefixed (s : Sanitizer) : Value → Value
  | .broken t => .ofPoints (TextPoint.ofString s.marker ++ t.points)
  | name => .text (s.marker ++ name.display)

def isExcluded (s : Sanitizer) : Value → Bool
  | .text name => s.excluded.contains name
  | _ => false

/-- An identifier under its new name. -/
def rename (s : Sanitizer) (identifier : Fields) : Except Failure Value :=
  let name := Fields.get identifier "name"
  if !name.comparable then .error (.faulted .unusableKey)
  else if s.isExcluded name then .ok (.record identifier)
  else .ok (.record (Fields.set identifier "name" (s.prefixed name)))

/-- Applies a function to the items of a list, up to the first failure. -/
def eachItem (f : Value → Except Failure Value) : List Value → Except Failure (List Value)
  | [] => .ok []
  | item :: rest =>
    match f item with
    | .error failure => .error failure
    | .ok item =>
      match eachItem f rest with
      | .error failure => .error failure
      | .ok rest => .ok (item :: rest)

/-- Applies a function to the values of fields, up to the first failure. -/
def eachField (f : Value → Except Failure Value) : Fields → Except Failure Fields
  | [] => .ok []
  | (key, value) :: rest =>
    match f value with
    | .error failure => .error failure
    | .ok value =>
      match eachField f rest with
      | .error failure => .error failure
      | .ok rest => .ok ((key, value) :: rest)

/-- The renamed tree, if it is no more than so many levels deep. -/
def sanitizeAt (s : Sanitizer) : Nat → Value → Except Failure Value
  | 0, _ => .error (.rejected (.tooDeep (some s.maxDepth)))
  | levels + 1, .list items =>
    match eachItem (sanitizeAt s levels) items with
    | .error failure => .error failure
    | .ok items => .ok (.list items)
  | levels + 1, .record fields =>
    let kind := Fields.get fields "type"
    if kind.isText "Identifier" then s.rename fields
    else if kind.isText "MemberExpression" && s.isHostAccess (.record fields) then
      .ok (.record fields)
    else
      match eachField (sanitizeAt s levels) fields with
      | .error failure => .error failure
      | .ok fields => .ok (.record fields)
  | _ + 1, scalar => .ok scalar

/-- The renamed tree of a computation that stands at a depth. -/
def sanitize (s : Sanitizer) (depth : Int) (computation : Value) : Except Failure Value :=
  s.sanitizeAt (levelsLeft s.maxDepth depth) computation

/-- The tree after so many sanitizations in a row. -/
def sanitizeTimes (s : Sanitizer) : Nat → Value → Except Failure Value
  | 0, tree => .ok tree
  | count + 1, tree =>
    match s.sanitize 0 tree with
    | .error failure => .error failure
    | .ok tree => s.sanitizeTimes count tree

end Sanitizer

end ContractMeter
