import Missive.Value

/-!
# Folding values

Several functions on messages follow the tree of a value and only differ in what they make of one
message once its parts are done. `Value.part` is that recursion: it turns a value into a tree of
parts, in which each message comes with its summary.
-/

namespace Missive

/-- A value whose messages are summed up. -/
inductive Part (α : Type) where
  | plain (source : Value)
  | list (source : Value) (items : List (Part α))
  | tuple (source : Value) (items : List (Part α))
  | map (source : Value) (readOnly : Bool) (entries : List (Key × Part α))
  | case (source : Value) (tag : CaseTag) (value : Part α)
  | message (source : Value) (summary : α)

/-- How a message is summed up, given the parts of its slots, extensions and loose attributes. -/
abbrev Summarize (α : Type) :=
  Head → List (Part α) → List (Extension × Part α) → List (String × Part α) → α

variable {α : Type}

namespace Part

def source : Part α → Value
  | plain v => v
  | list v _ => v
  | tuple v _ => v
  | map v _ _ => v
  | case v _ _ => v
  | message v _ => v

def summary? : Part α → Option α
  | message _ s => some s
  | _ => none

def elements? : Part α → Option (List (Part α))
  | list _ items => some items
  | tuple _ items => some items
  | p => p.source.elements?.map fun items => items.map plain

end Part

mutual

def Value.part (f : Summarize α) : Value → Part α
  | .scalar s => .plain (.scalar s)
  | .list items => .list (.list items) (partList f items)
  | .tuple items => .tuple (.tuple items) (partList f items)
  | .map readOnly entries => .map (.map readOnly entries) readOnly (partEntries f entries)
  | .case tag v loose => .case (.case tag v loose) tag (v.part f)
  | .message head slots extensions loose =>
    .message (.message head slots extensions loose)
      (f head (partList f slots) (partExtensions f extensions) (partLoose f loose))
  | .loop => .plain .loop

def partList (f : Summarize α) : List Value → List (Part α)
  | [] => []
  | v :: rest => v.part f :: partList f rest

def partEntries (f : Summarize α) : List (Key × Value) → List (Key × Part α)
  | [] => []
  | (key, v) :: rest => (key, v.part f) :: partEntries f rest

def partExtensions (f : Summarize α) : List (Extension × Value) → List (Extension × Part α)
  | [] => []
  | (e, v) :: rest => (e, v.part f) :: partExtensions f rest

def partLoose (f : Summarize α) : List (String × Value) → List (String × Part α)
  | [] => []
  | (name, v) :: rest => (name, v.part f) :: partLoose f rest

end

end Missive
